import Mathlib.Data.List.Perm.Subperm
import OpfsWebauthn.Backend.MintCap

/-!
# How much the store holds

Nothing removes an expired entry of the store but the sweep of a later write. So the store may hold
entries long after their deadline, but not more of them than there were writes in one lifetime
before the last sweep: `bounded_by_traffic` counts for each of the three maps the calls that ended
within a lifetime of it.

This rests on where a deadline comes from. When both clocks agree, the deadline of a record, of a
blob and of a counter is at most one lifetime after the call that stored it
(`deadline_of_putRendezvous`, `deadline_of_putBlob`).
-/

set_option autoImplicit false
set_option relaxedAutoImplicit false

namespace OpfsWebauthn.Backend

open Foundation Storage Crypto Share

/-! ### Writes -/

/-- The calls that sweep the store. -/
def StoreCall.sweeps : StoreCall → Bool
  | .putRendezvous .. | .putBlob .. | .incrementMintCounter .. => true
  | _ => false

/-- The reading of the wall clock in the last sweep. -/
def lastSweep (log : List LogEntry) : ℕ :=
  ((log.filter fun entry ↦ entry.call.sweeps).getLast?.map fun entry ↦ entry.before.wall).getD 0

/-- The code under which a call stored a record. -/
def mintedCode : Performed → Option String
  | ⟨.putRendezvous code _, true⟩ => some code
  | _ => none

/-- The code under which a call stored a blob. -/
def uploadedCode : Performed → Option String
  | ⟨.putBlob code _ _, true⟩ => some code
  | _ => none

/-- The bucket that a call counted. -/
def countedBucket : Performed → Option String
  | ⟨.incrementMintCounter ip _, _⟩ => some ip
  | _ => none

/-- The calls that had not ended one lifetime before a reading of the wall clock. -/
def recent (log : List LogEntry) (wall : ℕ) : List LogEntry :=
  log.filter fun entry ↦ wall < entry.after.wall + rendezvousTtlSeconds

theorem lastSweep_concat (log : List LogEntry) (entry : LogEntry) : lastSweep (log ++ [entry]) =
    if entry.call.sweeps then entry.before.wall else lastSweep log := by
  unfold lastSweep
  rw [List.filter_append]
  by_cases hsweeps : entry.call.sweeps = true
  · have hkept : [entry].filter (fun entry ↦ entry.call.sweeps) = [entry] := by simp [hsweeps]
    rw [if_pos hsweeps, hkept, List.getLast?_concat]
    rfl
  · have hnone : [entry].filter (fun entry ↦ entry.call.sweeps) = [] := by simp [hsweeps]
    rw [if_neg hsweeps, hnone, List.append_nil]

/-! ### What the store holds after a call -/

section Calls

variable {shared : Shared} {later : ℕ} {call : StoreCall} {code : String}

/-- A record after a sweep has not expired, or the call put it there. -/
theorem record_of_sweep (hsweeps : call.sweeps = true) {record : RendezvousRecord}
    (hrecord : (shared.callStore later call).1.records.get? code = some record) :
    (shared.inner.records.get? code = some record ∧ shared.wall < record.expiresAt) ∨
      (⟨call, (shared.callStore later call).2⟩ : Performed) =
        ⟨.putRendezvous code record, true⟩ := by
  have hswept : (shared.inner.sweep shared.wall).records.get? code = some record →
      shared.inner.records.get? code = some record ∧ shared.wall < record.expiresAt :=
    (Inner.get?_records_sweep _ _ _ _).mp
  cases call with
  | now => cases hsweeps
  | getRendezvous other => cases hsweeps
  | takeBlob other now => cases hsweeps
  | incrementMintCounter ip ttlSeconds => exact .inl (hswept hrecord)
  | putBlob other bytes expiresAt =>
    change (shared.inner.putBlob shared.wall other bytes expiresAt).1.records.get? code = _
      at hrecord
    rcases Inner.putBlob_cases shared.inner shared.wall other bytes expiresAt with
      ⟨-, heq⟩ | ⟨_, -, heq⟩
    · rw [heq] at hrecord
      exact .inl (hswept hrecord)
    · rw [heq] at hrecord
      exact .inl (hswept hrecord)
  | putRendezvous other stored =>
    rcases record_of_callStore hrecord with hold | hput
    · change (shared.inner.putRendezvous shared.wall other stored).1.records.get? code = _
        at hrecord
      rcases Inner.putRendezvous_cases shared.inner shared.wall other stored with
        ⟨hnone, heq⟩ | ⟨_, -, heq⟩
      · rw [heq] at hrecord
        change ((shared.inner.sweep shared.wall).records.set other stored).get? code = _ at hrecord
        rw [OrderedMap.get?_set] at hrecord
        split_ifs at hrecord with hcode
        · -- the code was free after the sweep, so this is the stored record
          obtain rfl := Option.some.inj hrecord
          subst hcode
          have hresult : (shared.callStore later (.putRendezvous code stored)).2 = true := by
            change (shared.inner.putRendezvous shared.wall code stored).2 = true
            rw [heq]
          rw [hresult]
          exact .inr rfl
        · exact .inl (hswept hrecord)
      · rw [heq] at hrecord
        exact .inl (hswept hrecord)
    · exact .inr hput

/-- A blob after a sweep has not expired, or the call put it there. -/
theorem blob_of_sweep (hsweeps : call.sweeps = true) {blob : StoredBlob}
    (hblob : (shared.callStore later call).1.blobs.get? code = some blob) :
    (shared.inner.blobs.get? code = some blob ∧ shared.wall < blob.expiresAt) ∨
      (⟨call, (shared.callStore later call).2⟩ : Performed) =
        ⟨.putBlob code blob.bytes blob.expiresAt, true⟩ := by
  have hswept : (shared.inner.sweep shared.wall).blobs.get? code = some blob →
      shared.inner.blobs.get? code = some blob ∧ shared.wall < blob.expiresAt :=
    (Inner.get?_blobs_sweep _ _ _ _).mp
  cases call with
  | now => cases hsweeps
  | getRendezvous other => cases hsweeps
  | takeBlob other now => cases hsweeps
  | incrementMintCounter ip ttlSeconds => exact .inl (hswept hblob)
  | putRendezvous other record =>
    change (shared.inner.putRendezvous shared.wall other record).1.blobs.get? code = _ at hblob
    rcases Inner.putRendezvous_cases shared.inner shared.wall other record with
      ⟨-, heq⟩ | ⟨_, -, heq⟩
    · rw [heq] at hblob
      exact .inl (hswept hblob)
    · rw [heq] at hblob
      exact .inl (hswept hblob)
  | putBlob other bytes expiresAt =>
    change (shared.inner.putBlob shared.wall other bytes expiresAt).1.blobs.get? code = _ at hblob
    rcases Inner.putBlob_cases shared.inner shared.wall other bytes expiresAt with
      ⟨hnone, heq⟩ | ⟨_, -, heq⟩
    · rw [heq] at hblob
      change ((shared.inner.sweep shared.wall).blobs.set other ⟨bytes, expiresAt⟩).get? code = _
        at hblob
      rw [OrderedMap.get?_set] at hblob
      split_ifs at hblob with hcode
      · obtain rfl := Option.some.inj hblob
        subst hcode
        have hresult : (shared.callStore later (.putBlob code bytes expiresAt)).2 = true := by
          change (shared.inner.putBlob shared.wall code bytes expiresAt).2 = true
          rw [heq]
        rw [hresult]
        exact .inr rfl
      · exact .inl (hswept hblob)
    · rw [heq] at hblob
      exact .inl (hswept hblob)

/-- A counter after a sweep has not expired, or the call counted it, with a deadline one lifetime
after its end. -/
theorem counter_of_sweep (hsweeps : call.sweeps = true)
    (httl : ∀ ip ttlSeconds, call = .incrementMintCounter ip ttlSeconds →
      ttlSeconds = rendezvousTtlSeconds) {bucket : String} {counter : Counter}
    (hcounter : (shared.callStore later call).1.counters.get? bucket = some counter) :
    (shared.inner.counters.get? bucket = some counter ∧ shared.wall < counter.expiresAt) ∨
      (countedBucket ⟨call, (shared.callStore later call).2⟩ = some bucket ∧
        counter.expiresAt ≤ later + rendezvousTtlSeconds) := by
  have hswept : (shared.inner.sweep shared.wall).counters.get? bucket = some counter →
      shared.inner.counters.get? bucket = some counter ∧ shared.wall < counter.expiresAt :=
    (Inner.get?_counters_sweep _ _ _ _).mp
  cases call with
  | now => cases hsweeps
  | getRendezvous other => cases hsweeps
  | takeBlob other now => cases hsweeps
  | putRendezvous other record =>
    change (shared.inner.putRendezvous shared.wall other record).1.counters.get? bucket = _
      at hcounter
    rcases Inner.putRendezvous_cases shared.inner shared.wall other record with
      ⟨-, heq⟩ | ⟨_, -, heq⟩
    · rw [heq] at hcounter
      exact .inl (hswept hcounter)
    · rw [heq] at hcounter
      exact .inl (hswept hcounter)
  | putBlob other bytes expiresAt =>
    change (shared.inner.putBlob shared.wall other bytes expiresAt).1.counters.get? bucket = _
      at hcounter
    rcases Inner.putBlob_cases shared.inner shared.wall other bytes expiresAt with
      ⟨-, heq⟩ | ⟨_, -, heq⟩
    · rw [heq] at hcounter
      exact .inl (hswept hcounter)
    · rw [heq] at hcounter
      exact .inl (hswept hcounter)
  | incrementMintCounter ip ttlSeconds =>
    change ((shared.inner.sweep shared.wall).counters.set ip
      ⟨_, saturatingAdd u64Max later ttlSeconds⟩).get? bucket = _ at hcounter
    rw [OrderedMap.get?_set] at hcounter
    split_ifs at hcounter with hsame
    · obtain rfl := Option.some.inj hcounter
      refine .inr ⟨hsame ▸ rfl, ?_⟩
      rw [httl ip ttlSeconds rfl]
      exact Nat.min_le_left _ _
    · exact .inl (hswept hcounter)

end Calls

/-! ### What the store holds in a run -/

/-- Every entry of the store was written by a call of the log, and had not expired at the last
sweep, unless this call is the last sweep. -/
structure SweptStore (shared : Shared) (log : List LogEntry) : Prop where
  records : ∀ {code : String} {record : RendezvousRecord},
    shared.inner.records.get? code = some record → ∃ entry ∈ log,
      entry.performed = ⟨.putRendezvous code record, true⟩ ∧
      (lastSweep log < record.expiresAt ∨ lastSweep log ≤ entry.before.wall)
  blobs : ∀ {code : String} {blob : StoredBlob},
    shared.inner.blobs.get? code = some blob → ∃ entry ∈ log,
      entry.performed = ⟨.putBlob code blob.bytes blob.expiresAt, true⟩ ∧
      (lastSweep log < blob.expiresAt ∨ lastSweep log ≤ entry.before.wall)
  counters : ∀ {bucket : String} {counter : Counter},
    shared.inner.counters.get? bucket = some counter → ∃ entry ∈ log,
      countedBucket entry.performed = some bucket ∧
      counter.expiresAt ≤ entry.after.wall + rendezvousTtlSeconds ∧
      (lastSweep log < counter.expiresAt ∨ lastSweep log ≤ entry.before.wall)

/-- One call keeps it. -/
theorem SweptStore.concat {entry : LogEntry} {log : List LogEntry} {passage : Passage}
    (hswept : SweptStore entry.before log) (hnames : NamesTtl entry.call)
    (hperform : machine.perform entry.before entry.call passage =
      some (entry.after, entry.result)) : SweptStore entry.after (log ++ [entry]) := by
  obtain ⟨thread, before, call, result, after⟩ := entry
  obtain ⟨later, -, hafter, hresult⟩ := perform_eq_some_iff.mp hperform
  change after = _ at hafter
  change result = _ at hresult
  change SweptStore before log at hswept
  have hinner : after.inner = (before.callStore later.wall call).1 := by rw [hafter]
  have hlater : after.wall = later.wall := by rw [hafter]
  have hlast := lastSweep_concat log ⟨thread, before, call, result, after⟩
  change lastSweep _ = if call.sweeps then before.wall else lastSweep log at hlast
  by_cases hsweeps : call.sweeps = true
  · -- The store was swept at this call.
    rw [if_pos hsweeps] at hlast
    refine ⟨?_, ?_, ?_⟩
    · intro code record hrecord
      rw [hinner] at hrecord
      rcases record_of_sweep hsweeps hrecord with ⟨hold, hfresh⟩ | hput
      · obtain ⟨entry, hentry, hperformed, -⟩ := hswept.records hold
        refine ⟨entry, List.mem_append_left _ hentry, hperformed, .inl ?_⟩
        rw [hlast]
        exact hfresh
      · refine ⟨_, List.mem_append_right _ (List.mem_singleton_self _), ?_, .inr ?_⟩
        · rw [← hresult] at hput
          exact hput
        · rw [hlast]
    · intro code blob hblob
      rw [hinner] at hblob
      rcases blob_of_sweep hsweeps hblob with ⟨hold, hfresh⟩ | hput
      · obtain ⟨entry, hentry, hperformed, -⟩ := hswept.blobs hold
        refine ⟨entry, List.mem_append_left _ hentry, hperformed, .inl ?_⟩
        rw [hlast]
        exact hfresh
      · refine ⟨_, List.mem_append_right _ (List.mem_singleton_self _), ?_, .inr ?_⟩
        · rw [← hresult] at hput
          exact hput
        · rw [hlast]
    · intro bucket counter hcounter
      rw [hinner] at hcounter
      have httl : ∀ ip ttlSeconds, call = .incrementMintCounter ip ttlSeconds →
          ttlSeconds = rendezvousTtlSeconds := by
        rintro ip ttlSeconds rfl
        exact hnames
      rcases counter_of_sweep hsweeps httl hcounter with ⟨hold, hfresh⟩ | ⟨hcounted, hdeadline⟩
      · obtain ⟨entry, hentry, hperformed, hbound, -⟩ := hswept.counters hold
        refine ⟨entry, List.mem_append_left _ hentry, hperformed, hbound, .inl ?_⟩
        rw [hlast]
        exact hfresh
      · refine ⟨_, List.mem_append_right _ (List.mem_singleton_self _), ?_, ?_, .inr ?_⟩
        · rw [← hresult] at hcounted
          exact hcounted
        · change counter.expiresAt ≤ after.wall + rendezvousTtlSeconds
          rw [hlater]
          exact hdeadline
        · rw [hlast]
  · rw [if_neg hsweeps] at hlast
    refine ⟨?_, ?_, ?_⟩
    · intro code record hrecord
      rw [hinner] at hrecord
      rcases record_of_callStore hrecord with hold | hput
      · obtain ⟨entry, hentry, hperformed, hfresh⟩ := hswept.records hold
        rw [← hlast] at hfresh
        exact ⟨entry, List.mem_append_left _ hentry, hperformed, hfresh⟩
      · obtain ⟨rfl, -⟩ := Sigma.mk.inj hput
        exact absurd rfl hsweeps
    · intro code blob hblob
      rw [hinner] at hblob
      rcases blob_of_callStore hblob with ⟨hold, -⟩ | hput
      · obtain ⟨entry, hentry, hperformed, hfresh⟩ := hswept.blobs hold
        rw [← hlast] at hfresh
        exact ⟨entry, List.mem_append_left _ hentry, hperformed, hfresh⟩
      · obtain ⟨rfl, -⟩ := Sigma.mk.inj hput
        exact absurd rfl hsweeps
    · intro bucket counter hcounter
      rw [hinner] at hcounter
      have hother : ∀ ttlSeconds, call ≠ .incrementMintCounter bucket ttlSeconds := by
        rintro ttlSeconds rfl
        exact hsweeps rfl
      have hold := (counter_of_callStore hother counter).1 hcounter
      obtain ⟨entry, hentry, hperformed, hbound, hfresh⟩ := hswept.counters hold
      rw [← hlast] at hfresh
      exact ⟨entry, List.mem_append_left _ hentry, hperformed, hbound, hfresh⟩

variable {primitives : Primitives} {trustedIpHeader : TrustedIpHeader} {wall clock : ℕ}
  {world : Relay}

theorem sweptStore_of_reaches
    (hreaches : (Relay.automaton primitives trustedIpHeader).Reaches (Relay.start wall clock)
      world) : SweptStore world.shared world.log := by
  refine Threads.shared_invariant_of_allows hreaches allows_handle_ttl SweptStore ?_ ?_ ?_
  · refine ⟨?_, ?_, ?_⟩
    · intro code record hrecord
      cases hrecord
    · intro code blob hblob
      cases hblob
    · intro bucket counter hcounter
      cases hcounter
  · intro shared log passage next hswept helapse
    obtain ⟨-, rfl⟩ := elapse_eq_some_iff.mp helapse
    exact ⟨hswept.records, hswept.blobs, hswept.counters⟩
  · intro shared log thread call passage next result hswept hnames hperform
    exact @SweptStore.concat ⟨thread, shared, call, result, next⟩ log passage hswept hnames
      hperform

/-! ### Where deadlines come from -/

/-- A mint request that is about to store its record has read the clock that its deadline is
counted from. -/
theorem now_of_putRendezvous {headers : HeaderMap} {body : Bytes} {trace : List Performed}
    {code : String} {record : RendezvousRecord} {next : Bool → Handler}
    (hruns : (mintRendezvous primitives trustedIpHeader headers body).Runs trace
      (.call (.putRendezvous code record) next)) : ∃ now : ℕ,
      (⟨.now, now⟩ : Performed) ∈ trace ∧
      record.expiresAt = (now + rendezvousTtlSeconds) % 2 ^ 64 := by
  rcases hruns.atCall with ⟨-, hcall⟩ | ⟨minted, later, rfl, hcounted⟩
  · cases hcall
  · by_cases hlimit : minted > mintRateLimit
    · rw [if_pos hlimit] at hcounted
      cases (Program.runs_done_iff.mp hcounted).2
    · rw [if_neg hlimit] at hcounted
      cases hcapped : readCappedBody body x25519PubkeyLen with
      | error cause =>
        rw [hcapped] at hcounted
        cases (Program.runs_done_iff.mp hcounted).2
      | ok read =>
        simp only [hcapped] at hcounted
        by_cases hlength : read.length ≠ x25519PubkeyLen
        · rw [if_pos hlength] at hcounted
          cases (Program.runs_done_iff.mp hcounted).2
        · rw [if_neg hlength] at hcounted
          rcases hcounted.atCall with ⟨-, hcall⟩ | ⟨now, last, rfl, hread⟩
          · cases hcall
          · refine ⟨now, List.mem_cons_of_mem _ List.mem_cons_self, ?_⟩
            rcases hread.atCall with ⟨-, hcall⟩ | ⟨ok, _, -, hstored⟩
            · cases hcall
              rfl
            · cases ok with
              | false => cases (Program.runs_done_iff.mp hstored).2
              | true => cases (Program.runs_done_iff.mp hstored).2

/-- Every call in the log was performed, and the wall clock did not go back. -/
theorem performed_of_reaches
    (hreaches : (Relay.automaton primitives trustedIpHeader).Reaches (Relay.start wall clock)
      world) :
    (∀ entry ∈ world.log, ∃ passage, machine.perform entry.before entry.call passage =
      some (entry.after, entry.result)) ∧
    ∀ (i j : ℕ) (first second : LogEntry), i < j → world.log[i]? = some first →
      world.log[j]? = some second → first.before.wall ≤ second.before.wall := by
  obtain ⟨hends, hpairs⟩ := Threads.ordered_of_reaches hreaches
    (fun earlier later ↦ earlier.wall ≤ later.wall) (fun _ ↦ Nat.le_refl _)
    (fun hab hbc ↦ Nat.le_trans hab hbc) (fun _ _ _ helapse ↦ (wall_le_of_elapse helapse).1)
    fun _ _ _ _ _ hperform ↦ (wall_le_of_perform hperform).1
  have hperformed := Threads.shared_invariant_before hreaches (fun _ _ ↦ True) trivial
    (fun _ _ _ _ _ _ ↦ trivial) (fun _ _ _ _ _ _ _ _ _ ↦ trivial)
  constructor
  · intro entry hentry
    obtain ⟨position, hposition⟩ := List.getElem?_of_mem hentry
    exact (hperformed position entry hposition).2
  · intro i j first second hlt hfirst hsecond
    exact Nat.le_trans (hends first (List.mem_of_getElem? hfirst)).1
      (hpairs i j first second hlt hfirst hsecond)

section Deadlines

variable
  (hreaches : (Relay.automaton primitives trustedIpHeader).Reaches (Relay.start wall clock) world)
  (hclocks : ∀ entry ∈ world.log, entry.before.wall = entry.before.clock)

include hreaches hclocks

/-- The deadline of a record is at most one lifetime after the call that stores it. -/
theorem deadline_of_putRendezvous {position : ℕ} {entry : LogEntry} {code : String}
    {record : RendezvousRecord} {ok : Bool} (hentry : world.log[position]? = some entry)
    (hput : entry.performed = ⟨.putRendezvous code record, ok⟩) :
    record.expiresAt ≤ entry.before.wall + rendezvousTtlSeconds := by
  have hconsistent : Threads.Consistent (handle primitives trustedIpHeader) world :=
    Threads.consistent_of_reaches hreaches
  obtain ⟨hperformed, hordered⟩ := performed_of_reaches hreaches
  obtain ⟨request, rest, next, -, hruns⟩ := hconsistent.runs_before hentry
  have hcall : entry.call = .putRendezvous code record := congrArg Sigma.fst hput
  have hmay := (hruns.allows (allows_handle request)).1
  rw [hcall] at hmay
  cases request with
  | fetch other => exact hmay.elim
  | upload other body => exact hmay.elim
  | download other => exact hmay.elim
  | mint headers body =>
    have hmint : ∃ next, (mintRendezvous primitives trustedIpHeader headers body).Runs
        (Threads.trace (world.log.take position) entry.thread)
        (.call (.putRendezvous code record) next) := by
      rw [← hcall]
      exact ⟨next, hruns⟩
    obtain ⟨_, hmint⟩ := hmint
    obtain ⟨now, hnow, hdeadline⟩ := now_of_putRendezvous hmint
    obtain ⟨earlier, clockRead, hlt, hearlier, -, hread⟩ :=
      Threads.exists_lt_of_mem_trace_take hnow
    have hbefore := hordered earlier position clockRead entry hlt hearlier hentry
    have hmem := List.mem_of_getElem? hearlier
    -- What the handler read is the wall clock at that time.
    have hvalue : now = clockRead.before.wall := by
      obtain ⟨passage, hperform⟩ := hperformed clockRead hmem
      obtain ⟨later, -, -, hresult⟩ := perform_eq_some_iff.mp hperform
      rw [hclocks clockRead hmem]
      have hsame : (⟨.now, now⟩ : Performed) =
          ⟨clockRead.call, (clockRead.before.callStore later.wall clockRead.call).2⟩ := by
        rw [← hresult]
        exact hread.symm
      obtain ⟨hnowCall, hnowResult⟩ := Sigma.mk.inj hsame
      revert hnowResult
      rw [← hnowCall]
      exact eq_of_heq
    rw [hdeadline]
    have hmod := Nat.mod_le (now + rendezvousTtlSeconds) (2 ^ 64)
    omega

/-- So is the deadline of a blob, which is that of a record that the upload has read. -/
theorem deadline_of_putBlob {position : ℕ} {entry : LogEntry} {code : String} {bytes : Bytes}
    {expiresAt : ℕ} {ok : Bool} (hentry : world.log[position]? = some entry)
    (hput : entry.performed = ⟨.putBlob code bytes expiresAt, ok⟩) :
    expiresAt ≤ entry.before.wall + rendezvousTtlSeconds := by
  have hconsistent : Threads.Consistent (handle primitives trustedIpHeader) world :=
    Threads.consistent_of_reaches hreaches
  obtain ⟨-, hordered⟩ := performed_of_reaches hreaches
  obtain ⟨request, rest, next, -, hruns⟩ := hconsistent.runs_before hentry
  have hcall : entry.call = .putBlob code bytes expiresAt := congrArg Sigma.fst hput
  have hmay := (hruns.allows (allows_handle request)).1
  rw [hcall] at hmay
  cases request with
  | mint headers body => exact hmay.elim
  | fetch other => exact hmay.elim
  | download other => exact hmay.elim
  | upload other body =>
    have hupload : ∃ next, (uploadBlob other body).Runs
        (Threads.trace (world.log.take position) entry.thread)
        (.call (.putBlob code bytes expiresAt) next) := by
      rw [← hcall]
      exact ⟨next, hruns⟩
    obtain ⟨_, hupload⟩ := hupload
    have hwhole := hupload.concat ok
    obtain ⟨rfl, rfl, epk, now, htrace, -, -⟩ :=
      putBlob_of_runs hwhole (List.mem_append_right _ (List.mem_singleton_self _))
    have hgot : (⟨.getRendezvous code, some ⟨epk, expiresAt⟩⟩ : Performed) ∈
        Threads.trace (world.log.take position) entry.thread := by
      have hmem : (⟨.getRendezvous code, some ⟨epk, expiresAt⟩⟩ : Performed) ∈
          Threads.trace (world.log.take position) entry.thread ++
            [⟨.putBlob code bytes expiresAt, ok⟩] := by
        rw [htrace]
        exact List.mem_cons_self
      rcases List.mem_append.mp hmem with hbefore | hlast
      · exact hbefore
      · cases List.mem_singleton.mp hlast
    obtain ⟨read, readEntry, hread, hreadEntry, -, hgotAt⟩ :=
      Threads.exists_lt_of_mem_trace_take hgot
    obtain ⟨stored, hstored, putEntry, hputEntry, hputAt⟩ :=
      (recordHistory_of_reaches hreaches).read ⟨readEntry, hreadEntry, hgotAt⟩
    have hdeadline := deadline_of_putRendezvous hreaches hclocks hputEntry hputAt
    have hbefore := hordered stored position putEntry entry (by omega) hputEntry hentry
    change expiresAt ≤ _ at hdeadline
    omega

end Deadlines

/-! ### The bound -/

/-- A map has no more keys than a list that names them all. -/
theorem length_keys_le {V : Type} (map : OrderedMap String V) {names : List String}
    (hnames : ∀ key value, map.get? key = some value → key ∈ names) :
    map.keys.length ≤ names.length := by
  refine (List.subperm_of_subset map.keys_nodup fun key hkey ↦ ?_).length_le
  obtain ⟨value, hvalue⟩ := (map.mem_keys_iff key).mp hkey
  exact hnames key value hvalue

/-- In every run of any requests, interleaved call by call, in which both clocks agree: each map of
the store holds at most as many entries as calls that wrote to it and ended less than one lifetime
before the last sweep, or later. -/
theorem bounded_by_traffic
    (hreaches : (Relay.automaton primitives trustedIpHeader).Reaches (Relay.start wall clock)
      world) (hclocks : ∀ entry ∈ world.log, entry.before.wall = entry.before.clock) :
    let writes := (recent world.log (lastSweep world.log)).map Entry.performed
    world.shared.inner.records.keys.length ≤ (writes.filterMap mintedCode).length ∧
      world.shared.inner.blobs.keys.length ≤ (writes.filterMap uploadedCode).length ∧
      world.shared.inner.counters.keys.length ≤ (writes.filterMap countedBucket).length := by
  intro writes
  have hswept := sweptStore_of_reaches hreaches
  have hperformed := (performed_of_reaches hreaches).1
  have hwrites : ∀ entry ∈ world.log, ∀ expiresAt : ℕ,
      expiresAt ≤ entry.after.wall + rendezvousTtlSeconds →
      (lastSweep world.log < expiresAt ∨ lastSweep world.log ≤ entry.before.wall) →
      entry.performed ∈ writes := by
    intro entry hentry expiresAt hbound hfresh
    obtain ⟨passage, hperform⟩ := hperformed entry hentry
    have hmoved := (wall_le_of_perform hperform).1
    refine List.mem_map_of_mem (List.mem_filter.mpr ⟨hentry, decide_eq_true ?_⟩)
    unfold rendezvousTtlSeconds at hbound ⊢
    omega
  refine ⟨?_, ?_, ?_⟩
  · refine length_keys_le _ fun code record hrecord ↦ ?_
    obtain ⟨entry, hentry, hput, hfresh⟩ := hswept.records hrecord
    obtain ⟨position, hposition⟩ := List.getElem?_of_mem hentry
    have hdeadline := deadline_of_putRendezvous hreaches hclocks hposition hput
    obtain ⟨passage, hperform⟩ := hperformed entry hentry
    have hmoved := (wall_le_of_perform hperform).1
    refine List.mem_filterMap.mpr ⟨_, hwrites entry hentry record.expiresAt (by omega) hfresh, ?_⟩
    rw [hput]
    rfl
  · refine length_keys_le _ fun code blob hblob ↦ ?_
    obtain ⟨entry, hentry, hput, hfresh⟩ := hswept.blobs hblob
    obtain ⟨position, hposition⟩ := List.getElem?_of_mem hentry
    have hdeadline := deadline_of_putBlob hreaches hclocks hposition hput
    obtain ⟨passage, hperform⟩ := hperformed entry hentry
    have hmoved := (wall_le_of_perform hperform).1
    refine List.mem_filterMap.mpr ⟨_, hwrites entry hentry blob.expiresAt (by omega) hfresh, ?_⟩
    rw [hput]
    rfl
  · refine length_keys_le _ fun bucket counter hcounter ↦ ?_
    obtain ⟨entry, hentry, hcounted, hdeadline, hfresh⟩ := hswept.counters hcounter
    exact List.mem_filterMap.mpr
      ⟨_, hwrites entry hentry counter.expiresAt hdeadline hfresh, hcounted⟩

/-- Long after both records have expired the store still holds them, since nothing was written. -/
theorem bounded_by_traffic_twoMints : ∃ world,
    (Relay.automaton tabulated .absent).run (Relay.start 1700000000 1700000000)
      (twoMints ++ [.elapse ⟨86400, 86400⟩]) = some world ∧
    world.shared.inner.records.keys.length = 2 ∧
    world.shared.inner.records.keys.length ≤
      (((recent world.log (lastSweep world.log)).map Entry.performed).filterMap mintedCode).length
    := by
  have hrun : ((Relay.automaton tabulated .absent).run (Relay.start 1700000000 1700000000)
      (twoMints ++ [.elapse ⟨86400, 86400⟩])).map (fun world ↦
        (world.shared.inner.records.keys.length,
          world.log.all fun entry ↦ entry.before.wall == entry.before.clock)) = some (2, true) := by
    decide +kernel
  obtain ⟨world, hrun, hvalues⟩ := Option.map_eq_some_iff.mp hrun
  obtain ⟨hlength, hagree⟩ := Prod.mk.inj hvalues
  have hclocks : ∀ entry ∈ world.log, entry.before.wall = entry.before.clock := by
    intro entry hentry
    exact beq_iff_eq.mp (List.all_eq_true.mp hagree entry hentry)
  have hreaches := Automaton.reaches_of_run hrun
  exact ⟨world, hrun, hlength, (bounded_by_traffic hreaches hclocks).1⟩

end OpfsWebauthn.Backend
