import Mathlib.Order.Interval.Finset.Nat
import OpfsWebauthn.Backend.OneShot

/-!
# The mint limit

`increment_mint_counter` counts the mint requests of a bucket, and every request moves the deadline
of its counter; a sweep, of whatever write, drops the counter once the deadline has passed. So the
count of a request is the length of its burst: the requests of the bucket before it, back to the
first pause of a whole lifetime (`count_eq_burst`).

Within one window of that length all requests of a bucket belong to one burst, so their counts
differ and at most ten can succeed (`mint_cap`). In the other direction a request is refused exactly
when its burst is longer than ten (`rateLimited_iff_burst`), which slow steady traffic reaches too.

The time of a request is a reading of the wall clock during the call that counts it.
-/

set_option autoImplicit false
set_option relaxedAutoImplicit false

namespace OpfsWebauthn.Backend

open Foundation Storage Crypto Share

/-- A call that counts a mint request of a bucket, and the count. -/
def Counts (entry : LogEntry) (bucket : String) (count : ℕ) : Prop :=
  entry.performed = ⟨.incrementMintCounter bucket rendezvousTtlSeconds, count⟩

/-! ### What a call does to the counters -/

section Calls

variable {shared : Shared} {later : ℕ} {call : StoreCall} {bucket : String}

/-- A call that does not count the bucket keeps its counter or, after the deadline, sweeps it. -/
theorem counter_of_callStore (hcall : ∀ ttlSeconds, call ≠ .incrementMintCounter bucket ttlSeconds)
    (counter : Counter) :
    ((shared.callStore later call).1.counters.get? bucket = some counter →
      shared.inner.counters.get? bucket = some counter) ∧
    (shared.inner.counters.get? bucket = some counter → shared.wall < counter.expiresAt →
      (shared.callStore later call).1.counters.get? bucket = some counter) := by
  have hswept : ∀ counters, counters = (shared.inner.sweep shared.wall).counters →
      (counters.get? bucket = some counter → shared.inner.counters.get? bucket = some counter) ∧
      (shared.inner.counters.get? bucket = some counter → shared.wall < counter.expiresAt →
        counters.get? bucket = some counter) := by
    rintro counters rfl
    exact ⟨fun hcounter ↦ ((Inner.get?_counters_sweep _ _ _ _).mp hcounter).1,
      fun hcounter hfresh ↦ (Inner.get?_counters_sweep _ _ _ _).mpr ⟨hcounter, hfresh⟩⟩
  cases call with
  | now => exact ⟨id, fun hcounter _ ↦ hcounter⟩
  | getRendezvous code => exact ⟨id, fun hcounter _ ↦ hcounter⟩
  | takeBlob code now =>
    change ((shared.inner.takeBlob code now).1.counters.get? bucket = _ → _) ∧
      (_ → _ → (shared.inner.takeBlob code now).1.counters.get? bucket = _)
    rw [Inner.takeBlob_fst]
    exact ⟨id, fun hcounter _ ↦ hcounter⟩
  | putRendezvous code record =>
    refine hswept _ ?_
    change (shared.inner.putRendezvous shared.wall code record).1.counters = _
    rcases Inner.putRendezvous_cases shared.inner shared.wall code record with
      ⟨-, heq⟩ | ⟨_, -, heq⟩ <;> rw [heq]
  | putBlob code bytes expiresAt =>
    refine hswept _ ?_
    change (shared.inner.putBlob shared.wall code bytes expiresAt).1.counters = _
    rcases Inner.putBlob_cases shared.inner shared.wall code bytes expiresAt with
      ⟨-, heq⟩ | ⟨_, -, heq⟩ <;> rw [heq]
  | incrementMintCounter ip ttlSeconds =>
    have hne : bucket ≠ ip := by
      rintro rfl
      exact hcall ttlSeconds rfl
    have hother : (shared.callStore later (.incrementMintCounter ip ttlSeconds)).1.counters.get?
        bucket = (shared.inner.sweep shared.wall).counters.get? bucket := by
      change (((shared.inner.sweep shared.wall).counters.set ip _).get? bucket) = _
      rw [OrderedMap.get?_set, if_neg hne]
    rw [hother]
    exact hswept _ rfl

/-- The count of a call is one more than what the sweep left, and the deadline moves. -/
theorem counter_of_counts (hlater : later ≤ i64Max) {count : ℕ}
    (hcounts : (⟨call, (shared.callStore later call).2⟩ : Performed) =
      ⟨.incrementMintCounter bucket rendezvousTtlSeconds, count⟩) :
    count = saturatingAdd u32Max
        (((shared.inner.sweep shared.wall).counters.get? bucket).elim 0 Counter.count) 1 ∧
      (shared.callStore later call).1.counters.get? bucket =
        some ⟨count, later + rendezvousTtlSeconds⟩ := by
  obtain ⟨rfl, hresult⟩ := Sigma.mk.inj hcounts
  obtain rfl : _ = count := eq_of_heq hresult
  have hdeadline : saturatingAdd u64Max later rendezvousTtlSeconds =
      later + rendezvousTtlSeconds := by
    unfold saturatingAdd u64Max rendezvousTtlSeconds
    unfold i64Max at hlater
    omega
  refine ⟨?_, ?_⟩
  · change saturatingAdd u32Max (((shared.inner.sweep shared.wall).counters.get? bucket).getD
      ⟨0, saturatingAdd u64Max later rendezvousTtlSeconds⟩).count 1 = _
    cases (shared.inner.sweep shared.wall).counters.get? bucket <;> rfl
  · rw [← hdeadline]
    exact OrderedMap.get?_set_self _ _ _

end Calls

/-! ### Bursts -/

/-- When the requests of a bucket were counted, oldest first: the readings of the wall clock at the
beginning and at the end of the call. -/
def hits (log : List LogEntry) (bucket : String) : List (ℕ × ℕ) :=
  log.filterMap fun entry ↦
    match entry.call with
    | .incrementMintCounter ip _ =>
      if ip = bucket then some (entry.before.wall, entry.after.wall) else none
    | _ => none

/-- The length of the burst that ends with the first of some requests, newest first. A request
belongs to the burst of the one before it when it came before the deadline that this one set. -/
def burst : List (ℕ × ℕ) → ℕ
  | [] => 0
  | [_] => 1
  | newer :: older :: rest =>
    if newer.1 < older.2 + rendezvousTtlSeconds then burst (older :: rest) + 1 else 1

/-- A request belongs to its own burst. -/
theorem burst_pos (hit : ℕ × ℕ) (rest : List (ℕ × ℕ)) : 0 < burst (hit :: rest) := by
  cases rest with
  | nil => exact Nat.one_pos
  | cons older others =>
    unfold burst
    split_ifs
    · exact Nat.succ_pos _
    · exact Nat.one_pos

theorem hits_concat (log : List LogEntry) (entry : LogEntry) (bucket : String) :
    hits (log ++ [entry]) bucket = hits log bucket ++ hits [entry] bucket := by
  unfold hits
  rw [List.filterMap_append]

theorem hits_of_counts {entry : LogEntry} {bucket : String} {count : ℕ}
    (hcounts : Counts entry bucket count) :
    hits [entry] bucket = [(entry.before.wall, entry.after.wall)] := by
  have hcall : entry.call = .incrementMintCounter bucket rendezvousTtlSeconds :=
    congrArg Sigma.fst hcounts
  simp [hits, hcall]

theorem hits_of_other {entry : LogEntry} {bucket : String}
    (hcall : ∀ ttlSeconds, entry.call ≠ .incrementMintCounter bucket ttlSeconds) :
    hits [entry] bucket = [] := by
  unfold hits
  rw [List.filterMap_cons, List.filterMap_nil]
  cases heq : entry.call with
  | incrementMintCounter ip ttlSeconds =>
    have hne : ip ≠ bucket := by
      rintro rfl
      exact hcall ttlSeconds heq
    simp [hne]
  | _ => rfl

/-- The counter of a bucket counts the burst that ends with the last request, up to saturation, and
is there as long as its deadline has not passed. -/
structure CounterIsBurst (shared : Shared) (log : List LogEntry) (bucket : String) : Prop where
  absent : hits log bucket = [] → shared.inner.counters.get? bucket = none
  counted : ∀ {last : ℕ × ℕ} {rest : List (ℕ × ℕ)}, (hits log bucket).reverse = last :: rest →
    (∀ counter, shared.inner.counters.get? bucket = some counter →
      counter = ⟨min (burst (last :: rest)) u32Max, last.2 + rendezvousTtlSeconds⟩) ∧
    (shared.wall < last.2 + rendezvousTtlSeconds →
      (shared.inner.counters.get? bucket).isSome)

/-- The sweep before a count leaves the counter exactly when the request continues the burst. -/
theorem CounterIsBurst.count_eq {shared : Shared} {log : List LogEntry} {bucket : String}
    (hburst : CounterIsBurst shared log bucket) (later : ℕ) :
    saturatingAdd u32Max
        (((shared.inner.sweep shared.wall).counters.get? bucket).elim 0 Counter.count) 1 =
      min (burst ((shared.wall, later) :: (hits log bucket).reverse)) u32Max := by
  cases hreverse : (hits log bucket).reverse with
  | nil =>
    have hnone := hburst.absent (List.reverse_eq_nil_iff.mp hreverse)
    have hswept : (shared.inner.sweep shared.wall).counters.get? bucket = none := by
      rw [Option.eq_none_iff_forall_not_mem]
      intro counter hcounter
      rw [((Inner.get?_counters_sweep _ _ _ _).mp hcounter).1] at hnone
      cases hnone
    rw [hswept]
    rfl
  | cons last rest =>
    obtain ⟨hcounter, hpresent⟩ := hburst.counted hreverse
    unfold burst
    by_cases hfresh : shared.wall < last.2 + rendezvousTtlSeconds
    · obtain ⟨counter, hfound⟩ := Option.isSome_iff_exists.mp (hpresent hfresh)
      have hvalue := hcounter counter hfound
      have hswept : (shared.inner.sweep shared.wall).counters.get? bucket = some counter := by
        rw [Inner.get?_counters_sweep]
        exact ⟨hfound, by rw [hvalue]; exact hfresh⟩
      rw [hswept, if_pos hfresh, hvalue]
      change min (min (burst (last :: rest)) u32Max + 1) u32Max = _
      omega
    · have hswept : (shared.inner.sweep shared.wall).counters.get? bucket = none := by
        rw [Option.eq_none_iff_forall_not_mem]
        intro counter hfound
        obtain ⟨hold, hlater⟩ := (Inner.get?_counters_sweep _ _ _ _).mp hfound
        rw [hcounter counter hold] at hlater
        exact hfresh hlater
      rw [hswept, if_neg hfresh]
      rfl

variable {primitives : Primitives} {trustedIpHeader : TrustedIpHeader} {wall clock : ℕ}
  {world : Relay}

/-- The calls that count a mint request all name the same lifetime. -/
def NamesTtl : StoreCall → Prop
  | .incrementMintCounter _ ttlSeconds => ttlSeconds = rendezvousTtlSeconds
  | _ => True

theorem allows_handle_ttl (request : Request) :
    (handle primitives trustedIpHeader request).Allows NamesTtl := by
  refine (allows_handle request).mono fun call hcall ↦ ?_
  cases call with
  | incrementMintCounter ip ttlSeconds =>
    cases request with
    | mint headers body => exact hcall.2
    | fetch code => exact hcall.elim
    | upload code body => exact hcall.elim
    | download code => exact hcall.elim
  | _ => trivial

/-- One call keeps the counter the length of the burst, and returns it if it counts the bucket. -/
theorem CounterIsBurst.concat {entry : LogEntry} {log : List LogEntry} {bucket : String}
    {passage : Passage} (hburst : CounterIsBurst entry.before log bucket)
    (hnames : NamesTtl entry.call)
    (hperform : machine.perform entry.before entry.call passage =
      some (entry.after, entry.result)) :
    CounterIsBurst entry.after (log ++ [entry]) bucket ∧
    ∀ count, Counts entry bucket count →
      count = min (burst (hits (log ++ [entry]) bucket).reverse) u32Max := by
  obtain ⟨hwall, hbound⟩ := wall_le_of_perform hperform
  obtain ⟨later, -, hafter, hresult⟩ := perform_eq_some_iff.mp hperform
  have hinner : entry.after.inner = (entry.before.callStore later.wall entry.call).1 := by
    rw [hafter]
  have hlater : entry.after.wall = later.wall := by rw [hafter]
  by_cases hcall : ∃ count, Counts entry bucket count
  · -- The call counts this bucket: the burst goes on or begins anew.
    obtain ⟨count, hcount⟩ := hcall
    have hperformed : (⟨entry.call, (entry.before.callStore later.wall entry.call).2⟩ :
        Performed) = ⟨.incrementMintCounter bucket rendezvousTtlSeconds, count⟩ := by
      rw [← hresult]
      exact hcount
    obtain ⟨hvalue, hcounter⟩ := counter_of_counts (hlater ▸ hbound) hperformed
    rw [hburst.count_eq entry.after.wall] at hvalue
    have hhits : (hits (log ++ [entry]) bucket).reverse =
        (entry.before.wall, entry.after.wall) :: (hits log bucket).reverse := by
      rw [hits_concat, hits_of_counts hcount, List.reverse_append]
      rfl
    refine ⟨⟨?_, ?_⟩, ?_⟩
    · intro hnone
      rw [hnone] at hhits
      cases hhits
    · intro last rest hlast
      rw [hhits] at hlast
      cases hlast
      rw [hinner, hcounter]
      refine ⟨fun found hfound ↦ ?_, fun _ ↦ rfl⟩
      rw [Option.some.injEq] at hfound
      rw [← hfound, hvalue, hlater]
    · intro other hother
      obtain rfl : other = count := by
        unfold Counts at hcount hother
        rw [hcount] at hother
        cases hother
        rfl
      rw [hhits]
      exact hvalue
  · have hother : ∀ ttlSeconds, entry.call ≠ .incrementMintCounter bucket ttlSeconds := by
      intro ttlSeconds heq
      rw [heq] at hnames
      obtain rfl : ttlSeconds = rendezvousTtlSeconds := hnames
      refine hcall ?_
      unfold Counts Entry.performed
      generalize entry.result = result
      revert result
      rw [heq]
      exact fun result ↦ ⟨result, rfl⟩
    have hhits : hits (log ++ [entry]) bucket = hits log bucket := by
      rw [hits_concat, hits_of_other hother, List.append_nil]
    refine ⟨⟨?_, ?_⟩, fun count hcount ↦ (hcall ⟨count, hcount⟩).elim⟩
    · intro hnone
      rw [hhits] at hnone
      rw [hinner, Option.eq_none_iff_forall_not_mem]
      intro counter hcounter
      have hbefore := (counter_of_callStore hother counter).1 hcounter
      rw [hburst.absent hnone] at hbefore
      cases hbefore
    · intro last rest hlast
      rw [hhits] at hlast
      obtain ⟨hcounter, hpresent⟩ := hburst.counted hlast
      rw [hinner]
      refine ⟨fun counter hfound ↦ hcounter counter
        ((counter_of_callStore hother counter).1 hfound), fun hfresh ↦ ?_⟩
      have hfreshBefore := Nat.lt_of_le_of_lt hwall hfresh
      obtain ⟨counter, hfound⟩ := Option.isSome_iff_exists.mp (hpresent hfreshBefore)
      have hdeadline : entry.before.wall < counter.expiresAt := by
        rw [hcounter counter hfound]
        exact hfreshBefore
      rw [(counter_of_callStore hother counter).2 hfound hdeadline]
      rfl

/-- Every count is the length of the burst that ends with its request, up to saturation. -/
theorem count_eq_burst
    (hreaches : (Relay.automaton primitives trustedIpHeader).Reaches (Relay.start wall clock)
      world) (bucket : String) {position : ℕ} {entry : LogEntry} {count : ℕ}
    (hentry : world.log[position]? = some entry) (hcount : Counts entry bucket count) :
    count = min (burst (hits (world.log.take (position + 1)) bucket).reverse) u32Max := by
  have hboth : CounterIsBurst world.shared world.log bucket ∧
      ∀ (position : ℕ) (entry : LogEntry) (count : ℕ), world.log[position]? = some entry →
        Counts entry bucket count →
        count = min (burst (hits (world.log.take (position + 1)) bucket).reverse) u32Max := by
    refine Threads.shared_invariant_of_allows hreaches allows_handle_ttl
      (fun shared log ↦ CounterIsBurst shared log bucket ∧
        ∀ (position : ℕ) (entry : LogEntry) (count : ℕ), log[position]? = some entry →
          Counts entry bucket count →
          count = min (burst (hits (log.take (position + 1)) bucket).reverse) u32Max) ?_ ?_ ?_
    · refine ⟨⟨fun _ ↦ rfl, ?_⟩, ?_⟩
      · intro last rest hhits
        cases hhits
      · intro position entry count hentry
        simp at hentry
    · rintro shared log passage next ⟨hburst, hcounts⟩ helapse
      have hwall := (wall_le_of_elapse helapse).1
      obtain ⟨-, rfl⟩ := elapse_eq_some_iff.mp helapse
      refine ⟨⟨hburst.absent, ?_⟩, hcounts⟩
      intro last rest hhits
      obtain ⟨hcounter, hpresent⟩ := hburst.counted hhits
      exact ⟨hcounter, fun hfresh ↦ hpresent (Nat.lt_of_le_of_lt hwall hfresh)⟩
    · rintro shared log thread call passage next result ⟨hburst, hcounts⟩ hnames hperform
      have hnext := @CounterIsBurst.concat ⟨thread, shared, call, result, next⟩ log bucket passage
        hburst hnames hperform
      refine ⟨hnext.1, ?_⟩
      intro position entry count hentry hcount
      rcases Threads.getElem?_concat_iff.mp hentry with hold | ⟨rfl, rfl⟩
      · have hlt := (List.getElem?_eq_some_iff.mp hold).1
        rw [List.take_append_of_le_length hlt]
        exact hcounts position entry count hold hcount
      · rw [List.take_of_length_le (by simp)]
        exact hnext.2 count hcount
  exact hboth.2 position entry count hentry hcount

/-! ### Requests within one window -/

/-- Requests that all come before the deadline that one of them set are in its burst. -/
theorem burst_append {recent rest : List (ℕ × ℕ)} {first : ℕ × ℕ}
    (hrecent : ∀ hit ∈ recent, hit.1 < first.2 + rendezvousTtlSeconds ∧ first.2 ≤ hit.2) :
    burst (recent ++ first :: rest) = burst (first :: rest) + recent.length := by
  induction recent with
  | nil => rfl
  | cons hit others ih =>
    obtain ⟨hhit, hothers⟩ := List.forall_mem_cons.mp hrecent
    have hshort := ih hothers
    -- The request before this one is `first` or came later.
    cases others with
    | nil =>
      change (if hit.1 < first.2 + rendezvousTtlSeconds then burst (first :: rest) + 1 else 1) = _
      rw [if_pos hhit.1]
      rfl
    | cons other more =>
      have hother := hothers other List.mem_cons_self
      have hcontinues : hit.1 < other.2 + rendezvousTtlSeconds := by omega
      change (if hit.1 < other.2 + rendezvousTtlSeconds
        then burst (other :: (more ++ first :: rest)) + 1 else 1) = _
      rw [if_pos hcontinues]
      change burst (other :: more ++ first :: rest) + 1 = _
      rw [hshort, Nat.add_assoc]
      rfl

/-- A request of the bucket in a list of calls. -/
theorem mem_hits_iff {log : List LogEntry} {bucket : String} {hit : ℕ × ℕ} :
    hit ∈ hits log bucket ↔ ∃ entry ∈ log, ∃ ttlSeconds,
      entry.call = .incrementMintCounter bucket ttlSeconds ∧
      hit = (entry.before.wall, entry.after.wall) := by
  unfold hits
  rw [List.mem_filterMap]
  refine exists_congr fun entry ↦ and_congr_right fun _ ↦ ?_
  cases hcall : entry.call with
  | incrementMintCounter ip ttlSeconds =>
    by_cases hip : ip = bucket
    · simp [hip, eq_comm]
    · simp [hip]
  | _ => simp

/-- Of two requests of a bucket, the second before the deadline that the first set, the second has
the larger count, unless the counter is saturated. -/
theorem count_lt
    (hreaches : (Relay.automaton primitives trustedIpHeader).Reaches (Relay.start wall clock)
      world) {bucket : String} {i j : ℕ} {first second : LogEntry} {count later : ℕ}
    (hlt : i < j) (hfirst : world.log[i]? = some first) (hsecond : world.log[j]? = some second)
    (hcount : Counts first bucket count) (hlater : Counts second bucket later)
    (hwindow : second.before.wall < first.after.wall + rendezvousTtlSeconds) :
    count < later ∨ u32Max ≤ later := by
  obtain ⟨hends, hpairs⟩ := Threads.ordered_of_reaches hreaches
    (fun earlier later ↦ earlier.wall ≤ later.wall) (fun _ ↦ Nat.le_refl _)
    (fun hab hbc ↦ Nat.le_trans hab hbc) (fun _ _ _ helapse ↦ (wall_le_of_elapse helapse).1)
    fun _ _ _ _ _ hperform ↦ (wall_le_of_perform hperform).1
  have hcountEq := count_eq_burst hreaches bucket hfirst hcount
  have hlaterEq := count_eq_burst hreaches bucket hsecond hlater
  -- The requests after the first, up to the second.
  have hsplit : world.log.take (j + 1) =
      world.log.take (i + 1) ++ (world.log.take (j + 1)).drop (i + 1) := by
    conv_lhs => rw [← List.take_append_drop (i + 1) (world.log.take (j + 1))]
    rw [List.take_take, Nat.min_eq_left (by omega)]
  have hlast : world.log.take (i + 1) = world.log.take i ++ [first] := by
    rw [List.take_add_one, hfirst]
    rfl
  have hbetween : ∀ entry ∈ (world.log.take (j + 1)).drop (i + 1), ∃ position,
      i < position ∧ position ≤ j ∧ world.log[position]? = some entry := by
    intro entry hentry
    obtain ⟨offset, hoffset⟩ := List.mem_iff_getElem?.mp hentry
    rw [List.getElem?_drop, List.getElem?_take] at hoffset
    split_ifs at hoffset with hle
    exact ⟨i + 1 + offset, by omega, by omega, hoffset⟩
  have hrecent : ∀ hit ∈ (hits ((world.log.take (j + 1)).drop (i + 1)) bucket).reverse,
      hit.1 < first.after.wall + rendezvousTtlSeconds ∧ first.after.wall ≤ hit.2 := by
    intro hit hhit
    obtain ⟨entry, hentry, ttlSeconds, -, rfl⟩ := mem_hits_iff.mp (List.mem_reverse.mp hhit)
    obtain ⟨position, hafter, hbefore, hposition⟩ := hbetween entry hentry
    have hentryWall := (hends entry (List.mem_of_getElem? hposition)).1
    have hfirstWall := hpairs i position first entry hafter hfirst hposition
    have hsecondWall : entry.before.wall ≤ second.before.wall := by
      rcases Nat.lt_or_eq_of_le hbefore with hlt | rfl
      · have := hpairs position j entry second hlt hposition hsecond
        omega
      · rw [hsecond, Option.some.injEq] at hposition
        rw [hposition]
    exact ⟨Nat.lt_of_le_of_lt hsecondWall hwindow, Nat.le_trans hfirstWall hentryWall⟩
  have hhits : (hits (world.log.take (j + 1)) bucket).reverse =
      (hits ((world.log.take (j + 1)).drop (i + 1)) bucket).reverse ++
        (first.before.wall, first.after.wall) :: (hits (world.log.take i) bucket).reverse := by
    have happend : ∀ entries others : List LogEntry,
        hits (entries ++ others) bucket = hits entries bucket ++ hits others bucket :=
      fun entries others ↦ List.filterMap_append
    conv_lhs => rw [hsplit, hlast, happend, happend, hits_of_counts hcount]
    simp
  have hfirstHits : (hits (world.log.take (i + 1)) bucket).reverse =
      (first.before.wall, first.after.wall) :: (hits (world.log.take i) bucket).reverse := by
    rw [hlast, hits_concat, hits_of_counts hcount]
    simp
  have hnonempty : 0 < (hits ((world.log.take (j + 1)).drop (i + 1)) bucket).reverse.length := by
    have hmem : second ∈ (world.log.take (j + 1)).drop (i + 1) := by
      have hat : ((world.log.take (j + 1)).drop (i + 1))[j - (i + 1)]? = some second := by
        rw [List.getElem?_drop, List.getElem?_take, if_pos (by omega)]
        rw [← hsecond]
        congr 1
        omega
      exact List.mem_of_getElem? hat
    have hhit := mem_hits_iff.mpr
      ⟨second, hmem, rendezvousTtlSeconds, congrArg Sigma.fst hlater, rfl⟩
    rw [List.length_reverse]
    exact List.length_pos_of_mem hhit
  rw [hfirstHits] at hcountEq
  rw [hhits, burst_append hrecent] at hlaterEq
  omega

/-- A mint request of the bucket that succeeded, and was counted within a window of one lifetime. -/
def SucceedsWithin (trustedIpHeader : TrustedIpHeader) (world : Relay) (bucket : String)
    (begins thread : ℕ) : Prop :=
  ∃ headers body response entry time,
    world.threads[thread]? = some ⟨.mint headers body, .done (.ok response)⟩ ∧
    clientIp headers trustedIpHeader = bucket ∧ entry ∈ world.log ∧ entry.thread = thread ∧
    entry.call = .incrementMintCounter bucket rendezvousTtlSeconds ∧
    entry.before.wall ≤ time ∧ time ≤ entry.after.wall ∧
    begins ≤ time ∧ time < begins + rendezvousTtlSeconds

/-- A mint request that succeeded was counted once, with a count within the limit. -/
theorem exists_count_of_succeedsWithin
    (hreaches : (Relay.automaton primitives trustedIpHeader).Reaches (Relay.start wall clock)
      world) {bucket : String} {begins thread : ℕ}
    (hwithin : SucceedsWithin trustedIpHeader world bucket begins thread) :
    ∃ (position : ℕ) (entry : LogEntry) (count : ℕ),
      world.log[position]? = some entry ∧ entry.thread = thread ∧ Counts entry bucket count ∧
      count ≤ mintRateLimit ∧ begins ≤ entry.after.wall ∧
      entry.before.wall < begins + rendezvousTtlSeconds := by
  have hconsistent : Threads.Consistent (handle primitives trustedIpHeader) world :=
    Threads.consistent_of_reaches hreaches
  obtain ⟨headers, body, response, entry, time, hthread, rfl, hentry, rfl, hcall, hstarts, hends,
    hbegins, hcloses⟩ := hwithin
  obtain ⟨minted, now, hlimit, -, htrace, -⟩ :=
    putRendezvous_of_runs (hconsistent.runs hthread)
  obtain ⟨position, hposition⟩ := List.mem_iff_getElem?.mp hentry
  have hmem : entry.performed ∈ Threads.trace world.log entry.thread :=
    Threads.mem_trace_iff.mpr ⟨entry, hentry, rfl, rfl⟩
  have hcounts : Counts entry (clientIp headers trustedIpHeader) minted := by
    rw [htrace, List.mem_cons, List.mem_cons, List.mem_singleton] at hmem
    rcases hmem with hcount | hclock | hput
    · exact hcount
    · cases hcall.symm.trans (congrArg Sigma.fst hclock)
    · cases hcall.symm.trans (congrArg Sigma.fst hput)
  exact ⟨position, entry, minted, hposition, rfl, hcounts, hlimit,
    Nat.le_trans hbegins hends, Nat.lt_of_le_of_lt hstarts hcloses⟩

/-- In every run of any requests, interleaved call by call, with sweeps by any writes in between:
of the mint requests of one bucket that are counted within one window of the lifetime, at most
`mintRateLimit` succeed. -/
theorem mint_cap
    (hreaches : (Relay.automaton primitives trustedIpHeader).Reaches (Relay.start wall clock)
      world) (bucket : String) (begins : ℕ) (threads : Finset ℕ)
    (hwithin : ∀ thread ∈ threads, SucceedsWithin trustedIpHeader world bucket begins thread) :
    threads.card ≤ mintRateLimit := by
  have hcounted : ∀ thread, ∃ count, thread ∈ threads → ∃ (position : ℕ) (entry : LogEntry),
      world.log[position]? = some entry ∧ entry.thread = thread ∧ Counts entry bucket count ∧
      count ≤ mintRateLimit ∧ begins ≤ entry.after.wall ∧
      entry.before.wall < begins + rendezvousTtlSeconds := by
    intro thread
    by_cases hthread : thread ∈ threads
    · obtain ⟨position, entry, count, hentry⟩ :=
        exists_count_of_succeedsWithin hreaches (hwithin thread hthread)
      exact ⟨count, fun _ ↦ ⟨position, entry, hentry⟩⟩
    · exact ⟨0, fun hmem ↦ (hthread hmem).elim⟩
  choose countOf hcountOf using hcounted
  have hrange : ∀ thread ∈ threads, countOf thread ∈ Finset.Icc 1 mintRateLimit := by
    intro thread hthread
    obtain ⟨position, entry, hentry, -, hcount, hlimit, -, -⟩ := hcountOf thread hthread
    rw [Finset.mem_Icc]
    refine ⟨?_, hlimit⟩
    rw [count_eq_burst hreaches bucket hentry hcount]
    have hlast : world.log.take (position + 1) = world.log.take position ++ [entry] := by
      rw [List.take_add_one, hentry]
      rfl
    rw [hlast, hits_concat, hits_of_counts hcount, List.reverse_append]
    have hpos : 0 < burst ((entry.before.wall, entry.after.wall) ::
        (hits (world.log.take position) bucket).reverse) := burst_pos _ _
    have hmax : 0 < u32Max := by decide
    exact Nat.le_min.mpr ⟨hpos, hmax⟩
  have hinjective : Set.InjOn countOf threads := by
    intro thread hthread other hother heq
    obtain ⟨i, first, hfirst, hfirstThread, hcount, hlimit, hbegins, hcloses⟩ :=
      hcountOf thread hthread
    obtain ⟨j, second, hsecond, hsecondThread, hlater, hlimitLater, hbeginsLater, hclosesLater⟩ :=
      hcountOf other hother
    have hmax : mintRateLimit < u32Max := by decide
    rcases Nat.lt_trichotomy i j with hlt | rfl | hgt
    · have := count_lt hreaches hlt hfirst hsecond hcount hlater (by omega)
      omega
    · rw [hfirst, Option.some.injEq] at hsecond
      rw [← hfirstThread, ← hsecondThread, hsecond]
    · have := count_lt hreaches hgt hsecond hfirst hlater hcount (by omega)
      omega
  have hcard := Finset.card_le_card_of_injOn countOf hrange hinjective
  rwa [Nat.card_Icc, Nat.add_sub_cancel] at hcard

/-! ### Requests that are refused -/

/-- A mint request that has answered was refused as rate limited exactly when its burst is longer
than `mintRateLimit`: the requests of its bucket up to this one, back to the first that came before
a pause of a whole lifetime. -/
theorem rateLimited_iff_burst
    (hreaches : (Relay.automaton primitives trustedIpHeader).Reaches (Relay.start wall clock)
      world) {thread : ℕ} {headers : HeaderMap} {body : Bytes} {answer : Except AppError Response}
    (hthread : world.threads[thread]? = some ⟨.mint headers body, .done answer⟩) :
    ∃ (position : ℕ) (entry : LogEntry), world.log[position]? = some entry ∧
      entry.thread = thread ∧ entry.call =
        .incrementMintCounter (clientIp headers trustedIpHeader) rendezvousTtlSeconds ∧
      (answer = .error .rateLimited ↔ mintRateLimit <
        burst (hits (world.log.take (position + 1))
          (clientIp headers trustedIpHeader)).reverse) := by
  have hconsistent : Threads.Consistent (handle primitives trustedIpHeader) world :=
    Threads.consistent_of_reaches hreaches
  obtain ⟨minted, later, htrace, hlimit⟩ :=
    incrementMintCounter_of_runs (hconsistent.runs hthread)
  have hmem : (⟨.incrementMintCounter (clientIp headers trustedIpHeader) rendezvousTtlSeconds,
      minted⟩ : Performed) ∈ Threads.trace world.log thread := by
    rw [htrace]
    exact List.mem_cons_self
  obtain ⟨entry, hentry, hsame, hcount⟩ := Threads.mem_trace_iff.mp hmem
  obtain ⟨position, hposition⟩ := List.mem_iff_getElem?.mp hentry
  refine ⟨position, entry, hposition, hsame, congrArg Sigma.fst hcount, hlimit.trans ?_⟩
  have hmax : mintRateLimit < u32Max := by decide
  have hvalue := count_eq_burst hreaches _ hposition hcount
  rw [hvalue]
  exact ⟨fun hover ↦ Nat.lt_of_lt_of_le hover (Nat.min_le_left _ _),
    fun hover ↦ Nat.lt_min.mpr ⟨hover, hmax⟩⟩

/-- A mint request is refused as rate limited only if more than `mintRateLimit` requests of its
bucket, this one included, were counted within the last lifetime. -/
def RefusesOverRateOnly (trustedIpHeader : TrustedIpHeader) (world : Relay) : Prop :=
  ∀ (position : ℕ) (entry : LogEntry) (headers : HeaderMap) (body : Bytes),
    world.log[position]? = some entry →
    entry.call = .incrementMintCounter (clientIp headers trustedIpHeader) rendezvousTtlSeconds →
    world.threads[entry.thread]? = some ⟨.mint headers body, .done (.error .rateLimited)⟩ →
    mintRateLimit < (hits (world.log.take (position + 1))
      (clientIp headers trustedIpHeader)).countP fun hit ↦
        entry.before.wall < hit.1 + rendezvousTtlSeconds

/-! ### Two successful requests, and eleven slow ones -/

/-- Two recipients of one bucket mint within a window. -/
def twoMints : List RelayEvent :=
  alone 0 3 (.mint [] recipientKey) ++ .elapse ⟨100, 100⟩ :: alone 1 3 (.mint [] relayKey)

/-- What is counted in `twoMints`. -/
def twoMintsLog : List (ℕ × StoreCall × ℕ × ℕ) :=
  let first := 1700000000
  let second := 1700000100
  [(0, .incrementMintCounter "unknown" 300, first, first), (0, .now, first, first),
    (0, .putRendezvous "JCAEZF2HWP7K" ⟨recipientKey, 1700000300⟩, first, first),
    (1, .incrementMintCounter "unknown" 300, second, second), (1, .now, second, second),
    (1, .putRendezvous "Z8QM2RJ22VVG" ⟨relayKey, 1700000400⟩, second, second)]

/-- Both requests succeed within the window that begins with the first. -/
theorem mint_cap_twoMints : ∃ world,
    (Relay.automaton tabulated .absent).run (Relay.start 1700000000 1700000000) twoMints =
      some world ∧
    (∀ thread ∈ ({0, 1} : Finset ℕ), SucceedsWithin .absent world "unknown" 1700000000 thread) ∧
    ({0, 1} : Finset ℕ).card ≤ mintRateLimit := by
  have hfirst : ((Relay.automaton tabulated .absent).run (Relay.start 1700000000 1700000000)
      twoMints).bind (·.answer? 0) = some (.mint [] recipientKey,
        .ok (.octetStream (encodeMintResponse "JCAEZF2HWP7K" 1700000300))) := by decide +kernel
  have hsecond : ((Relay.automaton tabulated .absent).run (Relay.start 1700000000 1700000000)
      twoMints).bind (·.answer? 1) = some (.mint [] relayKey,
        .ok (.octetStream (encodeMintResponse "Z8QM2RJ22VVG" 1700000400))) := by decide +kernel
  have hlog : ((Relay.automaton tabulated .absent).run (Relay.start 1700000000 1700000000)
      twoMints).map (fun world ↦ world.log.map fun entry ↦
        (entry.thread, entry.call, entry.before.wall, entry.after.wall)) = some twoMintsLog := by
    decide +kernel
  obtain ⟨world, hrun, hlog⟩ := Option.map_eq_some_iff.mp hlog
  rw [hrun, Option.bind_some] at hfirst hsecond
  have hentry : ∀ (position : ℕ) value, twoMintsLog[position]? = some value → ∃ entry ∈ world.log,
      (entry.thread, entry.call, entry.before.wall, entry.after.wall) = value := by
    intro position value hvalue
    rw [← hlog, List.getElem?_map, Option.map_eq_some_iff] at hvalue
    obtain ⟨entry, hentry, heq⟩ := hvalue
    exact ⟨entry, List.mem_of_getElem? hentry, heq⟩
  have hwithin : ∀ thread ∈ ({0, 1} : Finset ℕ),
      SucceedsWithin .absent world "unknown" 1700000000 thread := by
    intro thread hthread
    rcases Finset.mem_insert.mp hthread with rfl | hthread
    · obtain ⟨entry, hmem, heq⟩ := hentry 0 _ rfl
      obtain ⟨hsame, hcall, hbefore, hafter⟩ := by simpa only [Prod.mk.injEq] using heq
      exact ⟨[], recipientKey, _, entry, 1700000000, Threads.answer?_eq_some_iff.mp hfirst, rfl,
        hmem, hsame, hcall, by omega, by omega, by omega, by decide⟩
    · obtain rfl := Finset.mem_singleton.mp hthread
      obtain ⟨entry, hmem, heq⟩ := hentry 3 _ rfl
      obtain ⟨hsame, hcall, hbefore, hafter⟩ := by simpa only [Prod.mk.injEq] using heq
      exact ⟨[], relayKey, _, entry, 1700000100, Threads.answer?_eq_some_iff.mp hsecond, rfl,
        hmem, hsame, hcall, by omega, by omega, by omega, by decide⟩
  exact ⟨world, hrun, hwithin,
    mint_cap (Automaton.reaches_of_run hrun) "unknown" 1700000000 {0, 1} hwithin⟩

/-- A request of the shared bucket every 299 seconds. -/
def slowTraffic (requests : ℕ) : List RelayEvent :=
  (List.range requests).flatMap fun thread ↦
    [.elapse ⟨299, 299⟩, .arrive (.mint [] recipientKey), .resume thread ⟨0, 0⟩]

/-- The eleventh request is refused, and its burst goes back to the first. -/
theorem rateLimited_iff_burst_slowTraffic : ∃ world,
    (Relay.automaton tabulated .absent).run (Relay.start 1700000000 1700000000) (slowTraffic 11) =
      some world ∧
    world.threads[10]? = some ⟨.mint [] recipientKey, .done (.error .rateLimited)⟩ ∧
    ∃ (position : ℕ) (entry : LogEntry), world.log[position]? = some entry ∧ entry.thread = 10 ∧
      mintRateLimit < burst (hits (world.log.take (position + 1)) "unknown").reverse := by
  have hanswer : ((Relay.automaton tabulated .absent).run (Relay.start 1700000000 1700000000)
      (slowTraffic 11)).bind (·.answer? 10) =
        some (.mint [] recipientKey, .error .rateLimited) := by decide +kernel
  obtain ⟨world, hrun, hdone⟩ := Option.bind_eq_some_iff.mp hanswer
  have hthread := Threads.answer?_eq_some_iff.mp hdone
  obtain ⟨position, entry, hentry, hsame, -, hrefused⟩ :=
    rateLimited_iff_burst (Automaton.reaches_of_run hrun) hthread
  exact ⟨world, hrun, hthread, position, entry, hentry, hsame, hrefused.mp rfl⟩

/-- The eleventh request is refused although only two were counted in the last lifetime. -/
theorem not_refusesOverRateOnly_slowTraffic : ∃ world,
    (Relay.automaton tabulated .absent).run (Relay.start 1700000000 1700000000) (slowTraffic 11) =
      some world ∧ ¬ RefusesOverRateOnly .absent world := by
  have hanswer : ((Relay.automaton tabulated .absent).run (Relay.start 1700000000 1700000000)
      (slowTraffic 11)).bind (·.answer? 10) =
        some (.mint [] recipientKey, .error .rateLimited) := by decide +kernel
  have hlast : ((Relay.automaton tabulated .absent).run (Relay.start 1700000000 1700000000)
      (slowTraffic 11)).bind (fun world ↦ world.log[10]?.map fun entry ↦
        (entry.thread, entry.call, entry.before.wall)) =
          some (10, .incrementMintCounter "unknown" 300, 1700003289) := by decide +kernel
  have hhits : ((Relay.automaton tabulated .absent).run (Relay.start 1700000000 1700000000)
      (slowTraffic 11)).map (fun world ↦ hits (world.log.take 11) "unknown") =
        some ((List.range 11).map fun request ↦
          (1700000299 + 299 * request, 1700000299 + 299 * request)) := by decide +kernel
  obtain ⟨world, hrun, hhits⟩ := Option.map_eq_some_iff.mp hhits
  rw [hrun, Option.bind_some] at hanswer hlast
  obtain ⟨entry, hentry, heq⟩ := Option.map_eq_some_iff.mp hlast
  obtain ⟨hsame, hcall, hwall⟩ := by simpa only [Prod.mk.injEq] using heq
  refine ⟨world, hrun, fun hrefuses ↦ ?_⟩
  have hthread := Threads.answer?_eq_some_iff.mp hanswer
  rw [← hsame] at hthread
  have hover := hrefuses 10 entry [] recipientKey hentry hcall hthread
  change mintRateLimit < (hits (world.log.take 11) "unknown").countP _ at hover
  rw [hhits, hwall] at hover
  revert hover
  decide

end OpfsWebauthn.Backend
