import OpfsWebauthn.Backend.Handlers

/-!
# Runs of the share backend

`Relay` is the state of a run of the backend: any number of requests in progress, their calls
interleaved in any order. This module says what one call does to each of the three maps, and what
follows for the whole history of calls, whoever makes them: every blob and every record that the
store holds was put there by an earlier call, and no pickup of the code came in between.
-/

set_option autoImplicit false
set_option relaxedAutoImplicit false

namespace OpfsWebauthn.Backend

open Foundation Storage Crypto

/-- The state of a run of the backend. -/
abbrev Relay := Threads Shared Request StoreCall StoreCall.Result (Except AppError Response)

/-- A call in the log of a run. -/
abbrev LogEntry := Entry Shared StoreCall StoreCall.Result

/-- The events of a run. -/
abbrev RelayEvent := ThreadsEvent Request Passage

namespace Relay

/-- The backend as a system. -/
def automaton (primitives : Primitives) (trustedIpHeader : TrustedIpHeader) :
    Automaton Relay RelayEvent :=
  Threads.automaton machine (handle primitives trustedIpHeader)

/-- An empty store, and the readings of the two clocks. -/
def start (wall clock : ℕ) : Relay :=
  Threads.start ⟨.empty, wall, clock⟩

end Relay

/-! ### Time -/

/-- The maps do not change by themselves, and the clocks do not go back. -/
theorem elapse_eq_some_iff {shared next : Shared} {passage : Passage} :
    shared.elapse passage = some next ↔
      (shared.wall + passage.wall ≤ i64Max ∧ shared.clock + passage.clock ≤ u64Max) ∧
      next = ⟨shared.inner, shared.wall + passage.wall, shared.clock + passage.clock⟩ := by
  unfold Shared.elapse
  split_ifs with hfits
  · simp [hfits, eq_comm]
  · simp [hfits]

/-- A call changes the maps as the store says, and time passes meanwhile. -/
theorem perform_eq_some_iff {shared next : Shared} {call : StoreCall} {passage : Passage}
    {result : call.Result} : machine.perform shared call passage = some (next, result) ↔
      ∃ later, shared.elapse passage = some later ∧
        next = { later with inner := (shared.callStore later.wall call).1 } ∧
        result = (shared.callStore later.wall call).2 := by
  change (shared.elapse passage).map _ = _ ↔ _
  rw [Option.map_eq_some_iff]
  refine exists_congr fun later ↦ and_congr_right fun _ ↦ ?_
  rw [Prod.mk.injEq, eq_comm, and_congr_right_iff]
  exact fun _ ↦ eq_comm

/-- The wall clock does not go back, and fits an `i64`. -/
theorem wall_le_of_elapse {shared next : Shared} {passage : Passage}
    (helapse : shared.elapse passage = some next) :
    shared.wall ≤ next.wall ∧ next.wall ≤ i64Max := by
  obtain ⟨hfits, rfl⟩ := elapse_eq_some_iff.mp helapse
  exact ⟨Nat.le_add_right _ _, hfits.1⟩

/-- The wall clock does not go back during a call. -/
theorem wall_le_of_perform {shared next : Shared} {call : StoreCall} {passage : Passage}
    {result : call.Result} (hperform : machine.perform shared call passage = some (next, result)) :
    shared.wall ≤ next.wall ∧ next.wall ≤ i64Max := by
  obtain ⟨later, hlater, rfl, -⟩ := perform_eq_some_iff.mp hperform
  have hwall := wall_le_of_elapse hlater
  exact hwall

/-! ### What a call does to the maps -/

/-- A blob that the store holds after a call was there before and the call was no pickup of its
code, or the call put it there. -/
theorem blob_of_callStore {shared : Shared} {later : ℕ} {call : StoreCall} {code : String}
    {blob : StoredBlob} (hblob : (shared.callStore later call).1.blobs.get? code = some blob) :
    (shared.inner.blobs.get? code = some blob ∧ ∀ now, call ≠ .takeBlob code now) ∨
      (⟨call, (shared.callStore later call).2⟩ : Performed) =
        ⟨.putBlob code blob.bytes blob.expiresAt, true⟩ := by
  cases call with
  | now => exact .inl ⟨hblob, fun _ heq ↦ by cases heq⟩
  | getRendezvous other => exact .inl ⟨hblob, fun _ heq ↦ by cases heq⟩
  | incrementMintCounter ip ttlSeconds =>
    have hswept : (shared.inner.sweep shared.wall).blobs.get? code = some blob := hblob
    exact .inl ⟨((Inner.get?_blobs_sweep _ _ _ _).mp hswept).1, fun _ heq ↦ by cases heq⟩
  | putRendezvous other record =>
    have hswept : (shared.inner.sweep shared.wall).blobs.get? code = some blob := by
      change (shared.inner.putRendezvous shared.wall other record).1.blobs.get? code = _ at hblob
      rcases Inner.putRendezvous_cases shared.inner shared.wall other record with
        ⟨-, heq⟩ | ⟨_, -, heq⟩
      · rw [heq] at hblob
        exact hblob
      · rw [heq] at hblob
        exact hblob
    exact .inl ⟨((Inner.get?_blobs_sweep _ _ _ _).mp hswept).1, fun _ heq ↦ by cases heq⟩
  | putBlob other bytes expiresAt =>
    change (shared.inner.putBlob shared.wall other bytes expiresAt).1.blobs.get? code = _ at hblob
    rcases Inner.putBlob_cases shared.inner shared.wall other bytes expiresAt with
      ⟨-, heq⟩ | ⟨_, -, heq⟩
    · rw [heq] at hblob
      change ((shared.inner.sweep shared.wall).blobs.set other ⟨bytes, expiresAt⟩).get? code =
        some blob at hblob
      rw [OrderedMap.get?_set] at hblob
      by_cases hcode : code = other
      · rw [if_pos hcode, Option.some.injEq] at hblob
        subst hblob hcode
        have hresult : (shared.callStore later (.putBlob code bytes expiresAt)).2 = true := by
          change (shared.inner.putBlob shared.wall code bytes expiresAt).2 = true
          rw [heq]
        rw [hresult]
        exact .inr rfl
      · rw [if_neg hcode] at hblob
        exact .inl ⟨((Inner.get?_blobs_sweep _ _ _ _).mp hblob).1, fun _ heq ↦ by cases heq⟩
    · rw [heq] at hblob
      exact .inl ⟨((Inner.get?_blobs_sweep _ _ _ _).mp hblob).1, fun _ heq ↦ by cases heq⟩
  | takeBlob other now =>
    change (shared.inner.takeBlob other now).1.blobs.get? code = _ at hblob
    rw [Inner.takeBlob_fst] at hblob
    change (shared.inner.blobs.erase other).get? code = some blob at hblob
    rw [OrderedMap.get?_erase] at hblob
    by_cases hcode : code = other
    · simp [hcode] at hblob
    · rw [if_neg hcode] at hblob
      refine .inl ⟨hblob, fun now heq ↦ hcode ?_⟩
      cases heq
      rfl

/-- A record that the store holds after a call was there before, or the call put it there. -/
theorem record_of_callStore {shared : Shared} {later : ℕ} {call : StoreCall} {code : String}
    {record : RendezvousRecord}
    (hrecord : (shared.callStore later call).1.records.get? code = some record) :
    shared.inner.records.get? code = some record ∨
      (⟨call, (shared.callStore later call).2⟩ : Performed) =
        ⟨.putRendezvous code record, true⟩ := by
  cases call with
  | now => exact .inl hrecord
  | getRendezvous other => exact .inl hrecord
  | incrementMintCounter ip ttlSeconds =>
    have hswept : (shared.inner.sweep shared.wall).records.get? code = some record := hrecord
    exact .inl ((Inner.get?_records_sweep _ _ _ _).mp hswept).1
  | putBlob other bytes expiresAt =>
    have hswept : (shared.inner.sweep shared.wall).records.get? code = some record := by
      change (shared.inner.putBlob shared.wall other bytes expiresAt).1.records.get? code = _
        at hrecord
      rcases Inner.putBlob_cases shared.inner shared.wall other bytes expiresAt with
        ⟨-, heq⟩ | ⟨_, -, heq⟩
      · rw [heq] at hrecord
        exact hrecord
      · rw [heq] at hrecord
        exact hrecord
    exact .inl ((Inner.get?_records_sweep _ _ _ _).mp hswept).1
  | takeBlob other now =>
    change (shared.inner.takeBlob other now).1.records.get? code = _ at hrecord
    rw [Inner.takeBlob_fst] at hrecord
    exact .inl hrecord
  | putRendezvous other stored =>
    change (shared.inner.putRendezvous shared.wall other stored).1.records.get? code = _ at hrecord
    rcases Inner.putRendezvous_cases shared.inner shared.wall other stored with
      ⟨-, heq⟩ | ⟨_, -, heq⟩
    · rw [heq] at hrecord
      change ((shared.inner.sweep shared.wall).records.set other stored).get? code = some record
        at hrecord
      rw [OrderedMap.get?_set] at hrecord
      by_cases hcode : code = other
      · rw [if_pos hcode, Option.some.injEq] at hrecord
        subst hrecord hcode
        have hresult : (shared.callStore later (.putRendezvous code stored)).2 = true := by
          change (shared.inner.putRendezvous shared.wall code stored).2 = true
          rw [heq]
        rw [hresult]
        exact .inr rfl
      · rw [if_neg hcode] at hrecord
        exact .inl ((Inner.get?_records_sweep _ _ _ _).mp hrecord).1
    · rw [heq] at hrecord
      exact .inl ((Inner.get?_records_sweep _ _ _ _).mp hrecord).1

/-- A pickup that succeeds takes a blob whose deadline is after the clock of the handler. -/
theorem blob_of_takeBlob {shared : Shared} {later : ℕ} {call : StoreCall} {code : String}
    {now : ℕ} {bytes : Bytes} (htake : (⟨call, (shared.callStore later call).2⟩ : Performed) =
      ⟨.takeBlob code now, some bytes⟩) :
    ∃ expiresAt, shared.inner.blobs.get? code = some ⟨bytes, expiresAt⟩ ∧ now < expiresAt := by
  obtain ⟨rfl, hresult⟩ := Sigma.mk.inj htake
  exact (Inner.takeBlob_snd_eq_some_iff _ _ _ _).mp (eq_of_heq hresult)

/-- A read that succeeds finds the record in the store. -/
theorem record_of_getRendezvous {shared : Shared} {later : ℕ} {call : StoreCall} {code : String}
    {record : RendezvousRecord}
    (hget : (⟨call, (shared.callStore later call).2⟩ : Performed) =
      ⟨.getRendezvous code, some record⟩) :
    shared.inner.records.get? code = some record := by
  obtain ⟨rfl, hresult⟩ := Sigma.mk.inj hget
  exact eq_of_heq hresult

/-! ### The history of calls -/

/-- The call at a position of the log, with its result. -/
def PerformedAt (log : List LogEntry) (position : ℕ) (performed : Performed) : Prop :=
  ∃ entry, log[position]? = some entry ∧ entry.performed = performed

theorem performedAt_concat {log : List LogEntry} {entry : LogEntry} {position : ℕ}
    {performed : Performed} : PerformedAt (log ++ [entry]) position performed ↔
      PerformedAt log position performed ∨
        (position = log.length ∧ entry.performed = performed) := by
  unfold PerformedAt
  simp only [Threads.getElem?_concat_iff]
  constructor
  · rintro ⟨found, hfound | ⟨hposition, rfl⟩, hperformed⟩
    · exact .inl ⟨found, hfound, hperformed⟩
    · exact .inr ⟨hposition, hperformed⟩
  · rintro (⟨found, hfound, hperformed⟩ | ⟨hposition, hperformed⟩)
    · exact ⟨found, .inl hfound, hperformed⟩
    · exact ⟨entry, .inr ⟨hposition, rfl⟩, hperformed⟩

theorem PerformedAt.lt {log : List LogEntry} {position : ℕ} {performed : Performed}
    (hperformed : PerformedAt log position performed) : position < log.length := by
  obtain ⟨entry, hentry, -⟩ := hperformed
  exact (List.getElem?_eq_some_iff.mp hentry).1

/-- There is one call at a position. -/
theorem PerformedAt.unique {log : List LogEntry} {position : ℕ} {first second : Performed}
    (hfirst : PerformedAt log position first) (hsecond : PerformedAt log position second) :
    first = second := by
  obtain ⟨entry, hentry, rfl⟩ := hfirst
  obtain ⟨other, hother, rfl⟩ := hsecond
  rw [hentry, Option.some.injEq] at hother
  rw [hother]

/-- Since a position no pickup of the code was made. -/
def UntakenSince (log : List LogEntry) (position : ℕ) (code : String) : Prop :=
  ∀ later now result, position < later →
    ¬ PerformedAt log later ⟨.takeBlob code now, result⟩

/-- Every blob in the store was put there by a call, and not asked for since. Every pickup that
succeeded took a blob that was put there earlier, had not expired by the clock of the handler, and
had not been asked for before. -/
structure BlobHistory (shared : Shared) (log : List LogEntry) : Prop where
  stored : ∀ {code : String} {blob : StoredBlob}, shared.inner.blobs.get? code = some blob →
    ∃ position, PerformedAt log position ⟨.putBlob code blob.bytes blob.expiresAt, true⟩ ∧
      UntakenSince log position code
  taken : ∀ {position : ℕ} {code : String} {now : ℕ} {bytes : Bytes},
    PerformedAt log position ⟨.takeBlob code now, some bytes⟩ → ∃ earlier expiresAt,
      earlier < position ∧ now < expiresAt ∧
      PerformedAt log earlier ⟨.putBlob code bytes expiresAt, true⟩ ∧
      ∀ between other result, earlier < between → between < position →
        ¬ PerformedAt log between ⟨.takeBlob code other, result⟩

/-- Every record in the store, and every record that was read, was put there by a call. -/
structure RecordHistory (shared : Shared) (log : List LogEntry) : Prop where
  stored : ∀ {code : String} {record : RendezvousRecord},
    shared.inner.records.get? code = some record →
      ∃ position, PerformedAt log position ⟨.putRendezvous code record, true⟩
  read : ∀ {position : ℕ} {code : String} {record : RendezvousRecord},
    PerformedAt log position ⟨.getRendezvous code, some record⟩ → ∃ earlier < position,
      PerformedAt log earlier ⟨.putRendezvous code record, true⟩

variable {primitives : Primitives} {trustedIpHeader : TrustedIpHeader} {wall clock : ℕ}
  {world : Relay}

theorem blobHistory_of_reaches
    (hreaches : (Relay.automaton primitives trustedIpHeader).Reaches (Relay.start wall clock)
      world) : BlobHistory world.shared world.log := by
  refine Threads.shared_invariant hreaches BlobHistory ?_ ?_ ?_
  · refine ⟨?_, ?_⟩
    · intro code blob hblob
      simp [Inner.empty] at hblob
    · rintro position code now bytes ⟨entry, hentry, -⟩
      simp at hentry
  · intro shared log passage next hhistory helapse
    obtain ⟨-, rfl⟩ := elapse_eq_some_iff.mp helapse
    exact ⟨hhistory.stored, hhistory.taken⟩
  · intro shared log thread call passage next result hhistory hperform
    obtain ⟨later, -, rfl, rfl⟩ := perform_eq_some_iff.mp hperform
    refine ⟨?_, ?_⟩
    · intro code blob hblob
      rcases blob_of_callStore hblob with ⟨hold, hnotTake⟩ | hput
      · obtain ⟨position, hposition, huntaken⟩ := hhistory.stored hold
        refine ⟨position, performedAt_concat.mpr (.inl hposition), ?_⟩
        intro after now taken hlt htake
        rcases performedAt_concat.mp htake with htake | ⟨-, htake⟩
        · exact huntaken after now taken hlt htake
        · exact hnotTake now (congrArg Sigma.fst htake)
      · refine ⟨log.length, performedAt_concat.mpr (.inr ⟨rfl, hput⟩), ?_⟩
        intro after now taken hlt htake
        have hle := htake.lt
        rw [List.length_append, List.length_singleton] at hle
        omega
    · intro position code now bytes htake
      rcases performedAt_concat.mp htake with hold | ⟨rfl, hnew⟩
      · obtain ⟨earlier, expiresAt, hlt, hfresh, hput, hbetween⟩ := hhistory.taken hold
        refine ⟨earlier, expiresAt, hlt, hfresh, performedAt_concat.mpr (.inl hput), ?_⟩
        intro between other taken hfirst hsecond hother
        rcases performedAt_concat.mp hother with hother | ⟨rfl, -⟩
        · exact hbetween between other taken hfirst hsecond hother
        · exact Nat.lt_asymm hsecond hold.lt
      · -- The new call is this pickup: its blob was in the store just before.
        obtain ⟨expiresAt, hblob, hfresh⟩ := blob_of_takeBlob hnew
        obtain ⟨earlier, hput, huntaken⟩ := hhistory.stored hblob
        refine ⟨earlier, expiresAt, hput.lt, hfresh, performedAt_concat.mpr (.inl hput), ?_⟩
        intro between other taken hfirst hsecond hother
        rcases performedAt_concat.mp hother with hother | ⟨rfl, -⟩
        · exact huntaken between other taken hfirst hother
        · exact Nat.lt_irrefl _ hsecond

theorem recordHistory_of_reaches
    (hreaches : (Relay.automaton primitives trustedIpHeader).Reaches (Relay.start wall clock)
      world) : RecordHistory world.shared world.log := by
  refine Threads.shared_invariant hreaches RecordHistory ?_ ?_ ?_
  · refine ⟨?_, ?_⟩
    · intro code record hrecord
      simp [Inner.empty] at hrecord
    · rintro position code record ⟨entry, hentry, -⟩
      simp at hentry
  · intro shared log passage next hhistory helapse
    obtain ⟨-, rfl⟩ := elapse_eq_some_iff.mp helapse
    exact ⟨hhistory.stored, hhistory.read⟩
  · intro shared log thread call passage next result hhistory hperform
    obtain ⟨later, -, rfl, rfl⟩ := perform_eq_some_iff.mp hperform
    refine ⟨?_, ?_⟩
    · intro code record hrecord
      rcases record_of_callStore hrecord with hold | hput
      · obtain ⟨position, hposition⟩ := hhistory.stored hold
        exact ⟨position, performedAt_concat.mpr (.inl hposition)⟩
      · exact ⟨log.length, performedAt_concat.mpr (.inr ⟨rfl, hput⟩)⟩
    · intro position code record hget
      rcases performedAt_concat.mp hget with hold | ⟨rfl, hnew⟩
      · obtain ⟨earlier, hlt, hput⟩ := hhistory.read hold
        exact ⟨earlier, hlt, performedAt_concat.mpr (.inl hput)⟩
      · obtain ⟨earlier, hput⟩ := hhistory.stored (record_of_getRendezvous hnew)
        exact ⟨earlier, hput.lt, performedAt_concat.mpr (.inl hput)⟩

end OpfsWebauthn.Backend
