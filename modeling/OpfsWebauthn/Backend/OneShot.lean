import OpfsWebauthn.Backend.PickupSafety

/-!
# Whether a rendezvous is one-shot

Between two successful mints of a code at most one upload under it should be accepted, and none
after a pickup. `put_blob` decides by the slot of the code in the map of blobs, which a pickup and
a sweep empty while the rendezvous record lives on. `oneShot_iff` says exactly when a run keeps the
promise: every upload that reaches `put_blob` finds the slot as the last accepted upload since the
mint left it, neither asked for nor expired.

A successful mint always finds the slot of its code empty: a blob has the deadline of a record of
its code, and the mint succeeds only after every earlier record of the code has expired and was
swept. So a pickup takes a blob that was uploaded since the last mint.
-/

set_option autoImplicit false
set_option relaxedAutoImplicit false

namespace OpfsWebauthn.Backend

open Foundation Storage Crypto Share

/-! ### The property -/

/-- A mint of the code succeeded. -/
def Minted (log : List LogEntry) (position : ℕ) (code : String) : Prop :=
  ∃ record, PerformedAt log position ⟨.putRendezvous code record, true⟩

/-- An upload under the code was accepted. -/
def Uploaded (log : List LogEntry) (position : ℕ) (code : String) : Prop :=
  ∃ bytes expiresAt, PerformedAt log position ⟨.putBlob code bytes expiresAt, true⟩

/-- A blob of the code was picked up. -/
def PickedUp (log : List LogEntry) (position : ℕ) (code : String) : Prop :=
  ∃ now bytes, PerformedAt log position ⟨.takeBlob code now, some bytes⟩

/-- Between a successful mint of a code and the next one at most one upload is accepted, and after
a pickup every further upload is refused. -/
structure OneShot (log : List LogEntry) : Prop where
  single : ∀ {code : String} {mint first second : ℕ}, Minted log mint code → mint < first →
    first < second → Uploaded log first code → Uploaded log second code →
    ∃ between, mint < between ∧ between < second ∧ Minted log between code
  refused : ∀ {code : String} {mint pickup upload : ℕ} {bytes : Bytes} {expiresAt : ℕ} {ok : Bool},
    Minted log mint code → mint < pickup → PickedUp log pickup code → pickup < upload →
    (∀ between, mint < between → between < upload → ¬ Minted log between code) →
    PerformedAt log upload ⟨.putBlob code bytes expiresAt, ok⟩ → ok = false

/-- When a thread is about to call `put_blob`, every blob of the code that was stored since the last
mint is still in its slot: no pickup has asked for it, and by the wall clock it has not expired. -/
def FindsSlotKept (world : Relay) : RelayEvent → Prop
  | .resume thread _ => ∀ code bytes expiresAt,
    world.nextCall? thread = some (.putBlob code bytes expiresAt) →
    ∀ position stored deadline,
      PerformedAt world.log position ⟨.putBlob code stored deadline, true⟩ →
      (∀ later, position < later → ¬ Minted world.log later code) →
      UntakenSince world.log position code ∧ world.shared.wall < deadline
  | _ => True

/-! ### What stays in the maps -/

section Calls

variable {shared : Shared} {later : ℕ} {call : StoreCall} {code : String}

/-- A blob that has not expired stays, unless the call is a pickup of its code. -/
theorem blob_kept {blob : StoredBlob} (hblob : shared.inner.blobs.get? code = some blob)
    (hfresh : shared.wall < blob.expiresAt) (hnotTake : ∀ now, call ≠ .takeBlob code now) :
    (shared.callStore later call).1.blobs.get? code = some blob := by
  have hswept : (shared.inner.sweep shared.wall).blobs.get? code = some blob :=
    (Inner.get?_blobs_sweep _ _ _ _).mpr ⟨hblob, hfresh⟩
  cases call with
  | now => exact hblob
  | getRendezvous other => exact hblob
  | incrementMintCounter ip ttlSeconds => exact hswept
  | putRendezvous other record =>
    change (shared.inner.putRendezvous shared.wall other record).1.blobs.get? code = some blob
    rcases Inner.putRendezvous_cases shared.inner shared.wall other record with
      ⟨-, heq⟩ | ⟨_, -, heq⟩
    · rw [heq]
      exact hswept
    · rw [heq]
      exact hswept
  | putBlob other bytes expiresAt =>
    change (shared.inner.putBlob shared.wall other bytes expiresAt).1.blobs.get? code = some blob
    rcases Inner.putBlob_cases shared.inner shared.wall other bytes expiresAt with
      ⟨hfree, heq⟩ | ⟨_, -, heq⟩
    · have hne : code ≠ other := by
        rintro rfl
        rw [hswept] at hfree
        cases hfree
      rw [heq]
      change ((shared.inner.sweep shared.wall).blobs.set other _).get? code = some blob
      rw [OrderedMap.get?_set, if_neg hne]
      exact hswept
    · rw [heq]
      exact hswept
  | takeBlob other now =>
    have hne : code ≠ other := by
      rintro rfl
      exact hnotTake now rfl
    change (shared.inner.takeBlob other now).1.blobs.get? code = some blob
    rw [Inner.takeBlob_fst]
    change (shared.inner.blobs.erase other).get? code = some blob
    rw [OrderedMap.get?_erase, if_neg hne]
    exact hblob

/-- A record that has not expired stays. -/
theorem record_kept {record : RendezvousRecord}
    (hrecord : shared.inner.records.get? code = some record)
    (hfresh : shared.wall < record.expiresAt) :
    (shared.callStore later call).1.records.get? code = some record := by
  have hswept : (shared.inner.sweep shared.wall).records.get? code = some record :=
    (Inner.get?_records_sweep _ _ _ _).mpr ⟨hrecord, hfresh⟩
  cases call with
  | now => exact hrecord
  | getRendezvous other => exact hrecord
  | incrementMintCounter ip ttlSeconds => exact hswept
  | putBlob other bytes expiresAt =>
    change (shared.inner.putBlob shared.wall other bytes expiresAt).1.records.get? code =
      some record
    rcases Inner.putBlob_cases shared.inner shared.wall other bytes expiresAt with
      ⟨-, heq⟩ | ⟨_, -, heq⟩
    · rw [heq]
      exact hswept
    · rw [heq]
      exact hswept
  | takeBlob other now =>
    change (shared.inner.takeBlob other now).1.records.get? code = some record
    rw [Inner.takeBlob_fst]
    exact hrecord
  | putRendezvous other stored =>
    change (shared.inner.putRendezvous shared.wall other stored).1.records.get? code = some record
    rcases Inner.putRendezvous_cases shared.inner shared.wall other stored with
      ⟨hfree, heq⟩ | ⟨_, -, heq⟩
    · have hne : code ≠ other := by
        rintro rfl
        rw [hswept] at hfree
        cases hfree
      rw [heq]
      change ((shared.inner.sweep shared.wall).records.set other stored).get? code = some record
      rw [OrderedMap.get?_set, if_neg hne]
      exact hswept
    · rw [heq]
      exact hswept

/-- A mint succeeds when the code is free after the sweep; the map of blobs is only swept. -/
theorem of_putRendezvous {record : RendezvousRecord}
    (hput : (⟨call, (shared.callStore later call).2⟩ : Performed) =
      ⟨.putRendezvous code record, true⟩) :
    (shared.inner.sweep shared.wall).records.get? code = none ∧
      (shared.callStore later call).1.records.get? code = some record ∧
      (shared.callStore later call).1.blobs = (shared.inner.sweep shared.wall).blobs := by
  obtain ⟨rfl, hresult⟩ := Sigma.mk.inj hput
  have hok : (shared.inner.putRendezvous shared.wall code record).2 = true := eq_of_heq hresult
  change _ ∧ (shared.inner.putRendezvous shared.wall code record).1.records.get? code = _ ∧
    (shared.inner.putRendezvous shared.wall code record).1.blobs = _
  rcases Inner.putRendezvous_cases shared.inner shared.wall code record with
    ⟨hfree, heq⟩ | ⟨_, -, heq⟩
  · rw [heq]
    exact ⟨hfree, OrderedMap.get?_set_self _ _ _, rfl⟩
  · rw [heq] at hok
    cases hok

/-- An upload is accepted when the slot is free after the sweep. -/
theorem of_putBlob {bytes : Bytes} {expiresAt : ℕ}
    (hput : (⟨call, (shared.callStore later call).2⟩ : Performed) =
      ⟨.putBlob code bytes expiresAt, true⟩) :
    (shared.inner.sweep shared.wall).blobs.get? code = none ∧
      (shared.callStore later call).1.blobs.get? code = some ⟨bytes, expiresAt⟩ := by
  obtain ⟨rfl, hresult⟩ := Sigma.mk.inj hput
  have hok : (shared.inner.putBlob shared.wall code bytes expiresAt).2 = true :=
    eq_of_heq hresult
  change _ ∧ (shared.inner.putBlob shared.wall code bytes expiresAt).1.blobs.get? code = _
  rcases Inner.putBlob_cases shared.inner shared.wall code bytes expiresAt with
    ⟨hfree, heq⟩ | ⟨_, -, heq⟩
  · rw [heq]
    exact ⟨hfree, OrderedMap.get?_set_self _ _ _⟩
  · rw [heq] at hok
    cases hok

end Calls

/-- A blob that was stored, not asked for since and not expired by the wall clock is in its slot.
A record that was stored is there as long as it has not expired by the wall clock. -/
structure KeptInStore (shared : Shared) (log : List LogEntry) : Prop where
  blob : ∀ {position : ℕ} {code : String} {bytes : Bytes} {expiresAt : ℕ},
    PerformedAt log position ⟨.putBlob code bytes expiresAt, true⟩ →
    UntakenSince log position code → shared.wall < expiresAt →
    shared.inner.blobs.get? code = some ⟨bytes, expiresAt⟩
  record : ∀ {position : ℕ} {code : String} {record : RendezvousRecord},
    PerformedAt log position ⟨.putRendezvous code record, true⟩ →
    shared.wall < record.expiresAt → shared.inner.records.get? code = some record

variable {primitives : Primitives} {trustedIpHeader : TrustedIpHeader} {wall clock : ℕ}
  {world : Relay}

theorem keptInStore_of_reaches
    (hreaches : (Relay.automaton primitives trustedIpHeader).Reaches (Relay.start wall clock)
      world) : KeptInStore world.shared world.log := by
  refine Threads.shared_invariant hreaches KeptInStore ?_ ?_ ?_
  · refine ⟨?_, ?_⟩
    · rintro position code bytes expiresAt ⟨entry, hentry, -⟩
      simp at hentry
    · rintro position code record ⟨entry, hentry, -⟩
      simp at hentry
  · intro shared log passage next hkept helapse
    have hwall := (wall_le_of_elapse helapse).1
    obtain ⟨-, rfl⟩ := elapse_eq_some_iff.mp helapse
    refine ⟨?_, ?_⟩
    · intro position code bytes expiresAt hput huntaken hfresh
      exact hkept.blob hput huntaken (Nat.lt_of_le_of_lt hwall hfresh)
    · intro position code record hput hfresh
      exact hkept.record hput (Nat.lt_of_le_of_lt hwall hfresh)
  · intro shared log thread call passage next result hkept hperform
    have hwall := (wall_le_of_perform hperform).1
    obtain ⟨later, -, rfl, rfl⟩ := perform_eq_some_iff.mp hperform
    refine ⟨?_, ?_⟩
    · intro position code bytes expiresAt hput huntaken hfresh
      rcases performedAt_concat.mp hput with hold | ⟨-, hnew⟩
      · have huntakenBefore : UntakenSince log position code :=
          fun after now taken hlt htake ↦
            huntaken after now taken hlt (performedAt_concat.mpr (.inl htake))
        have hstored := hkept.blob hold huntakenBefore (Nat.lt_of_le_of_lt hwall hfresh)
        refine blob_kept hstored (Nat.lt_of_le_of_lt hwall hfresh) fun now hcall ↦ ?_
        subst hcall
        exact huntaken log.length now _ hold.lt (performedAt_concat.mpr (.inr ⟨rfl, rfl⟩))
      · exact (of_putBlob hnew).2
    · intro position code record hput hfresh
      rcases performedAt_concat.mp hput with hold | ⟨-, hnew⟩
      · exact record_kept (hkept.record hold (Nat.lt_of_le_of_lt hwall hfresh))
          (Nat.lt_of_le_of_lt hwall hfresh)
      · exact (of_putRendezvous hnew).2.1

/-! ### A mint finds the slot of its code empty -/

/-- A blob in the store has the deadline of a record of its code that was minted. -/
theorem record_of_blob
    (hreaches : (Relay.automaton primitives trustedIpHeader).Reaches (Relay.start wall clock)
      world) {position : ℕ} {code : String} {bytes : Bytes} {expiresAt : ℕ}
    (hput : PerformedAt world.log position ⟨.putBlob code bytes expiresAt, true⟩) :
    ∃ get mint epk, mint < get ∧ get ≠ position ∧
      PerformedAt world.log get ⟨.getRendezvous code, some ⟨epk, expiresAt⟩⟩ ∧
      PerformedAt world.log mint ⟨.putRendezvous code ⟨epk, expiresAt⟩, true⟩ := by
  have hconsistent : Threads.Consistent (handle primitives trustedIpHeader) world :=
    Threads.consistent_of_reaches hreaches
  obtain ⟨entry, hentry, hperformed⟩ := hput
  obtain ⟨-, epk, now, htrace⟩ :=
    accepted_of_putBlob hconsistent (List.mem_of_getElem? hentry) hperformed
  have hmem : (⟨.getRendezvous code, some ⟨epk, expiresAt⟩⟩ : Performed) ∈
      Threads.trace world.log entry.thread := by
    rw [htrace]
    exact List.mem_cons_self
  obtain ⟨read, hreadMem, -, hread⟩ := Threads.mem_trace_iff.mp hmem
  obtain ⟨get, hget⟩ := List.mem_iff_getElem?.mp hreadMem
  obtain ⟨mint, hlt, hmint⟩ := (recordHistory_of_reaches hreaches).read ⟨read, hget, hread⟩
  refine ⟨get, mint, epk, hlt, ?_, ⟨read, hget, hread⟩, hmint⟩
  rintro rfl
  rw [hentry, Option.some.injEq] at hget
  subst hget
  rw [hperformed] at hread
  cases hread

/-- A blob in the store was uploaded after the last mint of its code, and so was a blob that was
picked up. Every upload comes after a mint of its code. -/
structure SinceMint (world : Relay) : Prop where
  stored : ∀ {code : String} {blob : StoredBlob}, world.shared.inner.blobs.get? code = some blob →
    ∃ position, PerformedAt world.log position ⟨.putBlob code blob.bytes blob.expiresAt, true⟩ ∧
      UntakenSince world.log position code ∧
      ∀ mint, Minted world.log mint code → mint < position
  taken : ∀ {position : ℕ} {code : String}, PickedUp world.log position code →
    ∃ upload < position, Uploaded world.log upload code ∧
      ∀ mint < position, Minted world.log mint code → mint < upload
  minted : ∀ {position : ℕ} {code : String}, Uploaded world.log position code →
    ∃ mint < position, Minted world.log mint code

theorem minted_concat {log : List LogEntry} {entry : LogEntry} {position : ℕ} {code : String} :
    Minted (log ++ [entry]) position code ↔ Minted log position code ∨
      (position = log.length ∧ ∃ record, entry.performed = ⟨.putRendezvous code record, true⟩) := by
  unfold Minted
  simp only [performedAt_concat, exists_or, exists_and_left]

theorem uploaded_concat {log : List LogEntry} {entry : LogEntry} {position : ℕ} {code : String} :
    Uploaded (log ++ [entry]) position code ↔ Uploaded log position code ∨
      (position = log.length ∧
        ∃ bytes expiresAt, entry.performed = ⟨.putBlob code bytes expiresAt, true⟩) := by
  unfold Uploaded
  simp only [performedAt_concat, exists_or, exists_and_left]

theorem pickedUp_concat {log : List LogEntry} {entry : LogEntry} {position : ℕ} {code : String} :
    PickedUp (log ++ [entry]) position code ↔ PickedUp log position code ∨
      (position = log.length ∧
        ∃ now bytes, entry.performed = ⟨.takeBlob code now, some bytes⟩) := by
  unfold PickedUp
  simp only [performedAt_concat, exists_or, exists_and_left]

theorem Minted.lt {log : List LogEntry} {position : ℕ} {code : String}
    (hminted : Minted log position code) : position < log.length :=
  hminted.choose_spec.lt

theorem Uploaded.lt {log : List LogEntry} {position : ℕ} {code : String}
    (huploaded : Uploaded log position code) : position < log.length :=
  huploaded.choose_spec.choose_spec.lt

theorem PickedUp.lt {log : List LogEntry} {position : ℕ} {code : String}
    (hpickedUp : PickedUp log position code) : position < log.length :=
  hpickedUp.choose_spec.choose_spec.lt

/-- A successful mint finds no blob of its code that survives its sweep. -/
theorem blob_none_of_minted
    (hreaches : (Relay.automaton primitives trustedIpHeader).Reaches (Relay.start wall clock)
      world) {later : ℕ} {call : StoreCall} {code : String} {record : RendezvousRecord}
    (hput : (⟨call, (world.shared.callStore later call).2⟩ : Performed) =
      ⟨.putRendezvous code record, true⟩) :
    (world.shared.callStore later call).1.blobs.get? code = none := by
  obtain ⟨hfree, -, hblobs⟩ := of_putRendezvous hput
  rw [hblobs]
  cases hblob : (world.shared.inner.sweep world.shared.wall).blobs.get? code with
  | none => rfl
  | some blob =>
    obtain ⟨hstored, hfresh⟩ := (Inner.get?_blobs_sweep _ _ _ _).mp hblob
    obtain ⟨position, hposition, -⟩ := (blobHistory_of_reaches hreaches).stored hstored
    obtain ⟨-, mint, epk, -, -, -, hmint⟩ := record_of_blob hreaches hposition
    -- The record with the same deadline is still there, so the code was not free.
    have hrecord := (keptInStore_of_reaches hreaches).record hmint hfresh
    rw [(Inner.get?_records_sweep _ _ _ _).mpr ⟨hrecord, hfresh⟩] at hfree
    cases hfree

theorem SinceMint.resume {thread : ℕ} {passage : Passage} {next : Relay}
    (hreaches : (Relay.automaton primitives trustedIpHeader).Reaches (Relay.start wall clock)
      world)
    (hreachesNext : (Relay.automaton primitives trustedIpHeader).Reaches
      (Relay.start wall clock) next)
    (hsince : SinceMint world) (hresume : world.resume machine thread passage = some next) :
    SinceMint next := by
  obtain ⟨request, call, continuation, after, result, -, hperform, rfl⟩ :=
    Threads.resume_eq_some_iff.mp hresume
  obtain ⟨later, -, rfl, rfl⟩ := perform_eq_some_iff.mp hperform
  refine ⟨?_, ?_, ?_⟩
  · intro code blob hblob
    rcases blob_of_callStore hblob with ⟨hold, hnotTake⟩ | hput
    · obtain ⟨position, hposition, huntaken, hmints⟩ := hsince.stored hold
      refine ⟨position, performedAt_concat.mpr (.inl hposition), ?_, ?_⟩
      · intro other now taken hlt htake
        rcases performedAt_concat.mp htake with htake | ⟨-, htake⟩
        · exact huntaken other now taken hlt htake
        · exact hnotTake now (congrArg Sigma.fst htake)
      · intro mint hmint
        rcases minted_concat.mp hmint with hmint | ⟨-, record, hmint⟩
        · exact hmints mint hmint
        · have hnone := blob_none_of_minted hreaches hmint
          rw [hnone] at hblob
          cases hblob
    · refine ⟨world.log.length, performedAt_concat.mpr (.inr ⟨rfl, hput⟩), ?_, ?_⟩
      · intro other now taken hlt htake
        have hle := htake.lt
        rw [List.length_append, List.length_singleton] at hle
        omega
      · intro mint hmint
        rcases minted_concat.mp hmint with hmint | ⟨-, record, hmint⟩
        · exact hmint.lt
        · cases hmint.symm.trans hput
  · intro position code htaken
    rcases pickedUp_concat.mp htaken with htaken | ⟨rfl, now, bytes, htaken⟩
    · obtain ⟨upload, hlt, hupload, hmints⟩ := hsince.taken htaken
      refine ⟨upload, hlt, uploaded_concat.mpr (.inl hupload), ?_⟩
      intro mint hbefore hmint
      rcases minted_concat.mp hmint with hmint | ⟨rfl, -⟩
      · exact hmints mint hbefore hmint
      · exact (Nat.lt_asymm hbefore htaken.lt).elim
    · obtain ⟨expiresAt, hblob, -⟩ := blob_of_takeBlob htaken
      obtain ⟨upload, hupload, -, hmints⟩ := hsince.stored hblob
      refine ⟨upload, hupload.lt, uploaded_concat.mpr (.inl ⟨_, _, hupload⟩), ?_⟩
      intro mint hbefore hmint
      rcases minted_concat.mp hmint with hmint | ⟨rfl, -⟩
      · exact hmints mint hmint
      · exact (Nat.lt_irrefl _ hbefore).elim
  · intro position code hupload
    rcases uploaded_concat.mp hupload with hold | ⟨rfl, bytes, expiresAt, hput⟩
    · obtain ⟨mint, hlt, hmint⟩ := hsince.minted hold
      exact ⟨mint, hlt, minted_concat.mpr (.inl hmint)⟩
    · -- The upload read a record, which was minted before.
      have hperformed : PerformedAt (world.log ++ [_]) world.log.length _ :=
        performedAt_concat.mpr (.inr ⟨rfl, hput⟩)
      obtain ⟨get, mint, epk, hlt, hne, hget, hmint⟩ := record_of_blob hreachesNext hperformed
      have hgetLt := hget.lt
      rw [List.length_append, List.length_singleton] at hgetLt
      exact ⟨mint, by omega, _, hmint⟩

theorem sinceMint_of_reaches
    (hreaches : (Relay.automaton primitives trustedIpHeader).Reaches (Relay.start wall clock)
      world) : SinceMint world := by
  have hboth : (Relay.automaton primitives trustedIpHeader).Reaches (Relay.start wall clock)
      world ∧ SinceMint world := by
    refine hreaches.invariant (fun world ↦ (Relay.automaton primitives trustedIpHeader).Reaches
      (Relay.start wall clock) world ∧ SinceMint world) ⟨.refl, ?_, ?_, ?_⟩ ?_
    · intro code blob hblob
      simp [Relay.start, Threads.start, Inner.empty] at hblob
    · rintro position code htaken
      exact absurd htaken.lt (Nat.not_lt_zero _)
    · intro position code hupload
      exact absurd hupload.lt (Nat.not_lt_zero _)
    · rintro state event next ⟨hstate, hsince⟩ - hstep
      have hnext : (Relay.automaton primitives trustedIpHeader).Reaches (Relay.start wall clock)
          next := hstate.tail ⟨event, trivial, hstep⟩
      refine ⟨hnext, ?_⟩
      cases event with
      | arrive request =>
        obtain rfl := Option.some.inj hstep
        exact ⟨hsince.stored, hsince.taken, hsince.minted⟩
      | elapse passage =>
        obtain ⟨after, hafter, rfl⟩ := Option.map_eq_some_iff.mp hstep
        obtain ⟨-, rfl⟩ := elapse_eq_some_iff.mp hafter
        exact ⟨hsince.stored, hsince.taken, hsince.minted⟩
      | resume thread passage => exact hsince.resume hstate hnext hstep
  exact hboth.2

/-! ### Uploads that are apart -/

/-- Between two accepted uploads of a code there is a mint of it. -/
def Apart (log : List LogEntry) : Prop :=
  ∀ code first second, first < second → Uploaded log first code → Uploaded log second code →
    ∃ between, first < between ∧ between < second ∧ Minted log between code

/-- The last position below a bound at which something holds. -/
theorem exists_last {holds : ℕ → Prop} {bound : ℕ} (hsome : ∃ position < bound, holds position) :
    ∃ last < bound, holds last ∧ ∀ later, last < later → later < bound → ¬ holds later := by
  induction bound with
  | zero =>
    obtain ⟨position, hlt, -⟩ := hsome
    exact absurd hlt (Nat.not_lt_zero _)
  | succ bound ih =>
    by_cases hbound : holds bound
    · exact ⟨bound, Nat.lt_succ_self _, hbound, fun later hlt hle ↦ by omega⟩
    · obtain ⟨position, hlt, hposition⟩ := hsome
      have hne : position ≠ bound := fun heq ↦ hbound (heq ▸ hposition)
      obtain ⟨last, hlast, hholds, hnone⟩ := ih ⟨position, by omega, hposition⟩
      refine ⟨last, by omega, hholds, fun later hbefore hle ↦ ?_⟩
      by_cases heq : later = bound
      · exact heq ▸ hbound
      · exact hnone later hbefore (by omega)

theorem SinceMint.oneShot_iff (hsince : SinceMint world) :
    OneShot world.log ↔ Apart world.log := by
  constructor
  · -- The last mint before the first upload begins the interval.
    intro hone code first second hlt hfirst hsecond
    obtain ⟨mint, hmintLt, hmint, hlast⟩ := exists_last (hsince.minted hfirst)
    obtain ⟨between, hafter, hbefore, hbetween⟩ :=
      hone.single hmint hmintLt hlt hfirst hsecond
    refine ⟨between, ?_, hbefore, hbetween⟩
    by_contra hle
    have hne : between ≠ first := by
      rintro rfl
      obtain ⟨record, hrecord⟩ := hbetween
      obtain ⟨bytes, expiresAt, hput⟩ := hfirst
      cases hrecord.unique hput
    exact hlast between hafter (by omega) hbetween
  · intro hapart
    refine ⟨?_, ?_⟩
    · intro code mint first second _ hmintLt hlt hfirst hsecond
      obtain ⟨between, hafter, hbefore, hbetween⟩ := hapart code first second hlt hfirst hsecond
      exact ⟨between, by omega, hbefore, hbetween⟩
    · intro code mint pickup upload bytes expiresAt ok hmint hmintLt hpickup hlt hnone hput
      cases ok with
      | false => rfl
      | true =>
        obtain ⟨earlier, hearlier, huploaded, hmints⟩ := hsince.taken hpickup
        have hafterMint := hmints mint hmintLt hmint
        obtain ⟨between, hafter, hbefore, hbetween⟩ :=
          hapart code earlier upload (by omega) huploaded ⟨bytes, expiresAt, hput⟩
        exact (hnone between (by omega) hbefore hbetween).elim

/-- What a call adds to the log does not change what was there. -/
theorem performedAt_append {log more : List LogEntry} {position : ℕ} {performed : Performed}
    (hlt : position < log.length) :
    PerformedAt (log ++ more) position performed ↔ PerformedAt log position performed := by
  unfold PerformedAt
  rw [List.getElem?_append_left hlt]

/-- The property of a log is one of its beginnings. -/
theorem Apart.of_append {log more : List LogEntry} (hapart : Apart (log ++ more)) :
    Apart log := by
  have hmono : ∀ {position : ℕ} {code : String}, Uploaded log position code →
      Uploaded (log ++ more) position code := by
    rintro position code ⟨bytes, expiresAt, hput⟩
    exact ⟨bytes, expiresAt, (performedAt_append hput.lt).mpr hput⟩
  intro code first second hlt hfirst hsecond
  obtain ⟨between, hafter, hbefore, record, hmint⟩ :=
    hapart code first second hlt (hmono hfirst) (hmono hsecond)
  have hbetween : between < log.length := Nat.lt_trans hbefore hsecond.lt
  exact ⟨between, hafter, hbefore, record, (performedAt_append hbetween).mp hmint⟩

/-- A step that finds the slot as it was left keeps the uploads apart. -/
theorem apart_step {event : RelayEvent} {next : Relay}
    (hreaches : (Relay.automaton primitives trustedIpHeader).Reaches (Relay.start wall clock)
      world) (hapart : Apart world.log) (hkept : FindsSlotKept world event)
    (hstep : (Relay.automaton primitives trustedIpHeader).step world event = some next) :
    Apart next.log := by
  cases event with
  | arrive request =>
    obtain rfl := Option.some.inj hstep
    exact hapart
  | elapse passage =>
    obtain ⟨after, -, rfl⟩ := Option.map_eq_some_iff.mp hstep
    exact hapart
  | resume thread passage =>
    obtain ⟨request, call, continuation, after, result, hthread, hperform, rfl⟩ :=
      Threads.resume_eq_some_iff.mp hstep
    obtain ⟨later, -, rfl, rfl⟩ := perform_eq_some_iff.mp hperform
    intro code first second hlt hfirst hsecond
    rcases uploaded_concat.mp hsecond with hold | ⟨rfl, bytes, expiresAt, hput⟩
    · have hfirstOld : Uploaded world.log first code := by
        rcases uploaded_concat.mp hfirst with hfirstOld | ⟨rfl, -⟩
        · exact hfirstOld
        · exact (Nat.lt_asymm hlt hold.lt).elim
      obtain ⟨between, hafter, hbefore, hmint⟩ := hapart code first second hlt hfirstOld hold
      exact ⟨between, hafter, hbefore, minted_concat.mpr (.inl hmint)⟩
    · have hfirstOld : Uploaded world.log first code := by
        rcases uploaded_concat.mp hfirst with hfirstOld | ⟨rfl, -⟩
        · exact hfirstOld
        · exact (Nat.lt_irrefl _ hlt).elim
      obtain ⟨stored, deadline, hstored⟩ := hfirstOld
      by_contra hnone
      have hnoMint : ∀ between, first < between → ¬ Minted world.log between code := by
        intro between hafter hmint
        exact hnone ⟨between, hafter, hmint.lt, minted_concat.mpr (.inl hmint)⟩
      have hcall : call = .putBlob code bytes expiresAt := congrArg Sigma.fst hput
      have hnext := Threads.nextCall?_of_thread hthread
      rw [hcall] at hnext
      obtain ⟨huntaken, hfresh⟩ := hkept code bytes expiresAt hnext first stored deadline hstored
        hnoMint
      -- The slot still holds the first blob, so the second upload is refused.
      have hslot := (keptInStore_of_reaches hreaches).blob hstored huntaken hfresh
      have hfree := (of_putBlob hput).1
      rw [(Inner.get?_blobs_sweep _ _ _ _).mpr ⟨hslot, hfresh⟩] at hfree
      cases hfree

/-- A step after which the uploads are apart found the slot as it was left. -/
theorem findsSlotKept_of_apart {event : RelayEvent} {next : Relay}
    (hreaches : (Relay.automaton primitives trustedIpHeader).Reaches (Relay.start wall clock)
      world)
    (hstep : (Relay.automaton primitives trustedIpHeader).step world event = some next)
    (hapart : Apart next.log) : FindsSlotKept world event := by
  cases event with
  | arrive request => trivial
  | elapse passage => trivial
  | resume thread passage =>
    obtain ⟨request, call, continuation, after, result, hthread, hperform, rfl⟩ :=
      Threads.resume_eq_some_iff.mp hstep
    obtain ⟨later, -, rfl, rfl⟩ := perform_eq_some_iff.mp hperform
    have hbefore : Apart world.log := hapart.of_append
    intro code bytes expiresAt hnext position stored deadline hstored hnoMint
    rw [Threads.nextCall?_of_thread hthread, Option.some.injEq] at hnext
    subst hnext
    rcases Inner.putBlob_cases world.shared.inner world.shared.wall code bytes expiresAt with
      ⟨-, heq⟩ | ⟨other, hother, -⟩
    · -- An accepted upload would be the second since the mint.
      have hok : (world.shared.callStore later.wall (.putBlob code bytes expiresAt)).2 = true := by
        change (world.shared.inner.putBlob world.shared.wall code bytes expiresAt).2 = true
        rw [heq]
      obtain ⟨between, hafter, hlt, hmint⟩ := hapart code position world.log.length hstored.lt
        (uploaded_concat.mpr (.inl ⟨stored, deadline, hstored⟩))
        (uploaded_concat.mpr (.inr ⟨rfl, bytes, expiresAt, congrArg (Sigma.mk _) hok⟩))
      rcases minted_concat.mp hmint with hmint | ⟨rfl, -⟩
      · exact (hnoMint between hafter hmint).elim
      · exact (Nat.lt_irrefl _ hlt).elim
    · -- A blob that is still there is the one uploaded since the mint.
      obtain ⟨hslot, hfresh⟩ := (Inner.get?_blobs_sweep _ _ _ _).mp hother
      obtain ⟨holder, hholder, huntaken, hmints⟩ :=
        (sinceMint_of_reaches hreaches).stored hslot
      have hsame : holder = position := by
        rcases Nat.lt_trichotomy holder position with hlt | heq | hgt
        · obtain ⟨between, hafter, -, hmint⟩ := hbefore code holder position hlt
            ⟨_, _, hholder⟩ ⟨_, _, hstored⟩
          exact (Nat.lt_asymm hafter (hmints between hmint)).elim
        · exact heq
        · obtain ⟨between, hafter, -, hmint⟩ := hbefore code position holder hgt
            ⟨_, _, hstored⟩ ⟨_, _, hholder⟩
          exact (hnoMint between hafter hmint).elim
      subst hsame
      cases hholder.unique hstored
      exact ⟨huntaken, hfresh⟩

/-- The log of a later state of a run begins with the log of an earlier one. -/
theorem exists_append_of_run {events : List RelayEvent} : ∀ {world final : Relay},
    (Relay.automaton primitives trustedIpHeader).run world events = some final →
      ∃ more, final.log = world.log ++ more := by
  induction events with
  | nil =>
    intro world final hrun
    obtain rfl := Option.some.inj hrun
    exact ⟨[], (List.append_nil _).symm⟩
  | cons event rest ih =>
    intro world final hrun
    obtain ⟨next, hstep, hrest⟩ := Option.bind_eq_some_iff.mp hrun
    obtain ⟨more, hmore⟩ := ih hrest
    have hnext : ∃ added, next.log = world.log ++ added := by
      cases event with
      | arrive request =>
        obtain rfl := Option.some.inj hstep
        exact ⟨[], (List.append_nil _).symm⟩
      | elapse passage =>
        obtain ⟨after, -, rfl⟩ := Option.map_eq_some_iff.mp hstep
        exact ⟨[], (List.append_nil _).symm⟩
      | resume thread passage =>
        obtain ⟨_, _, _, _, _, -, -, rfl⟩ := Threads.resume_eq_some_iff.mp hstep
        exact ⟨_, rfl⟩
    obtain ⟨added, hadded⟩ := hnext
    exact ⟨added ++ more, by rw [hmore, hadded, List.append_assoc]⟩

theorem runMeets_of_apart {events : List RelayEvent} : ∀ {world final : Relay},
    (Relay.automaton primitives trustedIpHeader).Reaches (Relay.start wall clock) world →
    (Relay.automaton primitives trustedIpHeader).run world events = some final →
    Apart final.log →
    (Relay.automaton primitives trustedIpHeader).RunMeets FindsSlotKept world events := by
  induction events with
  | nil => exact fun _ _ _ ↦ trivial
  | cons event rest ih =>
    intro world final hreaches hrun hapart
    obtain ⟨next, hstep, hrest⟩ := Option.bind_eq_some_iff.mp hrun
    obtain ⟨more, hmore⟩ := exists_append_of_run hrest
    have hnext : Apart next.log := (hmore ▸ hapart : Apart (next.log ++ more)).of_append
    refine ⟨findsSlotKept_of_apart hreaches hstep hnext, fun other hother ↦ ?_⟩
    rw [hstep, Option.some.injEq] at hother
    subst hother
    exact ih (hreaches.tail ⟨event, trivial, hstep⟩) hrest hapart

theorem apart_of_runMeets {events : List RelayEvent} : ∀ {world final : Relay},
    (Relay.automaton primitives trustedIpHeader).Reaches (Relay.start wall clock) world →
    Apart world.log →
    (Relay.automaton primitives trustedIpHeader).run world events = some final →
    (Relay.automaton primitives trustedIpHeader).RunMeets FindsSlotKept world events →
    Apart final.log := by
  induction events with
  | nil =>
    intro world final _ hapart hrun _
    obtain rfl := Option.some.inj hrun
    exact hapart
  | cons event rest ih =>
    intro world final hreaches hapart hrun hmeets
    obtain ⟨next, hstep, hrest⟩ := Option.bind_eq_some_iff.mp hrun
    exact ih (hreaches.tail ⟨event, trivial, hstep⟩)
      (apart_step hreaches hapart hmeets.1 hstep) hrest (hmeets.2 next hstep)

/-- A run of any requests, interleaved call by call, keeps every rendezvous one-shot if and only if
every upload that reaches `put_blob` finds the slot of its code as the uploads since the last mint
left it. -/
theorem oneShot_iff_runMeets {events : List RelayEvent} {final : Relay}
    (hrun : (Relay.automaton primitives trustedIpHeader).run (Relay.start wall clock) events =
      some final) :
    OneShot final.log ↔ (Relay.automaton primitives trustedIpHeader).RunMeets FindsSlotKept
      (Relay.start wall clock) events := by
  rw [(sinceMint_of_reaches (Automaton.reaches_of_run hrun)).oneShot_iff]
  constructor
  · exact runMeets_of_apart .refl hrun
  · refine apart_of_runMeets .refl ?_ hrun
    intro code first second _ hfirst _
    exact absurd hfirst.lt (Nat.not_lt_zero _)

/-! ### A second upload after a pickup -/

/-- The calls of a log with their results. -/
theorem performedAt_of_history {log : List LogEntry} {history : List Performed}
    (hhistory : log.map Entry.performed = history) {position : ℕ} {performed : Performed}
    (hperformed : history[position]? = some performed) : PerformedAt log position performed := by
  rw [← hhistory, List.getElem?_map, Option.map_eq_some_iff] at hperformed
  exact hperformed

/-- A request whose handler runs to its end while nothing else happens. -/
def alone (thread calls : ℕ) (request : Request) : List RelayEvent :=
  .arrive request :: List.replicate calls (.resume thread ⟨0, 0⟩)

/-- A recipient mints, a sender uploads and the recipient picks the blob up. -/
def handedOver : List RelayEvent :=
  alone 0 3 (.mint [] recipientKey) ++ alone 1 3 (.upload "JCAEZF2HWP7K" [1, 2, 3]) ++
    alone 2 2 (.download "JCAEZF2HWP7K")

/-- After the pickup there is another upload under the same code. -/
def uploadedAgain : List RelayEvent :=
  handedOver ++ alone 3 3 (.upload "JCAEZF2HWP7K" [4])

/-- The calls of `uploadedAgain`. -/
def uploadedAgainHistory : List Performed :=
  let record : RendezvousRecord := ⟨recipientKey, 1700000300⟩
  [⟨.incrementMintCounter "unknown" 300, (1 : ℕ)⟩, ⟨.now, (1700000000 : ℕ)⟩,
    ⟨.putRendezvous "JCAEZF2HWP7K" record, true⟩,
    ⟨.getRendezvous "JCAEZF2HWP7K", some record⟩, ⟨.now, (1700000000 : ℕ)⟩,
    ⟨.putBlob "JCAEZF2HWP7K" [1, 2, 3] 1700000300, true⟩,
    ⟨.now, (1700000000 : ℕ)⟩, ⟨.takeBlob "JCAEZF2HWP7K" 1700000000, some [1, 2, 3]⟩,
    ⟨.getRendezvous "JCAEZF2HWP7K", some record⟩, ⟨.now, (1700000000 : ℕ)⟩,
    ⟨.putBlob "JCAEZF2HWP7K" [4] 1700000300, true⟩]

/-- The run of one handover, in which the equivalence applies. -/
theorem oneShot_iff_runMeets_handedOver : ∃ final,
    (Relay.automaton tabulated .absent).run (Relay.start 1700000000 1700000000) handedOver =
      some final ∧
    (OneShot final.log ↔ (Relay.automaton tabulated .absent).RunMeets FindsSlotKept
      (Relay.start 1700000000 1700000000) handedOver) := by
  have hsome : ((Relay.automaton tabulated .absent).run (Relay.start 1700000000 1700000000)
      handedOver).isSome = true := by decide +kernel
  obtain ⟨final, hrun⟩ := Option.isSome_iff_exists.mp hsome
  exact ⟨final, hrun, oneShot_iff_runMeets hrun⟩

/-- An upload after the pickup is accepted, although the rendezvous was not minted again. -/
theorem not_oneShot_uploadedAgain : ∃ final,
    (Relay.automaton tabulated .absent).run (Relay.start 1700000000 1700000000) uploadedAgain =
      some final ∧ ¬ OneShot final.log := by
  have hhistory : ((Relay.automaton tabulated .absent).run (Relay.start 1700000000 1700000000)
      uploadedAgain).map (fun final ↦ final.log.map Entry.performed) =
        some uploadedAgainHistory := by decide +kernel
  obtain ⟨final, hrun, hlog⟩ := Option.map_eq_some_iff.mp hhistory
  refine ⟨final, hrun, fun hone ↦ ?_⟩
  have hminted : Minted final.log 2 "JCAEZF2HWP7K" := ⟨_, performedAt_of_history hlog rfl⟩
  have hpickedUp : PickedUp final.log 7 "JCAEZF2HWP7K" :=
    ⟨_, _, performedAt_of_history hlog rfl⟩
  have hput : PerformedAt final.log 10 ⟨.putBlob "JCAEZF2HWP7K" [4] 1700000300, true⟩ :=
    performedAt_of_history hlog rfl
  have hfalse := hone.refused hminted (by decide) hpickedUp (by decide) ?_ hput
  · cases hfalse
  · intro between hafter hbefore hminted
    obtain ⟨record, entry, hentry, hmint⟩ := hminted
    have hat : uploadedAgainHistory[between]? =
        some ⟨.putRendezvous "JCAEZF2HWP7K" record, true⟩ := by
      rw [← hlog, List.getElem?_map, hentry, Option.map_some, hmint]
    have hcases : between = 3 ∨ between = 4 ∨ between = 5 ∨ between = 6 ∨ between = 7 ∨
        between = 8 ∨ between = 9 := by omega
    rcases hcases with rfl | rfl | rfl | rfl | rfl | rfl | rfl <;> cases hat

end OpfsWebauthn.Backend
