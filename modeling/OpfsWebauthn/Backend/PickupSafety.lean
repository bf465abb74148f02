import OpfsWebauthn.Backend.Relay
import OpfsWebauthn.Share.RelayConfidentiality

/-!
# Pickups

Every download that succeeds returns the bytes of one earlier accepted upload under its code, no
upload is returned twice, and the download read its clock before the deadline of the record that
the upload had read. Every key that a fetch returns is the one its code commits to.

The calls of a handler are taken apart by its program (`Program.Runs`), and what links the calls of
different handlers is the history of the store (`BlobHistory`, `RecordHistory`).
-/

set_option autoImplicit false
set_option relaxedAutoImplicit false

namespace OpfsWebauthn.Backend

open Foundation Storage Crypto Share

/-- The upload handler of a thread has answered that the blob was accepted. -/
def Accepted (world : Relay) (thread : ℕ) (code : String) (bytes : Bytes) : Prop :=
  world.threads[thread]? = some ⟨.upload code bytes, .done (.ok .noContent)⟩

/-- The download handler of a thread has answered with bytes. -/
def Downloaded (world : Relay) (thread : ℕ) (code : String) (bytes : Bytes) : Prop :=
  world.threads[thread]? = some ⟨.download code, .done (.ok (.octetStream bytes))⟩

/-- The blob that one call stored is the one that a later call took, and no pickup in between asked
for it. -/
structure TakesBlob (log : List LogEntry) (i j : ℕ) (first second : LogEntry) (code : String)
    (bytes : Bytes) (expiresAt now : ℕ) : Prop where
  lt : i < j
  first_at : log[i]? = some first
  second_at : log[j]? = some second
  put : first.performed = ⟨.putBlob code bytes expiresAt, true⟩
  take : second.performed = ⟨.takeBlob code now, some bytes⟩
  fresh : now < expiresAt
  between : ∀ position other result, i < position → position < j →
    ¬ PerformedAt log position ⟨.takeBlob code other, result⟩

/-- A download returned what an upload had stored before, at a clock before the deadline of the
record that the upload had read. -/
structure PicksUp (world : Relay) (upload download : ℕ) (code : String) (bytes : Bytes) :
    Prop where
  accepted : Accepted world upload code bytes
  earlier : ∃ i j first second expiresAt now,
    TakesBlob world.log i j first second code bytes expiresAt now ∧
    first.thread = upload ∧ second.thread = download
  fresh : ∃ epk expiresAt uploadNow downloadNow,
    Threads.trace world.log upload = [⟨.getRendezvous code, some ⟨epk, expiresAt⟩⟩,
      ⟨.now, uploadNow⟩, ⟨.putBlob code bytes expiresAt, true⟩] ∧
    Threads.trace world.log download =
      [⟨.now, downloadNow⟩, ⟨.takeBlob code downloadNow, some bytes⟩] ∧
    downloadNow < expiresAt

variable {primitives : Primitives} {trustedIpHeader : TrustedIpHeader} {wall clock : ℕ}
  {world : Relay}

/-- A call in the log is one that the handler of its thread's request can make. -/
theorem mayCall_of_mem (hconsistent : Threads.Consistent (handle primitives trustedIpHeader) world)
    {entry : LogEntry} (hentry : entry ∈ world.log) : ∃ request rest,
      world.threads[entry.thread]? = some ⟨request, rest⟩ ∧
      (handle primitives trustedIpHeader request).Runs (Threads.trace world.log entry.thread)
        rest ∧
      mayCall primitives trustedIpHeader request entry.call := by
  obtain ⟨request, rest, hthread, hruns, hmem⟩ := hconsistent.exists_thread hentry
  exact ⟨request, rest, hthread, hruns, hruns.allowed (allows_handle request) _ hmem⟩

/-- A blob that was stored is the body of an upload under that code, which was accepted. -/
theorem accepted_of_putBlob
    (hconsistent : Threads.Consistent (handle primitives trustedIpHeader) world)
    {entry : LogEntry} (hentry : entry ∈ world.log) {code : String} {bytes : Bytes}
    {expiresAt : ℕ} (hput : entry.performed = ⟨.putBlob code bytes expiresAt, true⟩) :
    Accepted world entry.thread code bytes ∧ ∃ epk now,
      Threads.trace world.log entry.thread = [⟨.getRendezvous code, some ⟨epk, expiresAt⟩⟩,
        ⟨.now, now⟩, ⟨.putBlob code bytes expiresAt, true⟩] := by
  obtain ⟨request, rest, hthread, hruns, hmay⟩ := mayCall_of_mem hconsistent hentry
  have hcall : entry.call = .putBlob code bytes expiresAt := congrArg Sigma.fst hput
  have hmem : (⟨.putBlob code bytes expiresAt, true⟩ : Performed) ∈
      Threads.trace world.log entry.thread :=
    Threads.mem_trace_iff.mpr ⟨entry, hentry, rfl, hput⟩
  rw [hcall] at hmay
  cases request with
  | mint headers body => exact hmay.elim
  | fetch other => exact hmay.elim
  | download other => exact hmay.elim
  | upload other body =>
    obtain ⟨rfl, rfl, epk, now, htrace, -, hrest⟩ := putBlob_of_runs hruns hmem
    rw [hrest] at hthread
    exact ⟨hthread, epk, now, htrace⟩

/-- An upload stores at most one blob. -/
theorem putBlob_unique
    (hconsistent : Threads.Consistent (handle primitives trustedIpHeader) world) {i j : ℕ}
    {first second : LogEntry} (hfirst : world.log[i]? = some first)
    (hsecond : world.log[j]? = some second) (hthread : first.thread = second.thread)
    {code other : String} {bytes otherBytes : Bytes} {expiresAt otherExpiresAt : ℕ}
    (hput : first.performed = ⟨.putBlob code bytes expiresAt, true⟩)
    (hother : second.performed = ⟨.putBlob other otherBytes otherExpiresAt, true⟩) : i = j := by
  -- The trace of an upload has one `put_blob`, so it has no two entries of that kind.
  have hone : ∀ {k l : ℕ} {earlier later : LogEntry} {code other : String}
      {bytes otherBytes : Bytes} {expiresAt otherExpiresAt : ℕ}, k < l →
      world.log[k]? = some earlier → world.log[l]? = some later →
      earlier.thread = later.thread →
      earlier.performed = ⟨.putBlob code bytes expiresAt, true⟩ →
      later.performed = ⟨.putBlob other otherBytes otherExpiresAt, true⟩ → False := by
    intro k l earlier later code other bytes otherBytes expiresAt otherExpiresAt hlt hearlier
      hlater hsame hput hother
    have hpair := Threads.pair_sublist_trace hlt hearlier hlater hsame rfl
    obtain ⟨-, epk, now, htrace⟩ :=
      accepted_of_putBlob hconsistent (List.mem_of_getElem? hlater) hother
    rw [htrace, hput, hother] at hpair
    let isPut (performed : Performed) : Bool :=
      match performed.1 with
      | .putBlob _ _ _ => true
      | _ => false
    have hcount := hpair.countP_le (p := isPut)
    simp [isPut] at hcount
  rcases Nat.lt_trichotomy i j with hlt | heq | hgt
  · exact (hone hlt hfirst hsecond hthread hput hother).elim
  · exact heq
  · exact (hone hgt hsecond hfirst hthread.symm hother hput).elim

/-- A download that succeeded took the blob of an accepted upload. -/
theorem picksUp_of_downloaded
    (hreaches : (Relay.automaton primitives trustedIpHeader).Reaches (Relay.start wall clock)
      world) {download : ℕ} {code : String} {bytes : Bytes}
    (hdownloaded : Downloaded world download code bytes) :
    ∃ upload, PicksUp world upload download code bytes := by
  have hconsistent : Threads.Consistent (handle primitives trustedIpHeader) world :=
    Threads.consistent_of_reaches hreaches
  obtain ⟨now, taken, htrace, hresponse⟩ := takeBlob_of_runs (hconsistent.runs hdownloaded)
  cases hresponse
  have hmem : (⟨.takeBlob code now, some bytes⟩ : Performed) ∈
      Threads.trace world.log download := by
    rw [htrace]
    exact List.mem_cons_of_mem _ (List.mem_singleton.mpr rfl)
  obtain ⟨second, hsecondMem, hthread, htake⟩ := Threads.mem_trace_iff.mp hmem
  obtain ⟨j, hsecond⟩ := List.mem_iff_getElem?.mp hsecondMem
  obtain ⟨i, expiresAt, hlt, hfresh, ⟨first, hfirst, hput⟩, hbetween⟩ :=
    (blobHistory_of_reaches hreaches).taken ⟨second, hsecond, htake⟩
  obtain ⟨haccepted, epk, uploadNow, huploadTrace⟩ :=
    accepted_of_putBlob hconsistent (List.mem_of_getElem? hfirst) hput
  refine ⟨first.thread, haccepted, ?_, epk, expiresAt, uploadNow, now, huploadTrace, htrace,
    hfresh⟩
  exact ⟨i, j, first, second, expiresAt, now,
    ⟨hlt, hfirst, hsecond, hput, htake, hfresh, hbetween⟩, rfl, hthread⟩

/-- Two downloads that return the blob of one upload are one download. -/
theorem PicksUp.download_eq
    (hconsistent : Threads.Consistent (handle primitives trustedIpHeader) world)
    {upload download other : ℕ} {code otherCode : String} {bytes otherBytes : Bytes}
    (hpicks : PicksUp world upload download code bytes)
    (hother : PicksUp world upload other otherCode otherBytes) : download = other := by
  obtain ⟨i, j, first, second, expiresAt, now, htakes, hfirst, hsecond⟩ := hpicks.earlier
  obtain ⟨k, l, third, fourth, otherExpiresAt, otherNow, hothers, hthird, hfourth⟩ :=
    hother.earlier
  -- An upload stores one blob, and two pickups after that are one after the other.
  obtain rfl : i = k := putBlob_unique hconsistent htakes.first_at hothers.first_at
    (by rw [hfirst, hthird]) htakes.put hothers.put
  have hsame := hothers.first_at
  rw [htakes.first_at, Option.some.injEq] at hsame
  have hcode := hothers.put
  rw [← hsame, htakes.put] at hcode
  cases hcode
  rcases Nat.lt_trichotomy j l with hlt | rfl | hgt
  · exact (hothers.between j now _ htakes.lt hlt ⟨second, htakes.second_at, htakes.take⟩).elim
  · have heq := hothers.second_at
    rw [htakes.second_at, Option.some.injEq] at heq
    rw [← hsecond, ← hfourth, heq]
  · exact (htakes.between l otherNow _ hothers.lt hgt
      ⟨fourth, hothers.second_at, hothers.take⟩).elim

/-- The record that a fetch read holds a key of the right length, to which its code commits. -/
theorem commits_of_getRendezvous
    (hreaches : (Relay.automaton primitives trustedIpHeader).Reaches (Relay.start wall clock)
      world) {position : ℕ} {code : String} {record : RendezvousRecord}
    (hget : PerformedAt world.log position ⟨.getRendezvous code, some record⟩) :
    record.epk.length = x25519PubkeyLen ∧ commitmentCode primitives record.epk = code := by
  have hconsistent : Threads.Consistent (handle primitives trustedIpHeader) world :=
    Threads.consistent_of_reaches hreaches
  obtain ⟨earlier, -, entry, hentry, hput⟩ := (recordHistory_of_reaches hreaches).read hget
  obtain ⟨request, rest, -, -, hmay⟩ :=
    mayCall_of_mem hconsistent (List.mem_of_getElem? hentry)
  have hcall : entry.call = .putRendezvous code record := congrArg Sigma.fst hput
  rw [hcall] at hmay
  cases request with
  | mint headers body =>
    obtain ⟨rfl, hlength, rfl⟩ := hmay
    exact ⟨hlength, rfl⟩
  | fetch other => exact hmay.elim
  | upload other body => exact hmay.elim
  | download other => exact hmay.elim

/-- In every run of any requests, interleaved call by call: there is an assignment of downloads to
uploads, one to one, under which every successful download returns exactly what its upload had
stored under that code, before the deadline of the record that the upload had read; and every key
that a fetch serves has 32 bytes and is the one its code commits to. -/
theorem pickup_safety
    (hreaches : (Relay.automaton primitives trustedIpHeader).Reaches (Relay.start wall clock)
      world) :
    (∃ source : ℕ → ℕ,
      (∀ download code bytes, Downloaded world download code bytes →
        PicksUp world (source download) download code bytes) ∧
      ∀ download other code otherCode bytes otherBytes, Downloaded world download code bytes →
        Downloaded world other otherCode otherBytes → source download = source other →
        download = other) ∧
    ∀ (thread : ℕ) (code : String) (response : Response),
      world.threads[thread]? = some ⟨.fetch code, .done (.ok response)⟩ →
      ∃ epk, response = .octetStream epk ∧ epk.length = x25519PubkeyLen ∧
        commitmentCode primitives epk = code := by
  have hconsistent : Threads.Consistent (handle primitives trustedIpHeader) world :=
    Threads.consistent_of_reaches hreaches
  refine ⟨?_, ?_⟩
  · have hsource : ∀ download, ∃ upload, ∀ code bytes, Downloaded world download code bytes →
        PicksUp world upload download code bytes := by
      intro download
      by_cases hany : ∃ code bytes, Downloaded world download code bytes
      · obtain ⟨code, bytes, hdownloaded⟩ := hany
        obtain ⟨upload, hpicks⟩ := picksUp_of_downloaded hreaches hdownloaded
        refine ⟨upload, fun otherCode otherBytes hother ↦ ?_⟩
        unfold Downloaded at hother hdownloaded
        rw [hdownloaded] at hother
        cases hother
        exact hpicks
      · exact ⟨0, fun code bytes hdownloaded ↦ (hany ⟨code, bytes, hdownloaded⟩).elim⟩
    choose source hsource using hsource
    refine ⟨source, hsource, ?_⟩
    intro download other code otherCode bytes otherBytes hdownloaded hother heq
    have hpicks := hsource other otherCode otherBytes hother
    rw [← heq] at hpicks
    exact (hsource download code bytes hdownloaded).download_eq hconsistent hpicks
  · intro thread code response hthread
    obtain ⟨record, now, htrace, -, rfl⟩ := getRendezvous_of_runs (hconsistent.runs hthread)
    have hmem : (⟨.getRendezvous code, some record⟩ : Performed) ∈
        Threads.trace world.log thread := by
      rw [htrace]
      exact List.mem_cons_self
    obtain ⟨entry, hentry, -, hget⟩ := Threads.mem_trace_iff.mp hmem
    obtain ⟨position, hposition⟩ := List.mem_iff_getElem?.mp hentry
    exact ⟨record.epk, rfl, commits_of_getRendezvous hreaches ⟨entry, hposition, hget⟩⟩

/-! ### Two uploads and two downloads at once -/

/-- A recipient mints; two senders read the record before either uploads; two downloads read the
clock before either takes the blob. -/
def racingRequests : List RelayEvent :=
  let moves (thread : ℕ) : RelayEvent := .resume thread ⟨0, 0⟩
  [.arrive (.mint [] recipientKey), moves 0, moves 0, .elapse ⟨5, 5⟩, moves 0,
    .arrive (.upload "JCAEZF2HWP7K" [1, 2, 3]), .arrive (.upload "JCAEZF2HWP7K" [4]),
    moves 1, moves 2, moves 2, moves 1, moves 1, moves 2,
    .arrive (.download "JCAEZF2HWP7K"), .arrive (.download "JCAEZF2HWP7K"),
    .elapse ⟨200, 200⟩, moves 3, moves 4, moves 4, moves 3]

/-- The first upload was stored and the second download was the first to take it. -/
theorem pickup_safety_racingRequests : ∃ world,
    (Relay.automaton tabulated .absent).run (Relay.start 1700000000 1700000000) racingRequests =
      some world ∧
    Downloaded world 4 "JCAEZF2HWP7K" [1, 2, 3] ∧
    ∃ upload, PicksUp world upload 4 "JCAEZF2HWP7K" [1, 2, 3] := by
  have hanswer : ((Relay.automaton tabulated .absent).run (Relay.start 1700000000 1700000000)
      racingRequests).bind (·.answer? 4) =
        some (.download "JCAEZF2HWP7K", .ok (.octetStream [1, 2, 3])) := by
    decide +kernel
  obtain ⟨world, hrun, hdone⟩ := Option.bind_eq_some_iff.mp hanswer
  have hdownloaded : Downloaded world 4 "JCAEZF2HWP7K" [1, 2, 3] :=
    Threads.answer?_eq_some_iff.mp hdone
  obtain ⟨⟨source, hpicks, -⟩, -⟩ := pickup_safety (Automaton.reaches_of_run hrun)
  exact ⟨world, hrun, hdownloaded, source 4, hpicks 4 _ _ hdownloaded⟩

end OpfsWebauthn.Backend
