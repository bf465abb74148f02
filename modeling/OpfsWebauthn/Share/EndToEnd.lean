import OpfsWebauthn.Crypto.Tabulated
import OpfsWebauthn.Share.Promises

/-!
# A share end to end

Once `sendShare` has succeeded, a download that begins after the blob was stored is the first to
take it, so the polling returns with the second reply it gets from then on. With what the parties
get, this makes the result about whole runs: within the lifetime of the session the sender succeeds
and the recipient is returned the note.
-/

set_option autoImplicit false
set_option relaxedAutoImplicit false

namespace OpfsWebauthn.Share

open Foundation Storage Crypto Backend

variable {primitives : Primitives} {trustedIpHeader : TrustedIpHeader} {parties : Parties}

/-! ### Polling after the upload -/

/-- Once a blob was stored, a download that finds none before the deadline came after one that took
the blob. -/
def TakenFirst (relay : Relay) (code : String) (bytes : Bytes) (expiresAt : ℕ) : Prop :=
  ∀ put take now, PerformedAt relay.log put ⟨.putBlob code bytes expiresAt, true⟩ → put < take →
    PerformedAt relay.log take ⟨.takeBlob code now, none⟩ → relay.shared.wall < expiresAt →
    (∀ position now taken, PerformedAt relay.log position ⟨.takeBlob code now, taken⟩ →
      now < expiresAt) →
    ∃ earlier now found, put < earlier ∧
      PerformedAt relay.log earlier ⟨.takeBlob code now, some found⟩

theorem takenFirst_of_reaches {wall clock : ℕ} {relay : Relay}
    (hreaches : (Relay.automaton primitives trustedIpHeader).Reaches (Relay.start wall clock)
      relay) (code : String) (bytes : Bytes) (expiresAt : ℕ) :
    TakenFirst relay code bytes expiresAt := by
  have hboth : (Relay.automaton primitives trustedIpHeader).Reaches (Relay.start wall clock)
      relay ∧ TakenFirst relay code bytes expiresAt := by
    refine hreaches.invariant (fun relay ↦ (Relay.automaton primitives trustedIpHeader).Reaches
      (Relay.start wall clock) relay ∧ TakenFirst relay code bytes expiresAt) ⟨.refl, ?_⟩ ?_
    · rintro put take now ⟨entry, hnone, -⟩
      cases hnone
    · rintro state event next ⟨hstate, ih⟩ - hstep
      refine ⟨hstate.tail ⟨event, trivial, hstep⟩, ?_⟩
      intro put take now hput hlt htake hwall hfresh
      have hgrows := grows_relay hstep
      have hwallBefore := Nat.lt_of_le_of_lt hgrows.wall hwall
      have hfreshBefore : ∀ position now taken,
          PerformedAt state.log position ⟨.takeBlob code now, taken⟩ → now < expiresAt :=
        fun position now taken htaken ↦ hfresh position now taken (hgrows.performed htaken)
      have hlift : ∀ {take now : ℕ}, PerformedAt state.log put
          ⟨.putBlob code bytes expiresAt, true⟩ → put < take →
          PerformedAt state.log take ⟨.takeBlob code now, none⟩ →
          ∃ earlier now found, put < earlier ∧
            PerformedAt next.log earlier ⟨.takeBlob code now, some found⟩ := by
        intro take now hput hlt htake
        obtain ⟨earlier, other, found, hafter, hfound⟩ :=
          ih put take now hput hlt htake hwallBefore hfreshBefore
        exact ⟨earlier, other, found, hafter, hgrows.performed hfound⟩
      cases event with
      | arrive request =>
        obtain rfl := Option.some.inj hstep
        exact hlift hput hlt htake
      | elapse passage =>
        obtain ⟨after, hafter, rfl⟩ := Option.map_eq_some_iff.mp hstep
        exact hlift hput hlt htake
      | resume thread passage =>
        obtain ⟨request, call, continuation, after, result, -, hperform, rfl⟩ :=
          Threads.resume_eq_some_iff.mp hstep
        obtain ⟨later, hlater, rfl, rfl⟩ := perform_eq_some_iff.mp hperform
        have htakeLe := htake.lt
        rw [List.length_append, List.length_singleton] at htakeLe
        have hputOld : PerformedAt state.log put ⟨.putBlob code bytes expiresAt, true⟩ := by
          rcases performedAt_concat.mp hput with hold | ⟨rfl, -⟩
          · exact hold
          · omega
        rcases performedAt_concat.mp htake with hold | ⟨rfl, hnew⟩
        · exact hlift hputOld hlt hold
        · by_cases huntaken : UntakenSince state.log put code
          · -- The blob is still there, so this download takes it.
            have hblob := (keptInStore_of_reaches hstate).blob hputOld huntaken hwallBefore
            have hnow := hfresh _ _ _ htake
            obtain ⟨rfl, hresult⟩ := Sigma.mk.inj hnew
            have hnone : (state.shared.inner.takeBlob code now).2 = none := eq_of_heq hresult
            rw [(Inner.takeBlob_snd_eq_some_iff _ _ _ _).mpr ⟨expiresAt, hblob, hnow⟩] at hnone
            cases hnone
          · unfold UntakenSince at huntaken
            push Not at huntaken
            obtain ⟨earlier, other, taken, hafter, htaken⟩ := huntaken
            cases taken with
            | none => exact hlift hputOld hafter htaken
            | some found => exact ⟨earlier, other, found, hafter, hgrows.performed htaken⟩
  exact hboth.2

/-- Whatever download is in progress has made its calls after a position of the log. -/
def PollsAfter (position : ℕ) (world : Exchange) : Prop :=
  ∀ session deadline thread, world.recipient = .polling session deadline thread →
    ∀ index entry, world.relay.log[index]? = some entry → entry.thread = thread → position < index

section Polling

variable {sealed : SealedShare} {world : Exchange} {session : RecipientSession}

/-- The blob has the deadline of the session. -/
theorem expiresAt_of_putBlob (hsound : Sound primitives trustedIpHeader parties sealed world)
    (hwithin : Within world) (hsession : world.recipient.session? = some session) {position : ℕ}
    {bytes : Bytes} {expiresAt : ℕ} (hput : PerformedAt world.relay.log position
      ⟨.putBlob (parties.code primitives) bytes expiresAt, true⟩) :
    expiresAt = session.expiresAt := by
  obtain ⟨entry, hentry, hperformed⟩ := hput
  obtain ⟨-, epk, now, htrace⟩ := accepted_of_putBlob hsound.ledger.consistent
    (List.mem_of_getElem? hentry) hperformed
  obtain ⟨hreads, -, -⟩ := hsound.calls.of_trace hsound.ledger hwithin hsession entry.thread
  have hfound := hreads (some ⟨epk, expiresAt⟩) (by
    rw [htrace]
    exact List.mem_cons_self)
  exact (RendezvousRecord.mk.inj (Option.some.inj hfound)).2

/-- Every download under the code reads the clock before the deadline of the session. -/
theorem now_lt_of_takeBlob (hsound : Sound primitives trustedIpHeader parties sealed world)
    (hwithin : Within world) (hsession : world.recipient.session? = some session) {position now : ℕ}
    {taken : Option Bytes} (htake : PerformedAt world.relay.log position
      ⟨.takeBlob (parties.code primitives) now, taken⟩) : now < session.expiresAt := by
  have hconsistent := hsound.ledger.consistent
  obtain ⟨entry, hentry, hperformed⟩ := htake
  have hmem := List.mem_of_getElem? hentry
  obtain ⟨rest, hthread⟩ := (request_of_call hconsistent hmem).2.2 now
    (congrArg Sigma.fst hperformed)
  have hruns : (downloadBlob (parties.code primitives)).Runs
      (Threads.trace world.relay.log entry.thread) rest := hconsistent.runs hthread
  have hreading := now_of_takeBlob hruns
    (Threads.mem_trace_iff.mpr ⟨entry, hmem, rfl, hperformed⟩)
  exact (hsound.calls.of_trace hsound.ledger hwithin hsession entry.thread).2.1 now hreading

/-- A download that began after the blob was stored takes it. -/
theorem taken_of_pollsAfter (hbase32 : Base32Digits primitives)
    (hsound : Sound primitives trustedIpHeader parties sealed world) (hwithin : Within world)
    {deadline thread : ℕ} (hpolling : world.recipient = .polling session deadline thread)
    {position expiresAt : ℕ} (hput : PerformedAt world.relay.log position
      ⟨.putBlob (parties.code primitives) sealed.blob expiresAt, true⟩)
    (hafter : PollsAfter position world) {now : ℕ} {taken : Option Bytes}
    (htrace : Threads.trace world.relay.log thread = [⟨.now, now⟩,
      ⟨.takeBlob (parties.code primitives) now, taken⟩]) : taken ≠ none := by
  rintro rfl
  have hsession : world.recipient.session? = some session := by
    rw [hpolling]
    rfl
  obtain ⟨wall, clock, hreaches⟩ := hsound.ledger.reaches
  have hconsistent := hsound.ledger.consistent
  obtain rfl := expiresAt_of_putBlob hsound hwithin hsession hput
  -- The download of this thread is after the upload, so another one took the blob before it.
  have hmem : (⟨.takeBlob (parties.code primitives) now, none⟩ : Performed) ∈
      Threads.trace world.relay.log thread := by
    rw [htrace]
    exact List.mem_cons_of_mem _ List.mem_cons_self
  obtain ⟨entry, hentry, hthread, hperformed⟩ := Threads.mem_trace_iff.mp hmem
  obtain ⟨take, htake⟩ := List.mem_iff_getElem?.mp hentry
  have hlt := hafter session deadline thread hpolling take entry htake hthread
  obtain ⟨earlier, other, found, -, first, hfirst, hfound⟩ :=
    takenFirst_of_reaches hreaches _ _ _ position take now hput hlt ⟨entry, htake, hperformed⟩
      (hwithin session hsession).wall
      fun _ _ _ htaken ↦ now_lt_of_takeBlob hsound hwithin hsession htaken
  have hfirstMem := List.mem_of_getElem? hfirst
  have hrequest := (request_of_call hconsistent hfirstMem).2.2 other (congrArg Sigma.fst hfound)
  have hfoundMem : (⟨.takeBlob (parties.code primitives) other, some found⟩ : Performed) ∈
      Threads.trace world.relay.log first.thread :=
    Threads.mem_trace_iff.mpr ⟨first, hfirstMem, rfl, hfound⟩
  rcases hsound.ledger.recipient.downloads hrequest with ⟨_, _, hsame⟩ | ⟨_, _, _, hreturned⟩ |
    ⟨message, hanswered⟩
  · rw [hpolling] at hsame
    obtain ⟨-, -, hthreads⟩ := Recipient.polling.inj hsame
    rw [← hthreads, htrace] at hfoundMem
    simp at hfoundMem
  · rw [hpolling] at hreturned
    cases hreturned
  · have hruns : (downloadBlob (parties.code primitives)).Runs
        (Threads.trace world.relay.log first.thread) (.done _) := hconsistent.runs hanswered
    obtain ⟨_, taken, hfirstTrace, hanswer⟩ :=
      answer_of_download (Parties.assertCode_code hbase32) hruns
    cases taken with
    | some bytes => cases hanswer
    | none =>
      rw [hfirstTrace] at hfoundMem
      simp at hfoundMem

/-- A new call comes after everything in the log, and a new download has made none. After a reply no
download is in progress. -/
theorem pollsAfter_of_moves {next : Exchange} {event : ExchangeEvent} {position : ℕ}
    (hledger : Ledger primitives trustedIpHeader parties world)
    (hposition : position < world.relay.log.length)
    (hafter : event ≠ .downloaded → PollsAfter position world)
    (hmoves : Exchange.Moves primitives trustedIpHeader parties world event next) :
    PollsAfter position next := by
  have hconsistent := hledger.consistent
  have hnew : ∀ {session : RecipientSession} {deadline : ℕ}, PollsAfter position
      (Exchange.sendDownload primitives trustedIpHeader world session deadline) := by
    intro session deadline other otherDeadline thread hpolling index entry hentry hthread
    cases hpolling
    have hlt := hconsistent.started entry (List.mem_of_getElem? hentry)
    omega
  cases hmoves with
  | @relay event relay hrelay =>
    cases event with
    | arrive request =>
      obtain rfl := Option.some.inj hrelay
      exact hafter (by simp)
    | elapse passage =>
      obtain ⟨after, -, rfl⟩ := Option.map_eq_some_iff.mp hrelay
      exact hafter (by simp)
    | resume resumed passage =>
      obtain ⟨request, call, continuation, after, result, -, -, rfl⟩ :=
        Threads.resume_eq_some_iff.mp hrelay
      intro session deadline thread hpolling index entry hentry hthread
      rcases Threads.getElem?_concat_iff.mp hentry with hold | ⟨rfl, -⟩
      · exact hafter (by simp) session deadline thread hpolling index entry hold hthread
      · exact hposition
  | tick milliseconds => exact hafter (by simp)
  | prepare hidle =>
    intro session deadline thread hpolling
    cases hpolling
  | @minted thread reply hminting hreply =>
    intro session deadline other hpolling
    change Exchange.afterMint parties reply = _ at hpolling
    unfold Exchange.afterMint at hpolling
    split at hpolling
    · cases hpolling
    · cases hpolling
  | poll hready => exact hnew
  | @downloaded session deadline thread reply hpolling hreply =>
    intro other otherDeadline otherThread hother
    change Exchange.afterDownload primitives session deadline world.now reply = _ at hother
    unfold Exchange.afterDownload at hother
    split at hother
    · cases hother
    · cases hother
  | wake hwaiting => exact hnew
  | type hidle =>
    unfold Exchange.sendTyped
    split
    · exact hafter (by simp)
    · exact hafter (by simp)
  | fetched hfetching hreply =>
    unfold Exchange.sendFetched
    split
    · exact hafter (by simp)
    · exact hafter (by simp)
  | uploaded huploading hreply => exact hafter (by simp)

/-- Whoever has returned stays so. -/
theorem returned_of_moves {next : Exchange} {event : ExchangeEvent} {deadline : ℕ}
    {result : Except Thrown Bytes} (hreturned : world.recipient = .returned session deadline result)
    (hmoves : Exchange.Moves primitives trustedIpHeader parties world event next) :
    event ≠ .downloaded ∧ next.recipient = .returned session deadline result := by
  cases hmoves with
  | relay hrelay => exact ⟨by simp, hreturned⟩
  | tick milliseconds => exact ⟨by simp, hreturned⟩
  | prepare hidle =>
    rw [hreturned] at hidle
    cases hidle
  | minted hminting hreply =>
    rw [hreturned] at hminting
    cases hminting
  | poll hready =>
    rw [hreturned] at hready
    cases hready
  | downloaded hpolling hreply =>
    rw [hreturned] at hpolling
    cases hpolling
  | wake hwaiting =>
    rw [hreturned] at hwaiting
    cases hwaiting
  | type hidle =>
    unfold Exchange.sendTyped
    split
    · exact ⟨by simp, hreturned⟩
    · exact ⟨by simp, hreturned⟩
  | fetched hfetching hreply =>
    unfold Exchange.sendFetched
    split
    · exact ⟨by simp, hreturned⟩
    · exact ⟨by simp, hreturned⟩
  | uploaded huploading hreply => exact ⟨by simp, hreturned⟩

/-- How far the polling is, a number of replies after the blob was stored: from the first reply on
the download in progress began after that, and with the second reply the polling has returned. -/
structure PollsOn (position replies : ℕ) (world : Exchange) : Prop where
  after : 1 ≤ replies → PollsAfter position world
  returned : 2 ≤ replies → ∃ session deadline result,
    world.recipient = .returned session deadline result

theorem PollsOn.step (hbase32 : Base32Digits primitives)
    (hcommutes : AgreementCommutes primitives) (hcorrect : primitives.CorrectAead)
    (hsealed : sealShare primitives (parties.pubkey primitives) parties.plaintext
      (some parties.entropy) = .ok sealed)
    {next : Exchange} {event : ExchangeEvent} {position expiresAt replies : ℕ}
    (hsound : Sound primitives trustedIpHeader parties sealed world) (hwithin : Within world)
    (hput : PerformedAt world.relay.log position
      ⟨.putBlob (parties.code primitives) sealed.blob expiresAt, true⟩)
    (hpolls : PollsOn position replies world)
    (hmoves : Exchange.Moves primitives trustedIpHeader parties world event next) :
    PollsOn position (replies + if event = .downloaded then 1 else 0) next := by
  refine ⟨fun hone ↦ ?_, fun htwo ↦ ?_⟩
  · refine pollsAfter_of_moves hsound.ledger hput.lt (fun hne ↦ ?_) hmoves
    rw [if_neg hne, Nat.add_zero] at hone
    exact hpolls.after hone
  · by_cases hreturned : 2 ≤ replies
    · obtain ⟨session, deadline, result, hrecipient⟩ := hpolls.returned hreturned
      exact ⟨session, deadline, result, (returned_of_moves hrecipient hmoves).2⟩
    · -- The second reply is to a download that began after the blob was stored.
      have hevent : event = .downloaded := by
        by_contra hne
        rw [if_neg hne, Nat.add_zero] at htwo
        exact hreturned htwo
      rw [if_pos hevent] at htwo
      subst hevent
      have hafter := hpolls.after (by omega)
      cases hmoves with
      | @downloaded session deadline thread reply hpolling hreply =>
        obtain ⟨now, taken, htrace, hturn⟩ := pollTurn_downloaded hbase32 hcommutes hcorrect hsealed
          hsound.ledger hwithin (hsound.promises hwithin) hpolling hreply
        have htaken := taken_of_pollsAfter hbase32 hsound hwithin hpolling hput hafter htrace
        refine ⟨session, deadline, .ok parties.plaintext, ?_⟩
        change Exchange.afterDownload primitives session deadline world.now reply = _
        unfold Exchange.afterDownload
        rw [hturn]
        cases taken with
        | none => exact absurd rfl htaken
        | some bytes => rfl

end Polling

/-! ### Runs -/

theorem GoesOn.trans {first second third : Exchange} (hfirst : GoesOn first second)
    (hsecond : GoesOn second third) : GoesOn first third where
  relay := ⟨fun hrequest ↦ hsecond.relay.request (hfirst.relay.request hrequest),
    fun hanswered ↦ hsecond.relay.answered (hfirst.relay.answered hanswered),
    fun hperformed ↦ hsecond.relay.performed (hfirst.relay.performed hperformed),
    Nat.le_trans hfirst.relay.wall hsecond.relay.wall,
    Nat.le_trans hfirst.relay.clock hsecond.relay.clock⟩
  session := fun hsession ↦ hsecond.session (hfirst.session hsession)
  deadline := fun hdeadline ↦ hsecond.deadline (hfirst.deadline hdeadline)
  now := Nat.le_trans hfirst.now hsecond.now

theorem goesOn_of_run {events : List ExchangeEvent} : ∀ {world later : Exchange},
    (Exchange.automaton primitives trustedIpHeader parties).run world events = some later →
      GoesOn world later := by
  induction events with
  | nil =>
    intro world later hrun
    obtain rfl := Option.some.inj hrun
    exact ⟨.refl _, id, id, Nat.le_refl _⟩
  | cons event rest ih =>
    intro world later hrun
    obtain ⟨next, hstep, hrest⟩ := Option.bind_eq_some_iff.mp hrun
    exact (goesOn_of_moves (Exchange.moves_of_step hstep)).trans (ih hrest)

/-- The number of replies to downloads among some events. -/
def replies (events : List ExchangeEvent) : ℕ :=
  events.countP fun event ↦ event = .downloaded

section Assumptions

variable {sealed : SealedShare}

theorem PollsOn.run (hbase32 : Base32Digits primitives)
    (hcommutes : AgreementCommutes primitives) (hcorrect : primitives.CorrectAead)
    (hsealed : sealShare primitives (parties.pubkey primitives) parties.plaintext
      (some parties.entropy) = .ok sealed)
    (hsize : sealed.blob.length ≤ maxBlobBytes) {position expiresAt : ℕ}
    {events : List ExchangeEvent} : ∀ {world later : Exchange} {seen : ℕ},
    Sound primitives trustedIpHeader parties sealed world →
    PerformedAt world.relay.log position
      ⟨.putBlob (parties.code primitives) sealed.blob expiresAt, true⟩ →
    PollsOn position seen world →
    (Exchange.automaton primitives trustedIpHeader parties).run world events = some later →
    (Exchange.automaton primitives trustedIpHeader parties).RunMeets
      (Exchange.Ordinary primitives parties) world events →
    Within later → Sound primitives trustedIpHeader parties sealed later ∧
      PollsOn position (seen + replies events) later := by
  induction events with
  | nil =>
    intro world later seen hsound _ hpolls hrun _ _
    obtain rfl := Option.some.inj hrun
    exact ⟨hsound, hpolls⟩
  | cons event rest ih =>
    intro world later seen hsound hput hpolls hrun hmeets hwithin
    have hgoesOn := goesOn_of_run hrun
    obtain ⟨next, hstep, hrest⟩ := Option.bind_eq_some_iff.mp hrun
    have hmoves := Exchange.moves_of_step hstep
    have hsoundNext := hsound.step hbase32 hcommutes hcorrect hsealed hsize hmeets.1 hmoves
    have hpollsNext := hpolls.step hbase32 hcommutes hcorrect hsealed hsound
      (hwithin.of_goesOn hgoesOn) hput hmoves
    have hputNext := (goesOn_of_moves hmoves).relay.performed hput
    have hcount : replies (event :: rest) =
        (if event = .downloaded then 1 else 0) + replies rest := by
      unfold replies
      rw [List.countP_cons, Nat.add_comm]
      simp
    rw [hcount, ← Nat.add_assoc]
    exact ih hsoundNext hputNext hpollsNext hrest (hmeets.2 next hstep) hwithin

/-- A party with a session waits for the reply to the request of a thread. -/
def Awaits (world : Exchange) (thread : ℕ) : Prop :=
  (∃ session deadline, world.recipient = .polling session deadline thread) ∨
    (∃ typed, world.sender = .fetching typed thread) ∨
    ∃ upload, world.sender = .uploading upload thread

/-- What a party waits for is the answer to a request of its own. -/
theorem Awaits.requestAt {world : Exchange} {thread : ℕ} (hawaits : Awaits world thread)
    (hledger : Ledger primitives trustedIpHeader parties world) :
    ∃ request, RequestAt world.relay thread request := by
  rcases hawaits with ⟨session, deadline, hpolling⟩ | ⟨typed, hfetching⟩ | ⟨upload, huploading⟩
  · exact ⟨_, hledger.recipient.polling hpolling⟩
  · exact ⟨_, (hledger.sender.fetching hfetching).2⟩
  · exact ⟨_, (hledger.sender.uploading huploading).2⟩

/-- A party waits only when the code is shown. -/
theorem Awaits.session {world : Exchange} {thread : ℕ} (hawaits : Awaits world thread)
    (hledger : Ledger primitives trustedIpHeader parties world) :
    ∃ session, world.recipient.session? = some session := by
  rcases hawaits with ⟨session, deadline, hpolling⟩ | ⟨typed, hfetching⟩ | ⟨upload, huploading⟩
  · rw [hpolling]
    exact ⟨session, rfl⟩
  · exact hledger.session_of_sender (by rw [hfetching]; nofun)
  · exact hledger.session_of_sender (by rw [huploading]; nofun)

/-- A request that a party waits for has been answered, or its handler can go on at once. -/
theorem answered_or_resumes {world : Exchange}
    (hsound : Sound primitives trustedIpHeader parties sealed world) (hwithin : Within world)
    {thread : ℕ} (hawaits : Awaits world thread) :
    (∃ reply, Exchange.reply? world.relay thread = some reply) ∨
      ∃ next, (Exchange.automaton primitives trustedIpHeader parties).step world
        (.relay (.resume thread ⟨0, 0⟩)) = some next := by
  obtain ⟨request, rest, hthread⟩ := hawaits.requestAt hsound.ledger
  obtain ⟨session, hsession⟩ := hawaits.session hsound.ledger
  have hbounds := hwithin session hsession
  have hwall := hbounds.wall
  have hclock := hbounds.clock
  have hexpires := (hsound.ledger.recipient.session hsession).2.2.1
  cases rest with
  | done answer => exact .inl ⟨_, Exchange.reply?_eq_some_iff.mpr ⟨request, answer, hthread, rfl⟩⟩
  | call call continuation =>
    right
    have helapse : world.relay.shared.elapse ⟨0, 0⟩ = some world.relay.shared := by
      refine elapse_eq_some_iff.mpr ⟨⟨?_, ?_⟩, rfl⟩
      · change world.relay.shared.wall + 0 ≤ i64Max
        unfold i64Max
        omega
      · change world.relay.shared.clock + 0 ≤ u64Max
        unfold u64Max
        omega
    have hresume := Threads.resume_eq_some_iff.mpr ⟨request, call, continuation, _, _, hthread,
      perform_eq_some_iff.mpr ⟨_, helapse, rfl, rfl⟩, rfl⟩
    exact ⟨_, Option.map_eq_some_iff.mpr ⟨_, hresume, rfl⟩⟩

/-- In every run of one share against the backend, interleaved with any requests of others that name
other codes, as long as the clocks have not reached the deadline of the session: `sendShare` is
resolved when it is settled; when `pollAndDecrypt` is settled, it is resolved to bytes that decode
to the note; it is settled by the second reply it gets after `sendShare` was; and until then the
parties wait for handlers that make at most three calls and can go on. -/
theorem share_end_to_end (hbase32 : Base32Digits primitives)
    (hcommutes : AgreementCommutes primitives) (hcorrect : primitives.CorrectAead)
    (hsealed : sealShare primitives (parties.pubkey primitives) parties.plaintext
      (some parties.entropy) = .ok sealed)
    (hsize : sealed.blob.length ≤ maxBlobBytes) {wall clock now : ℕ} {world : Exchange}
    (hreaches : (Exchange.automaton primitives trustedIpHeader parties).ReachesWhere
      (Exchange.Ordinary primitives parties) (Exchange.start wall clock now) world)
    (hwithin : Within world) :
    (∀ result, world.sender = .settled result → result = .ok ()) ∧
    (∀ session deadline result, world.recipient = .returned session deadline result →
      ∃ bytes, result = .ok bytes ∧ decodeSharedNote bytes = .ok parties.note) ∧
    (∀ result events later, world.sender = .settled result →
      (Exchange.automaton primitives trustedIpHeader parties).run world events = some later →
      (Exchange.automaton primitives trustedIpHeader parties).RunMeets
        (Exchange.Ordinary primitives parties) world events →
      Within later → 2 ≤ replies events → ∃ session deadline bytes,
        later.recipient = .returned session deadline (.ok bytes) ∧
        decodeSharedNote bytes = .ok parties.note) ∧
    ∀ thread, Awaits world thread → (Threads.trace world.relay.log thread).length ≤ 3 ∧
      ((∃ reply, Exchange.reply? world.relay thread = some reply) ∨
        ∃ next, (Exchange.automaton primitives trustedIpHeader parties).step world
          (.relay (.resume thread ⟨0, 0⟩)) = some next) := by
  have hsound : Sound primitives trustedIpHeader parties sealed world := by
    refine hreaches.invariant (Sound primitives trustedIpHeader parties sealed)
      (sound_start wall clock now) ?_
    intro state event next hstate hordinary hstep
    exact hstate.step hbase32 hcommutes hcorrect hsealed hsize hordinary
      (Exchange.moves_of_step hstep)
  have hpromises := hsound.promises hwithin
  refine ⟨?_, ?_, ?_, ?_⟩
  · exact fun result hsettled ↦ (hpromises.settled hsettled).1
  · intro session deadline result hreturned
    exact ⟨_, hpromises.returned hreturned, decodeSharedNote_encodeSharedNote _⟩
  · intro result events later hsettled hrun hmeets hwithinLater htwo
    obtain ⟨-, position, expiresAt, hput⟩ := hpromises.settled hsettled
    have hbegin : PollsOn position 0 world := ⟨fun hone ↦ by omega, fun htwo ↦ by omega⟩
    obtain ⟨hsoundLater, hpolls⟩ := hbegin.run hbase32 hcommutes hcorrect hsealed hsize hsound hput
      hrun hmeets hwithinLater
    obtain ⟨session, deadline, settled, hreturned⟩ := hpolls.returned (by omega)
    have hbytes := (hsoundLater.promises hwithinLater).returned hreturned
    rw [hbytes] at hreturned
    exact ⟨session, deadline, _, hreturned, decodeSharedNote_encodeSharedNote _⟩
  · intro thread hawaits
    refine ⟨?_, answered_or_resumes hsound hwithin hawaits⟩
    obtain ⟨request, rest, hthread⟩ := hawaits.requestAt hsound.ledger
    exact (hsound.ledger.consistent.runs hthread).length_le (atMost_handle request)

end Assumptions

/-! ### One run -/

/-- A note with a pair of surrogates, and after it half of one. -/
def halvedNote : SharedNote :=
  ⟨[0x48, 0x69], [0xd83d, 0xde00, 0xd83d]⟩

/-- The parties of the run. -/
def sampleParties : Parties :=
  ⟨halvedNote, recipientSecret, drawnEntropy, [], none⟩

/-- The encryption of the note under the share key of the two parties. -/
def sealedEntries : List AeadEntry :=
  [⟨recipientShareKey, arrayOf 12 0, aadBytes senderKey recipientKey shareInfo,
    encodeSharedNote halvedNote,
    bytesOf 25 0x58a4ee74c132a3c2001f5fbe407a39e7e489e8b60cead8d5ad ++
      bytesOf 25 0x4fe96e39eeaa0bb109c11a83b07352d00e0f7df134cf870e0a⟩]

/-- The primitives of the run: the tabulated digests and keys, an agreement that is the same from
both sides, and base32 on eight bytes. -/
def commuting : Primitives where
  blake3 := tabulated.blake3
  base32Encode bytes := String.ofList ((List.range 13).map fun position ↦
    RowId.digit (UInt32.ofNat (bigEndian bytes * 2 / 32 ^ (12 - position) % 32)))
  publicKey := tabulated.publicKey
  diffieHellman secret pubkey :=
    if (tabulated.publicKey secret = senderKey ∧ pubkey = recipientKey) ∨
        (tabulated.publicKey secret = recipientKey ∧ pubkey = senderKey) then recipientAgreement
    else relayAgreement
  hkdf := tabulated.hkdf
  aeadEncrypt := tableEncrypt sealedEntries
  aeadDecrypt := tableDecrypt sealedEntries

theorem base32Digits_commuting : Base32Digits commuting := by
  have hdigit : ∀ value : Fin 32, isCodeChar (RowId.digit (UInt32.ofNat value.val)) = true := by
    decide +kernel
  intro bytes _
  change (String.ofList _).toList.length = 13 ∧ (String.ofList _).toList.all isCodeChar = true
  rw [String.toList_ofList]
  refine ⟨by simp, ?_⟩
  rw [List.all_eq_true]
  intro ch hch
  obtain ⟨position, -, rfl⟩ := List.mem_map.mp hch
  exact hdigit ⟨_, Nat.mod_lt _ (by decide)⟩

theorem agreementCommutes_commuting : AgreementCommutes commuting := by
  intro first second
  change ite _ _ _ = ite _ _ _
  refine if_congr ?_ rfl rfl
  change (tabulated.publicKey first = senderKey ∧ tabulated.publicKey second = recipientKey ∨
      tabulated.publicKey first = recipientKey ∧ tabulated.publicKey second = senderKey) ↔
    (tabulated.publicKey second = senderKey ∧ tabulated.publicKey first = recipientKey ∨
      tabulated.publicKey second = recipientKey ∧ tabulated.publicKey first = senderKey)
  rw [or_comm, and_comm, @and_comm (tabulated.publicKey first = senderKey)]

theorem correctAead_commuting : commuting.CorrectAead :=
  correctAead_of_table rfl rfl (by decide +kernel)

/-- The recipient and two others mint, the recipient begins to poll, the sender types the code in
its own way, others fetch and upload, and the second download finds the blob. -/
def sharedNote : List ExchangeEvent :=
  let moves (thread : ℕ) : ExchangeEvent := .relay (.resume thread ⟨0, 0⟩)
  [.prepare, moves 0, moves 0, .relay (.elapse ⟨5, 5⟩), moves 0, .minted,
    .relay (.arrive (.mint [] relayKey)), .poll, .type "jcae zf2h--wp7k",
    moves 1, moves 2, moves 2, moves 3, .downloaded, moves 1, moves 3, .tick 1500, .fetched,
    moves 1, .relay (.arrive (.upload "Z8QM2RJ22VVG" [7])), moves 4, moves 5, .wake,
    moves 4, moves 4, .uploaded, moves 6, moves 6, .downloaded]

/-- What is asked of this run, decidably. -/
def ordinary (world : Exchange) : ExchangeEvent → Bool
  | .relay (.arrive (.mint _ _)) => true
  | .relay (.arrive (.fetch other)) => other ≠ "JCAEZF2HWP7K"
  | .relay (.arrive (.upload other _)) => other ≠ "JCAEZF2HWP7K"
  | .relay (.arrive (.download other)) => other ≠ "JCAEZF2HWP7K"
  | .type typed => typed = "jcae zf2h--wp7k" ∧
      world.recipient.session?.map (·.code) = some "JCAEZF2HWP7K"
  | _ => true

theorem transcribes_typed :
    Transcribes (formatCodeForDisplay "JCAEZF2HWP7K").toList "jcae zf2h--wp7k".toList := by
  have hshown : (formatCodeForDisplay "JCAEZF2HWP7K").toList =
      ['J', 'C', 'A', 'E', '-', 'Z', 'F', '2', 'H', '-', 'W', 'P', '7', 'K'] := by decide +kernel
  have htyped : "jcae zf2h--wp7k".toList =
      ['j', 'c', 'a', 'e', ' ', 'z', 'f', '2', 'h', '-', '-', 'w', 'p', '7', 'k'] := by
    decide +kernel
  rw [hshown, htyped]
  -- The dashes that are shown are left out; a blank and two dashes are added.
  iterate 4 refine .typed (by decide) ?_
  refine .omitted (by decide) (.added (by decide) ?_)
  iterate 4 refine .typed (by decide) ?_
  refine .omitted (by decide) (.added (by decide) (.added (by decide) ?_))
  iterate 4 refine .typed (by decide) ?_
  exact .nil

theorem ordinary_sound {world : Exchange} {event : ExchangeEvent}
    (hordinary : ordinary world event = true) :
    Exchange.Ordinary commuting sampleParties world event := by
  have hcode : sampleParties.code commuting = "JCAEZF2HWP7K" := by decide +kernel
  unfold Exchange.Ordinary
  rw [hcode]
  cases event with
  | relay event =>
    cases event with
    | arrive request =>
      cases request with
      | mint headers key => trivial
      | fetch other =>
        have hother : other ≠ "JCAEZF2HWP7K" := of_decide_eq_true hordinary
        exact hother
      | upload other bytes =>
        have hother : other ≠ "JCAEZF2HWP7K" := of_decide_eq_true hordinary
        exact hother
      | download other =>
        have hother : other ≠ "JCAEZF2HWP7K" := of_decide_eq_true hordinary
        exact hother
    | _ => trivial
  | type typed =>
    obtain ⟨rfl, hshown⟩ := of_decide_eq_true hordinary
    obtain ⟨session, hsession, hsame⟩ := Option.map_eq_some_iff.mp hshown
    refine ⟨session, hsession, ?_⟩
    rw [hsame]
    exact transcribes_typed
  | _ => trivial

/-- The sender succeeds, and the recipient gets the note, half of a pair included. -/
theorem share_end_to_end_halvedNote : ∃ world,
    (Exchange.automaton commuting .absent sampleParties).run
      (Exchange.start 1700000000 1700000000 1700000001000) sharedNote = some world ∧
    world.sender = .settled (.ok ()) ∧
    ∃ session deadline bytes, world.recipient = .returned session deadline (.ok bytes) ∧
      decodeSharedNote bytes = .ok halvedNote := by
  have hseal : ((sealShare commuting (sampleParties.pubkey commuting) sampleParties.plaintext
      (some sampleParties.entropy)).toOption.map fun sealed ↦
        decide (sealed.blob.length ≤ maxBlobBytes)) = some true := by
    decide +kernel
  have hends : ((Exchange.automaton commuting .absent sampleParties).run
      (Exchange.start 1700000000 1700000000 1700000001000) sharedNote).map (fun world ↦
        (match world.sender, world.recipient with
          | .settled _, .returned _ _ _ => true
          | _, _ => false,
        world.recipient.session?.map (·.expiresAt), world.recipient.deadline?,
        world.relay.shared.wall, world.relay.shared.clock, world.now)) =
      some (true, some 1700000300, some 1700000300000, 1700000005, 1700000005, 1700000002500) := by
    decide +kernel
  have hmeets : (Exchange.automaton commuting .absent sampleParties).RunMeets
      (fun world event ↦ ordinary world event = true)
      (Exchange.start 1700000000 1700000000 1700000001000) sharedNote := by
    decide +kernel
  obtain ⟨world, hrun, hworld⟩ := Option.map_eq_some_iff.mp hends
  simp only [Prod.mk.injEq] at hworld
  obtain ⟨hparties, hexpires, hdeadline, hwall, hclock, hnow⟩ := hworld
  obtain ⟨sealed, hsealed, hsize⟩ : ∃ sealed, sealShare commuting
      (sampleParties.pubkey commuting) sampleParties.plaintext (some sampleParties.entropy) =
        .ok sealed ∧ sealed.blob.length ≤ maxBlobBytes := by
    cases hsealed : sealShare commuting (sampleParties.pubkey commuting) sampleParties.plaintext
        (some sampleParties.entropy) with
    | ok sealed =>
      rw [hsealed] at hseal
      exact ⟨sealed, rfl, of_decide_eq_true (Option.some.inj hseal)⟩
    | error cause =>
      rw [hsealed] at hseal
      cases hseal
  have hwithin : Within world := by
    intro session hsession
    rw [hsession] at hexpires
    have hsame : session.expiresAt = 1700000300 := Option.some.inj hexpires
    refine ⟨by omega, by omega, fun deadline hpolling ↦ ?_⟩
    rw [hpolling] at hdeadline
    have hsameDeadline : deadline = 1700000300000 := Option.some.inj hdeadline
    omega
  obtain ⟨hsettled, hreturned, -, -⟩ := share_end_to_end base32Digits_commuting
    agreementCommutes_commuting correctAead_commuting hsealed hsize
    (Automaton.reachesWhere_of_run hrun (hmeets.mono fun _ _ ↦ ordinary_sound)) hwithin
  refine ⟨world, hrun, ?_⟩
  cases hsender : world.sender with
  | settled result =>
    cases hrecipient : world.recipient with
    | returned session deadline result' =>
      obtain rfl := hsettled _ hsender
      obtain ⟨bytes, rfl, hdecode⟩ := hreturned _ _ _ hrecipient
      exact ⟨rfl, session, deadline, bytes, rfl, hdecode⟩
    | _ => simp [hsender, hrecipient] at hparties
  | _ => simp [hsender] at hparties
end OpfsWebauthn.Share
