import OpfsWebauthn.Share.ExchangeLedger

/-!
# What the parties of a share get

Every call of the backend's store that names the recipient's code is made by a handler of one of the
two parties. Before the deadline of the session each of their requests is therefore answered as
intended, and the promises of `sendShare` and `pollAndDecrypt` are settled as the note requires.
-/

set_option autoImplicit false
set_option relaxedAutoImplicit false

namespace OpfsWebauthn.Share

open Foundation Storage Crypto Backend

variable {primitives : Primitives} {trustedIpHeader : TrustedIpHeader} {parties : Parties}

/-! ### The calls under the code -/

/-- The clock of the handlers does not go back. -/
theorem now_le_clock {shared : Shared} {relay : Relay}
    (hreaches : (Relay.automaton primitives trustedIpHeader).Reaches (Threads.start shared) relay)
    {entry : LogEntry} (hentry : entry ∈ relay.log) {now : ℕ}
    (hnow : entry.performed = ⟨.now, now⟩) : now ≤ relay.shared.clock := by
  have hall : ∀ position now, PerformedAt relay.log position ⟨.now, now⟩ →
      now ≤ relay.shared.clock := by
    refine Threads.shared_invariant hreaches (fun shared log ↦ ∀ position now,
      PerformedAt log position ⟨.now, now⟩ → now ≤ shared.clock) ?_ ?_ ?_
    · rintro position now ⟨entry, hnone, -⟩
      cases hnone
    · intro shared log passage next hbound helapse position now hperformed
      obtain ⟨-, rfl⟩ := elapse_eq_some_iff.mp helapse
      exact Nat.le_trans (hbound position now hperformed) (Nat.le_add_right _ _)
    · intro shared log thread call passage next result hbound hperform position now hperformed
      obtain ⟨later, hlater, rfl, rfl⟩ := perform_eq_some_iff.mp hperform
      obtain ⟨-, rfl⟩ := elapse_eq_some_iff.mp hlater
      have hle : shared.clock ≤ shared.clock + passage.clock := Nat.le_add_right _ _
      rcases performedAt_concat.mp hperformed with hold | ⟨-, hnew⟩
      · exact Nat.le_trans (hbound position now hold) hle
      · obtain ⟨rfl, hresult⟩ := Sigma.mk.inj hnew
        have hreading : shared.clock = now := eq_of_heq hresult
        rw [← hreading]
        exact hle
  obtain ⟨position, hposition⟩ := List.mem_iff_getElem?.mp hentry
  exact hall position now ⟨entry, hposition, hnow⟩

/-- A call that reads a record or stores a blob under a code is made for a request that names the
code. -/
theorem request_of_call {relay : Relay} {code : String}
    (hconsistent : Threads.Consistent (handle primitives trustedIpHeader) relay) {entry : LogEntry}
    (hentry : entry ∈ relay.log) : (entry.call = .getRendezvous code →
      ∃ request, RequestAt relay entry.thread request ∧ ¬ Exchange.NamesOther code request) ∧
    (∀ bytes expiresAt, entry.call = .putBlob code bytes expiresAt →
      RequestAt relay entry.thread (.upload code bytes)) ∧
    (∀ now, entry.call = .takeBlob code now →
      RequestAt relay entry.thread (.download code)) := by
  obtain ⟨request, rest, hthread, -, hmay⟩ := mayCall_of_mem hconsistent hentry
  refine ⟨fun hcall ↦ ⟨request, ⟨rest, hthread⟩, ?_⟩, fun bytes expiresAt hcall ↦ ?_,
    fun now hcall ↦ ?_⟩
  · rw [hcall] at hmay
    cases request with
    | mint headers body => exact hmay.elim
    | fetch other => exact not_not.mpr hmay.symm
    | upload other body => exact not_not.mpr hmay.symm
    | download other => exact hmay.elim
  · rw [hcall] at hmay
    cases request with
    | mint headers body => exact hmay.elim
    | fetch other => exact hmay.elim
    | upload other body =>
      obtain ⟨rfl, rfl⟩ := hmay
      exact ⟨rest, hthread⟩
    | download other => exact hmay.elim
  · rw [hcall] at hmay
    cases request with
    | mint headers body => exact hmay.elim
    | fetch other => exact hmay.elim
    | upload other body => exact hmay.elim
    | download other =>
      obtain rfl : code = other := hmay
      exact ⟨rest, hthread⟩

/-- Every read under the code found the record of the recipient, and every blob was stored. -/
structure Calls (primitives : Primitives) (parties : Parties) (world : Exchange) : Prop where
  reads : Within world → ∀ session, world.recipient.session? = some session →
    ∀ entry ∈ world.relay.log, ∀ found,
      entry.performed = ⟨.getRendezvous (parties.code primitives), found⟩ →
        found = some ⟨parties.pubkey primitives, session.expiresAt⟩
  puts : ∀ entry ∈ world.relay.log, ∀ bytes expiresAt ok,
    entry.performed = ⟨.putBlob (parties.code primitives) bytes expiresAt, ok⟩ → ok = true

/-- A call of a handler reads the record of the recipient and finds the slot free. -/
theorem Calls.resume {world : Exchange} {next : Relay} {thread : ℕ} {passage : Passage}
    (hledger : Ledger primitives trustedIpHeader parties world)
    (hledgerNext : Ledger primitives trustedIpHeader parties { world with relay := next })
    (hcalls : Calls primitives parties world)
    (hresume : world.relay.resume machine thread passage = some next) :
    Calls primitives parties { world with relay := next } := by
  obtain ⟨wall, clock, hreaches⟩ := hledger.reaches
  have hconsistentNext : Threads.Consistent (handle primitives trustedIpHeader) next :=
    hledgerNext.consistent
  have hrequests : ∀ {thread : ℕ} {request : Request}, RequestAt next thread request ↔
      RequestAt world.relay thread request := requestAt_resume hresume
  have hgoesOn : GoesOn world { world with relay := next } :=
    ⟨grows_resume hresume, id, id, Nat.le_refl _⟩
  obtain ⟨request, call, continuation, after, result, hthread, hperform, rfl⟩ :=
    Threads.resume_eq_some_iff.mp hresume
  obtain ⟨later, hlater, rfl, rfl⟩ := perform_eq_some_iff.mp hperform
  have hnew := @request_of_call _ _ _ (parties.code primitives) hconsistentNext _
    (List.mem_append_right _ List.mem_cons_self)
  refine ⟨?_, ?_⟩
  · intro hwithin session hsession entry hentry found hperformed
    rcases List.mem_append.mp hentry with hold | hlast
    · exact hcalls.reads (hwithin.of_goesOn hgoesOn) session hsession entry hold found hperformed
    · obtain rfl := List.mem_singleton.mp hlast
      obtain ⟨-, -, -, position, hput⟩ := hledger.recipient.session hsession
      have hkept := (keptInStore_of_reaches hreaches).record hput
        ((hwithin.of_goesOn hgoesOn) session hsession).wall
      obtain ⟨rfl, hresult⟩ := Sigma.mk.inj hperformed
      rw [← eq_of_heq hresult]
      exact hkept
  · intro entry hentry bytes expiresAt ok hperformed
    rcases List.mem_append.mp hentry with hold | hlast
    · exact hcalls.puts entry hold bytes expiresAt ok hperformed
    · obtain rfl := List.mem_singleton.mp hlast
      obtain ⟨rfl, hresult⟩ := Sigma.mk.inj hperformed
      have hupload := hrequests.mp (hnew.2.1 bytes expiresAt rfl)
      have hok : (world.relay.shared.inner.putBlob world.relay.shared.wall
          (parties.code primitives) bytes expiresAt).2 = ok := eq_of_heq hresult
      rcases Inner.putBlob_cases world.relay.shared.inner world.relay.shared.wall
        (parties.code primitives) bytes expiresAt with ⟨-, heq⟩ | ⟨stored, hstored, -⟩
      · rw [heq] at hok
        exact hok.symm
      · -- A blob in the slot would come from this very thread, which is still at its call.
        obtain ⟨hblob, -⟩ := (Inner.get?_blobs_sweep _ _ _ _).mp hstored
        obtain ⟨position, ⟨earlier, hearlier, hput⟩, -⟩ :=
          (blobHistory_of_reaches hreaches).stored hblob
        obtain ⟨haccepted, -⟩ := accepted_of_putBlob (Threads.consistent_of_reaches hreaches)
          (List.mem_of_getElem? hearlier) hput
        have hsame := hledger.sender.single hupload ⟨_, haccepted⟩
        change thread = earlier.thread at hsame
        rw [← hsame] at haccepted
        unfold Accepted at haccepted
        rw [hthread] at haccepted
        cases haccepted

/-- No call is made by the parties themselves, so an event that leaves the log and the session
leaves this as it is. -/
theorem Calls.frame {world next : Exchange} (hcalls : Calls primitives parties world)
    (hgoesOn : GoesOn world next) (hlog : next.relay.log = world.relay.log)
    (hsession : next.recipient.session? = world.recipient.session?) :
    Calls primitives parties next where
  reads := fun hwithin session hsome ↦ by
    rw [hlog]
    exact hcalls.reads (hwithin.of_goesOn hgoesOn) session (hsession ▸ hsome)
  puts := fun entry hentry ↦ hcalls.puts entry (hlog ▸ hentry)

theorem Calls.step {world next : Exchange} {event : ExchangeEvent}
    (hledger : Ledger primitives trustedIpHeader parties world)
    (hledgerNext : Ledger primitives trustedIpHeader parties next)
    (hcalls : Calls primitives parties world)
    (hmoves : Exchange.Moves primitives trustedIpHeader parties world event next) :
    Calls primitives parties next := by
  have hgoesOn := goesOn_of_moves hmoves
  cases hmoves with
  | @relay event relay hrelay =>
    cases event with
    | arrive request =>
      obtain rfl := Option.some.inj hrelay
      exact hcalls.frame hgoesOn rfl rfl
    | resume thread passage => exact hcalls.resume hledger hledgerNext hrelay
    | elapse passage =>
      obtain ⟨after, hafter, rfl⟩ := Option.map_eq_some_iff.mp hrelay
      exact hcalls.frame hgoesOn rfl rfl
  | tick milliseconds => exact hcalls.frame hgoesOn rfl rfl
  | prepare hidle => exact hcalls.frame hgoesOn rfl (by rw [hidle]; rfl)
  | minted hminting hreply =>
    refine ⟨?_, hcalls.puts⟩
    intro hwithin session hsession entry hentry found hperformed
    -- Before the code was shown nobody has named it.
    have hnone : world.recipient.session? = none := by
      rw [hminting]
      rfl
    obtain ⟨request, hrequest, hnames⟩ :=
      (request_of_call hledger.consistent hentry).1 (congrArg Sigma.fst hperformed)
    exact absurd ((hledger.unshown hnone).2 _ request hrequest) hnames
  | poll hready => exact hcalls.frame hgoesOn rfl (by rw [hready]; rfl)
  | downloaded hpolling hreply =>
    refine hcalls.frame hgoesOn rfl ?_
    rw [hpolling]
    exact (afterDownload_eq _ _ _ _).1
  | wake hwaiting => exact hcalls.frame hgoesOn rfl (by rw [hwaiting]; rfl)
  | type hidle =>
    unfold Exchange.sendTyped at hgoesOn ⊢
    split at hgoesOn
    · exact hcalls.frame hgoesOn rfl rfl
    · exact hcalls.frame hgoesOn rfl rfl
  | fetched hfetching hreply =>
    unfold Exchange.sendFetched at hgoesOn ⊢
    split at hgoesOn
    · exact hcalls.frame hgoesOn rfl rfl
    · exact hcalls.frame hgoesOn rfl rfl
  | uploaded huploading hreply => exact hcalls.frame hgoesOn rfl rfl

/-- What the handlers of the code's requests have read and stored. -/
theorem Calls.of_trace {world : Exchange} {session : RecipientSession}
    (hledger : Ledger primitives trustedIpHeader parties world)
    (hcalls : Calls primitives parties world) (hwithin : Within world)
    (hsession : world.recipient.session? = some session) (thread : ℕ) :
    (∀ found, (⟨.getRendezvous (parties.code primitives), found⟩ : Performed) ∈
      Threads.trace world.relay.log thread →
        found = some ⟨parties.pubkey primitives, session.expiresAt⟩) ∧
    (∀ now, (⟨.now, now⟩ : Performed) ∈ Threads.trace world.relay.log thread →
      now < session.expiresAt) ∧
    (∀ bytes expiresAt ok, (⟨.putBlob (parties.code primitives) bytes expiresAt, ok⟩ : Performed) ∈
      Threads.trace world.relay.log thread → ok = true) := by
  obtain ⟨wall, clock, hreaches⟩ := hledger.reaches
  refine ⟨?_, ?_, ?_⟩
  · intro found hmem
    obtain ⟨entry, hentry, -, hperformed⟩ := Threads.mem_trace_iff.mp hmem
    exact hcalls.reads hwithin session hsession entry hentry found hperformed
  · intro now hmem
    obtain ⟨entry, hentry, -, hperformed⟩ := Threads.mem_trace_iff.mp hmem
    exact Nat.lt_of_le_of_lt (now_le_clock hreaches hentry hperformed)
      (hwithin session hsession).clock
  · intro bytes expiresAt ok hmem
    obtain ⟨entry, hentry, -, hperformed⟩ := Threads.mem_trace_iff.mp hmem
    exact hcalls.puts entry hentry bytes expiresAt ok hperformed

/-! ### What the parties get -/

/-- The blob of a sealed share. -/
def SealedShare.blob (sealed : SealedShare) : Bytes :=
  protocolVersion :: (sealed.senderPubkey.val ++ sealed.nonce.val ++ sealed.ciphertext)

/-- The only blob under the code is the sealed note; the sender succeeds, and then the blob was
stored; the recipient gets the bytes of the note. -/
structure Promises (primitives : Primitives) (parties : Parties) (sealed : SealedShare)
    (world : Exchange) : Prop where
  uploads : ∀ {thread : ℕ} {bytes : Bytes},
    RequestAt world.relay thread (.upload (parties.code primitives) bytes) → bytes = sealed.blob
  settled : ∀ {result : Except Thrown Unit}, world.sender = .settled result →
    result = .ok () ∧ ∃ position expiresAt, PerformedAt world.relay.log position
      ⟨.putBlob (parties.code primitives) sealed.blob expiresAt, true⟩
  returned : ∀ {session : RecipientSession} {deadline : ℕ} {result : Except Thrown Bytes},
    world.recipient = .returned session deadline result → result = .ok parties.plaintext

section Promises

variable {sealed : SealedShare} {world : Exchange}

/-- The public key that the sender fetches is the recipient's, so it uploads the sealed note. -/
theorem prepareUpload_fetched {typed : String} {thread : ℕ} {reply : RelayReply}
    (hbase32 : Base32Digits primitives)
    (hsealed : sealShare primitives (parties.pubkey primitives) parties.plaintext
      (some parties.entropy) = .ok sealed)
    (hledger : Ledger primitives trustedIpHeader parties world)
    (hcalls : Calls primitives parties world) (hwithin : Within world)
    (hfetching : world.sender = .fetching typed thread)
    (hreply : Exchange.reply? world.relay thread = some reply) :
    prepareUpload primitives typed parties.plaintext reply (some parties.entropy) =
      .ok ⟨parties.code primitives, sealed.blob, parties.pubkey primitives⟩ := by
  obtain ⟨hnormalized, hrequest⟩ := hledger.sender.fetching hfetching
  obtain ⟨answer, hanswered, rfl⟩ := answered_of_reply? hrequest hreply
  have hruns : (fetchRendezvous (parties.code primitives)).Runs
      (Threads.trace world.relay.log thread) (.done answer) := hledger.consistent.runs hanswered
  obtain ⟨session, hsession⟩ := hledger.session_of_sender (by rw [hfetching]; nofun)
  obtain ⟨hreads, hnows, -⟩ := hcalls.of_trace hledger hwithin hsession thread
  obtain rfl := answer_of_fetch (Parties.assertCode_code hbase32) hruns hreads hnows
  have hlength := utf8Length_of_normalizeCode hnormalized
  refine prepareUpload_eq_ok_iff.mpr ⟨hnormalized, rfl, ?_, sealed, hsealed, rfl⟩
  refine (verifyCode_iff primitives hlength _).mpr ⟨(parties.pubkey primitives).property, ?_⟩
  exact if_neg (not_not.mpr (parties.pubkey primitives).property)

/-- The upload is accepted. -/
theorem uploadBlob_uploaded {upload : Upload} {thread : ℕ} {reply : RelayReply}
    (hbase32 : Base32Digits primitives) (hsize : sealed.blob.length ≤ maxBlobBytes)
    (hledger : Ledger primitives trustedIpHeader parties world)
    (hcalls : Calls primitives parties world) (hwithin : Within world)
    (hpromises : Promises primitives parties sealed world)
    (huploading : world.sender = .uploading upload thread)
    (hreply : Exchange.reply? world.relay thread = some reply) :
    uploadBlob reply = .ok () ∧ ∃ position expiresAt, PerformedAt world.relay.log position
      ⟨.putBlob (parties.code primitives) sealed.blob expiresAt, true⟩ := by
  obtain ⟨-, hrequest⟩ := hledger.sender.uploading huploading
  have hblob := hpromises.uploads hrequest
  rw [hblob] at hrequest
  obtain ⟨answer, hanswered, rfl⟩ := answered_of_reply? hrequest hreply
  have hruns : (Backend.uploadBlob (parties.code primitives) sealed.blob).Runs
      (Threads.trace world.relay.log thread) (.done answer) := hledger.consistent.runs hanswered
  obtain ⟨session, hsession⟩ := hledger.session_of_sender (by rw [huploading]; nofun)
  obtain ⟨hreads, hnows, hputs⟩ := hcalls.of_trace hledger hwithin hsession thread
  obtain ⟨rfl, expiresAt, hput⟩ := answer_of_upload (Parties.assertCode_code hbase32) hsize
    (List.cons_ne_nil _ _) hruns hreads hnows hputs
  obtain ⟨entry, hentry, -, hperformed⟩ := Threads.mem_trace_iff.mp hput
  obtain ⟨position, hposition⟩ := List.mem_iff_getElem?.mp hentry
  exact ⟨rfl, position, expiresAt, entry, hposition, hperformed⟩

/-- A turn of the polling loop goes on, or ends with the bytes of the note. -/
theorem pollTurn_downloaded {session : RecipientSession} {deadline thread : ℕ} {reply : RelayReply}
    (hbase32 : Base32Digits primitives) (hcommutes : AgreementCommutes primitives)
    (hcorrect : primitives.CorrectAead)
    (hsealed : sealShare primitives (parties.pubkey primitives) parties.plaintext
      (some parties.entropy) = .ok sealed)
    (hledger : Ledger primitives trustedIpHeader parties world) (hwithin : Within world)
    (hpromises : Promises primitives parties sealed world)
    (hpolling : world.recipient = .polling session deadline thread)
    (hreply : Exchange.reply? world.relay thread = some reply) : ∃ now taken,
      Threads.trace world.relay.log thread = [⟨.now, now⟩,
        ⟨.takeBlob (parties.code primitives) now, taken⟩] ∧
      pollTurn primitives session.handle deadline world.now reply =
        taken.map fun _ ↦ .ok parties.plaintext := by
  have hsession : world.recipient.session? = some session := by
    rw [hpolling]
    rfl
  have hdeadline : world.recipient.deadline? = some deadline := by
    rw [hpolling]
    rfl
  obtain ⟨-, hhandle, -⟩ := hledger.recipient.session hsession
  obtain ⟨answer, hanswered, rfl⟩ := answered_of_reply? (hledger.recipient.polling hpolling) hreply
  obtain ⟨wall, clock, hreaches⟩ := hledger.reaches
  have hruns : (downloadBlob (parties.code primitives)).Runs
      (Threads.trace world.relay.log thread) (.done answer) := hledger.consistent.runs hanswered
  obtain ⟨now, taken, htrace, hanswer⟩ :=
    answer_of_download (Parties.assertCode_code hbase32) hruns
  refine ⟨now, taken, htrace, ?_⟩
  cases taken with
  | none =>
    subst hanswer
    have hlt := (hwithin session hsession).polling deadline hdeadline
    exact if_neg (Nat.not_le_of_lt hlt)
  | some bytes =>
    -- What a download returns is what was uploaded under the code.
    subst hanswer
    obtain ⟨upload, hpicks⟩ := picksUp_of_downloaded hreaches hanswered
    obtain rfl := hpromises.uploads ⟨_, hpicks.accepted⟩
    have hforHandle : sealShare primitives (session.handle.pubkey primitives) parties.plaintext
        (some parties.entropy) = .ok sealed := by
      rw [hhandle]
      exact hsealed
    have hopened := openSealedBlob_sealed hcommutes hcorrect hforHandle
    change some (openSealedBlob primitives session.handle sealed.blob) = _
    exact congrArg some hopened

end Promises

/-- The promises do not depend on the clock of the recipient or on requests that are no uploads of
the code. -/
theorem Promises.frame {sealed : SealedShare} {world next : Exchange}
    (hpromises : Promises primitives parties sealed world) (hgrows : Grows world.relay next.relay)
    (huploads : ∀ thread bytes,
      RequestAt next.relay thread (.upload (parties.code primitives) bytes) →
        RequestAt world.relay thread (.upload (parties.code primitives) bytes))
    (hsender : ∀ result, next.sender = .settled result → world.sender = .settled result)
    (hrecipient : ∀ session deadline result, next.recipient = .returned session deadline result →
      world.recipient = .returned session deadline result) :
    Promises primitives parties sealed next where
  uploads := fun hupload ↦ hpromises.uploads (huploads _ _ hupload)
  settled := fun hsettled ↦ by
    obtain ⟨hresult, position, expiresAt, hput⟩ := hpromises.settled (hsender _ hsettled)
    exact ⟨hresult, position, expiresAt, hgrows.performed hput⟩
  returned := fun hreturned ↦ hpromises.returned (hrecipient _ _ _ hreturned)

section Runs

variable {sealed : SealedShare}

theorem Promises.step (hbase32 : Base32Digits primitives) (hcommutes : AgreementCommutes primitives)
    (hcorrect : primitives.CorrectAead)
    (hsealed : sealShare primitives (parties.pubkey primitives) parties.plaintext
      (some parties.entropy) = .ok sealed)
    (hsize : sealed.blob.length ≤ maxBlobBytes) {world next : Exchange} {event : ExchangeEvent}
    (hledger : Ledger primitives trustedIpHeader parties world)
    (hcalls : Calls primitives parties world) (hwithin : Within world)
    (hpromises : Promises primitives parties sealed world)
    (hordinary : Exchange.Ordinary primitives parties world event)
    (hmoves : Exchange.Moves primitives trustedIpHeader parties world event next) :
    Promises primitives parties sealed next := by
  have hgrows := (goesOn_of_moves hmoves).relay
  cases hmoves with
  | relay hrelay =>
    refine hpromises.frame hgrows (fun thread bytes hupload ↦ ?_) (fun _ ↦ id) fun _ _ _ ↦ id
    refine requestAt_relay hrelay ?_ hupload (fun hne ↦ hne rfl)
    rintro arrived rfl
    exact hordinary
  | tick milliseconds =>
    exact hpromises.frame hgrows (fun _ _ ↦ id) (fun _ ↦ id) fun _ _ _ ↦ id
  | prepare hidle =>
    refine hpromises.frame hgrows
      (fun thread bytes hupload ↦ requestAt_of_arrive hupload (by simp)) (fun _ ↦ id) ?_
    intro session deadline result hreturned
    cases hreturned
  | @minted thread reply hminting hreply =>
    refine hpromises.frame hgrows (fun _ _ ↦ id) (fun _ ↦ id) ?_
    intro session deadline result hreturned
    change Exchange.afterMint parties reply = _ at hreturned
    unfold Exchange.afterMint at hreturned
    split at hreturned
    · cases hreturned
    · cases hreturned
  | poll hready =>
    refine hpromises.frame hgrows
      (fun thread bytes hupload ↦ requestAt_of_arrive hupload (by simp)) (fun _ ↦ id) ?_
    intro session deadline result hreturned
    cases hreturned
  | @downloaded session deadline thread reply hpolling hreply =>
    obtain ⟨now, taken, -, hturn⟩ := pollTurn_downloaded hbase32 hcommutes hcorrect hsealed hledger
      hwithin hpromises hpolling hreply
    refine ⟨hpromises.uploads, hpromises.settled, ?_⟩
    intro other otherDeadline result hreturned
    change Exchange.afterDownload primitives session deadline world.now reply = _ at hreturned
    unfold Exchange.afterDownload at hreturned
    rw [hturn] at hreturned
    cases taken with
    | none => cases hreturned
    | some bytes =>
      cases hreturned
      rfl
  | wake hwaiting =>
    refine hpromises.frame hgrows
      (fun thread bytes hupload ↦ requestAt_of_arrive hupload (by simp)) (fun _ ↦ id) ?_
    intro session deadline result hreturned
    cases hreturned
  | @type typed hidle =>
    have hcode := normalizeCode_typed hbase32 hledger.recipient hordinary
    unfold Exchange.sendTyped at hgrows ⊢
    rw [hcode] at hgrows ⊢
    refine hpromises.frame hgrows
      (fun thread bytes hupload ↦ requestAt_of_arrive hupload (by simp)) ?_ fun _ _ _ ↦ id
    intro result hsettled
    cases hsettled
  | @fetched typed thread reply hfetching hreply =>
    have hupload := prepareUpload_fetched hbase32 hsealed hledger hcalls hwithin hfetching hreply
    unfold Exchange.sendFetched at hgrows ⊢
    rw [hupload] at hgrows ⊢
    refine ⟨?_, ?_, hpromises.returned⟩
    · intro other bytes hrequest
      rcases requestAt_arrive.mp hrequest with hold | ⟨-, hnew⟩
      · exact hpromises.uploads hold
      · cases hnew
        rfl
    · intro result hsettled
      cases hsettled
  | uploaded huploading hreply =>
    obtain ⟨hresult, hput⟩ := uploadBlob_uploaded hbase32 hsize hledger hcalls hwithin hpromises
      huploading hreply
    refine ⟨hpromises.uploads, ?_, hpromises.returned⟩
    intro result hsettled
    cases hsettled
    exact ⟨hresult, hput⟩

/-- What a run keeps: the two sides, the calls, and within the lifetime the promises. -/
structure Sound (primitives : Primitives) (trustedIpHeader : TrustedIpHeader) (parties : Parties)
    (sealed : SealedShare) (world : Exchange) : Prop where
  ledger : Ledger primitives trustedIpHeader parties world
  calls : Calls primitives parties world
  promises : Within world → Promises primitives parties sealed world

theorem Sound.step (hbase32 : Base32Digits primitives) (hcommutes : AgreementCommutes primitives)
    (hcorrect : primitives.CorrectAead)
    (hsealed : sealShare primitives (parties.pubkey primitives) parties.plaintext
      (some parties.entropy) = .ok sealed)
    (hsize : sealed.blob.length ≤ maxBlobBytes) {world next : Exchange} {event : ExchangeEvent}
    (hsound : Sound primitives trustedIpHeader parties sealed world)
    (hordinary : Exchange.Ordinary primitives parties world event)
    (hmoves : Exchange.Moves primitives trustedIpHeader parties world event next) :
    Sound primitives trustedIpHeader parties sealed next := by
  have hledgerNext := hsound.ledger.step hbase32 hordinary hmoves
  refine ⟨hledgerNext, hsound.calls.step hsound.ledger hledgerNext hmoves, fun hwithinNext ↦ ?_⟩
  have hwithin := hwithinNext.of_goesOn (goesOn_of_moves hmoves)
  exact (hsound.promises hwithin).step hbase32 hcommutes hcorrect hsealed hsize hsound.ledger
    hsound.calls hwithin hordinary hmoves

theorem sound_start (wall clock now : ℕ) :
    Sound primitives trustedIpHeader parties sealed (Exchange.start wall clock now) := by
  have hnothing : ∀ thread request,
      ¬ RequestAt (Exchange.start wall clock now).relay thread request := by
    rintro thread request ⟨rest, hthread⟩
    cases hthread
  refine ⟨⟨⟨wall, clock, .refl⟩, ⟨?_, ?_, ?_, ?_⟩, ⟨?_, ?_, ?_, ?_⟩, ?_⟩, ⟨?_, ?_⟩,
    fun _ ↦ ⟨?_, ?_, ?_⟩⟩
  · intro thread hminting
    cases hminting
  · intro session hsession
    cases hsession
  · intro session deadline thread hpolling
    cases hpolling
  · intro thread hdownload
    exact absurd hdownload (hnothing _ _)
  · intro typed thread hfetching
    cases hfetching
  · exact fun _ thread bytes ↦ hnothing _ _
  · intro thread other bytes otherBytes hupload
    exact absurd hupload (hnothing _ _)
  · intro upload thread huploading
    cases huploading
  · exact fun _ ↦ ⟨rfl, fun thread request hrequest ↦ absurd hrequest (hnothing _ _)⟩
  · intro _ session hsession
    cases hsession
  · intro entry hentry
    cases hentry
  · intro thread bytes hupload
    exact absurd hupload (hnothing _ _)
  · intro result hsettled
    cases hsettled
  · intro session deadline result hreturned
    cases hreturned

end Runs

end OpfsWebauthn.Share
