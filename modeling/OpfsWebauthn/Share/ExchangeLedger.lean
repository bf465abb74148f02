import OpfsWebauthn.Share.Exchange

/-!
# What the parties of a share keep

What the handlers answer to the requests of the two parties, and the ledger of a run: which request
of the backend each party waits for, what the session and the uploads of the parties say, and that
the backend was reached by its own steps. The ledger holds in every state that ordinary steps reach.
-/

set_option autoImplicit false
set_option relaxedAutoImplicit false

namespace OpfsWebauthn.Share

open Foundation Storage Crypto Backend

variable {primitives : Primitives} {trustedIpHeader : TrustedIpHeader}

/-! ### Codes -/

/-- The assumption on the base32 encoder: eight bytes become thirteen digits and capital letters. -/
def Base32Digits (primitives : Primitives) : Prop :=
  ∀ bytes : Bytes, bytes.length = 8 → (primitives.base32Encode bytes).toList.length = 13 ∧
    (primitives.base32Encode bytes).toList.all isCodeChar = true

/-- A commitment is a code of twelve admitted characters. -/
theorem commitmentCode_eq_ofList (hbase32 : Base32Digits primitives) (epk : Bytes) :
    ∃ chars, commitmentCode primitives epk = String.ofList chars ∧ chars.length = codeLen ∧
      chars.all isCodeChar = true := by
  have hdigest : ((primitives.blake3 epk).val.take 8).length = 8 := by
    rw [List.length_take, (primitives.blake3 epk).property]
    rfl
  have hbuffer : (((primitives.blake3 epk).val.take 8).take 7 ++
      (((primitives.blake3 epk).val.take 8).drop 7).map (· &&& 0xf0)).length = 8 := by
    rw [List.length_append, List.length_take, List.length_map, List.length_drop, hdigest]
    rfl
  obtain ⟨hlength, hdigits⟩ := hbase32 _ hbuffer
  refine ⟨_, rfl, ?_, ?_⟩
  · rw [List.length_take, hlength]
    rfl
  · rw [List.all_eq_true] at hdigits ⊢
    exact fun ch hch ↦ hdigits ch (List.mem_of_mem_take hch)

/-- A commitment is its own normal form. -/
theorem normalizeCode_commitmentCode (hbase32 : Base32Digits primitives) (epk : Bytes) :
    normalizeCode (commitmentCode primitives epk) = some (commitmentCode primitives epk) := by
  obtain ⟨chars, hcode, hlength, hchars⟩ := commitmentCode_eq_ofList hbase32 epk
  rw [hcode]
  exact normalizeCode_eq_self hlength hchars

/-- The handlers accept a commitment as a code. -/
theorem assertCode_commitmentCode (hbase32 : Base32Digits primitives) (epk : Bytes) :
    assertCode (commitmentCode primitives epk) = .ok () := by
  have hlength := utf8Length_of_normalizeCode (normalizeCode_commitmentCode hbase32 epk)
  rw [assertCode, hlength]
  rfl

/-! ### What the handlers answer -/

section Answers

variable {code : String} {body : Bytes} {trace : List Performed} {answer : Except AppError Response}
  {record : RendezvousRecord}

/-- A fetch that finds a record which has not expired answers with its key. -/
theorem answer_of_fetch (hcode : assertCode code = .ok ())
    (hruns : (fetchRendezvous code).Runs trace (.done answer))
    (hfound : ∀ found, (⟨.getRendezvous code, found⟩ : Performed) ∈ trace → found = some record)
    (hfresh : ∀ now, (⟨.now, now⟩ : Performed) ∈ trace → now < record.expiresAt) :
    answer = .ok (.octetStream record.epk) := by
  unfold fetchRendezvous at hruns
  rw [hcode] at hruns
  obtain ⟨found, later, rfl, hget⟩ := Program.Runs.of_done hruns
  obtain rfl := hfound found List.mem_cons_self
  obtain ⟨now, last, rfl, hnow⟩ := Program.Runs.of_done hget
  have hlt := hfresh now (List.mem_cons_of_mem _ List.mem_cons_self)
  rw [if_neg (Nat.not_le_of_lt hlt)] at hnow
  cases (Program.runs_done_iff.mp hnow).2
  rfl

/-- An upload of a blob of the right size that finds a record which has not expired, and a free
slot, is accepted. -/
theorem answer_of_upload (hcode : assertCode code = .ok ()) (hsize : body.length ≤ maxBlobBytes)
    (hbody : body ≠ []) (hruns : (Backend.uploadBlob code body).Runs trace (.done answer))
    (hfound : ∀ found, (⟨.getRendezvous code, found⟩ : Performed) ∈ trace → found = some record)
    (hfresh : ∀ now, (⟨.now, now⟩ : Performed) ∈ trace → now < record.expiresAt)
    (hfree : ∀ bytes expiresAt ok,
      (⟨.putBlob code bytes expiresAt, ok⟩ : Performed) ∈ trace → ok = true) :
    answer = .ok .noContent ∧ ∃ expiresAt,
      (⟨.putBlob code body expiresAt, true⟩ : Performed) ∈ trace := by
  unfold Backend.uploadBlob at hruns
  rw [hcode] at hruns
  obtain ⟨found, later, rfl, hget⟩ := Program.Runs.of_done hruns
  obtain rfl := hfound found List.mem_cons_self
  obtain ⟨now, last, rfl, hnow⟩ := Program.Runs.of_done hget
  have hlt := hfresh now (List.mem_cons_of_mem _ List.mem_cons_self)
  have hread : readCappedBody body maxBlobBytes = .ok body := by
    rw [readCappedBody, if_neg (Nat.not_lt_of_le hsize)]
  rw [if_neg (Nat.not_le_of_lt hlt), hread] at hnow
  simp only [if_neg hbody] at hnow
  obtain ⟨ok, rest, rfl, hput⟩ := Program.Runs.of_done hnow
  obtain rfl := hfree _ _ ok
    (List.mem_cons_of_mem _ (List.mem_cons_of_mem _ List.mem_cons_self))
  cases (Program.runs_done_iff.mp hput).2
  exact ⟨rfl, _, List.mem_cons_of_mem _ (List.mem_cons_of_mem _ List.mem_cons_self)⟩

/-- A download answers with the blob that it took, or that there is none. -/
theorem answer_of_download (hcode : assertCode code = .ok ())
    (hruns : (downloadBlob code).Runs trace (.done answer)) : ∃ now taken,
      trace = [⟨.now, now⟩, ⟨.takeBlob code now, taken⟩] ∧
      answer = match taken with
        | some bytes => .ok (.octetStream bytes)
        | none => .error (.notFound "blob unavailable") := by
  unfold downloadBlob at hruns
  rw [hcode] at hruns
  obtain ⟨now, later, rfl, hnow⟩ := Program.Runs.of_done hruns
  obtain ⟨taken, last, rfl, htake⟩ := Program.Runs.of_done hnow
  clear hruns hnow
  cases taken with
  | none =>
    obtain ⟨rfl, hanswer⟩ := Program.runs_done_iff.mp htake
    cases hanswer
    exact ⟨now, none, rfl, rfl⟩
  | some bytes =>
    obtain ⟨rfl, hanswer⟩ := Program.runs_done_iff.mp htake
    cases hanswer
    exact ⟨now, some bytes, rfl, rfl⟩

/-- A download takes the blob under the clock it has read. -/
theorem now_of_takeBlob {other : String} {now : ℕ} {taken : Option Bytes} {rest : Handler}
    (hruns : (downloadBlob code).Runs trace rest)
    (htake : (⟨.takeBlob other now, taken⟩ : Performed) ∈ trace) :
    (⟨.now, now⟩ : Performed) ∈ trace := by
  unfold downloadBlob at hruns
  cases hcode : assertCode code with
  | error cause =>
    rw [hcode] at hruns
    exact absurd htake (hruns.not_mem_done _)
  | ok _ =>
    rw [hcode] at hruns
    obtain ⟨reading, later, rfl, hnow, heq | hlater⟩ := hruns.of_mem htake
    · cases heq
    · obtain ⟨found, last, rfl, hlast, heq | hmore⟩ := hnow.of_mem hlater
      · cases heq
        exact List.mem_cons_self
      · cases found with
        | none => exact absurd hmore (hlast.not_mem_done _)
        | some bytes => exact absurd hmore (hlast.not_mem_done _)

/-- The reply to an error is no success. -/
theorem not_isOk_status (error : AppError) : ¬ isOk error.status := by
  have hlarge : 400 ≤ error.status := by cases error <;> simp [AppError.status]
  rintro ⟨-, hle⟩
  omega

/-- The session of a recipient whose mint was answered: the code is its own commitment, and the
record is in the store's history. -/
theorem session_of_mint {headers : HeaderMap} {secret : ByteArrayN keyLen}
    {session : RecipientSession} (hbase32 : Base32Digits primitives)
    (hruns : (mintRendezvous primitives trustedIpHeader headers (primitives.publicKey secret)).Runs
      trace (.done answer))
    (hsession : prepareReceive (some secret) (replyOf answer) = .ok session) :
    session.code = commitmentCode primitives (primitives.publicKey secret) ∧
      session.handle = ⟨secret⟩ ∧ session.expiresAt < 2 ^ 53 ∧
      ⟨.putRendezvous (commitmentCode primitives (primitives.publicKey secret))
        ⟨primitives.publicKey secret, session.expiresAt⟩, true⟩ ∈ trace := by
  obtain ⟨hsecret, hmint⟩ := session_of_prepareReceive hsession
  cases answer with
  | error error =>
    have hthrown : mint (replyOf (.error error)) =
        .error (.share (shareErrorForStatus error.status .mint)) := if_neg (not_isOk_status error)
    rw [hthrown] at hmint
    cases hmint
  | ok response =>
    obtain ⟨minted, now, -, -, rfl, rfl⟩ := putRendezvous_of_runs hruns
    obtain ⟨chars, hcode, hlength, hchars⟩ :=
      commitmentCode_eq_ofList hbase32 (primitives.publicKey secret)
    have hexpires : (now + rendezvousTtlSeconds) % 2 ^ 64 < 2 ^ 64 :=
      Nat.mod_lt _ (Nat.two_pow_pos 64)
    have hascii : ∀ ch ∈ chars, ch.val ≤ 0x7f := fun ch hch ↦
      val_le_of_isCodeChar (List.all_eq_true.mp hchars ch hch)
    have hdecoded := decodeMintResponse_text hlength hascii hexpires
    rw [← hcode] at hdecoded
    change (decodeMintResponse _).mapError _ = _ at hmint
    change (decodeMintResponse (protocolVersion :: _)).mapError _ = _ at hmint
    rw [hdecoded] at hmint
    by_cases hlarge : 2 ^ 53 ≤ (now + rendezvousTtlSeconds) % 2 ^ 64
    · rw [if_pos hlarge] at hmint
      cases hmint
    · rw [if_neg hlarge] at hmint
      obtain ⟨hcodes, hdeadline⟩ := MintResponseParts.mk.inj (Except.ok.inj hmint)
      refine ⟨hcodes.symm, ?_, ?_, ?_⟩
      · rw [Option.some.inj hsecret]
      · rw [← hdeadline]
        exact Nat.lt_of_not_le hlarge
      · rw [← hdeadline]
        simp

end Answers

/-! ### What the backend keeps -/

/-- The request of a thread. -/
def RequestAt (relay : Relay) (thread : ℕ) (request : Request) : Prop :=
  ∃ rest, relay.threads[thread]? = some ⟨request, rest⟩

/-- A thread has one request. -/
theorem RequestAt.unique {relay : Relay} {thread : ℕ} {request other : Request}
    (hrequest : RequestAt relay thread request) (hother : RequestAt relay thread other) :
    request = other := by
  obtain ⟨rest, hrest⟩ := hrequest
  obtain ⟨otherRest, hotherRest⟩ := hother
  rw [hrest] at hotherRest
  exact (Thread.mk.inj (Option.some.inj hotherRest)).1

/-- The request of a thread that has answered. -/
theorem answered_of_reply? {relay : Relay} {thread : ℕ} {request : Request} {reply : RelayReply}
    (hrequest : RequestAt relay thread request)
    (hreply : Exchange.reply? relay thread = some reply) : ∃ answer,
      relay.threads[thread]? = some ⟨request, .done answer⟩ ∧ reply = replyOf answer := by
  obtain ⟨other, answer, hthread, rfl⟩ := Exchange.reply?_eq_some_iff.mp hreply
  obtain rfl := hrequest.unique ⟨_, hthread⟩
  exact ⟨answer, hthread, rfl⟩

/-- The backend goes on: requests, answers and calls stay, and the clocks do not go back. -/
structure Grows (relay next : Relay) : Prop where
  request : ∀ {thread : ℕ} {request : Request}, RequestAt relay thread request →
    RequestAt next thread request
  answered : ∀ {thread : ℕ} {request : Request} {answer : Except AppError Response},
    relay.threads[thread]? = some ⟨request, .done answer⟩ →
      next.threads[thread]? = some ⟨request, .done answer⟩
  performed : ∀ {position : ℕ} {performed : Performed},
    PerformedAt relay.log position performed → PerformedAt next.log position performed
  wall : relay.shared.wall ≤ next.shared.wall
  clock : relay.shared.clock ≤ next.shared.clock

theorem Grows.refl (relay : Relay) : Grows relay relay :=
  ⟨id, id, id, Nat.le_refl _, Nat.le_refl _⟩

/-- The requests after one more. -/
theorem requestAt_arrive {relay : Relay} {request other : Request} {thread : ℕ} :
    RequestAt (Exchange.arrive primitives trustedIpHeader relay request) thread other ↔
      RequestAt relay thread other ∨ (thread = relay.threads.length ∧ other = request) := by
  unfold RequestAt Exchange.arrive
  simp only [Threads.getElem?_concat_iff]
  constructor
  · rintro ⟨rest, hold | ⟨hthread, hnew⟩⟩
    · exact .inl ⟨rest, hold⟩
    · exact .inr ⟨hthread, (Thread.mk.inj hnew).1⟩
  · rintro (⟨rest, hold⟩ | ⟨hthread, rfl⟩)
    · exact ⟨rest, .inl hold⟩
    · exact ⟨_, .inr ⟨hthread, rfl⟩⟩

/-- A request other than the new one was there before. -/
theorem requestAt_of_arrive {relay : Relay} {request other : Request} {thread : ℕ}
    (hrequest : RequestAt (Exchange.arrive primitives trustedIpHeader relay request) thread other)
    (hne : other ≠ request) : RequestAt relay thread other := by
  rcases requestAt_arrive.mp hrequest with hold | ⟨-, hnew⟩
  · exact hold
  · exact absurd hnew hne

theorem grows_arrive (relay : Relay) (request : Request) :
    Grows relay (Exchange.arrive primitives trustedIpHeader relay request) where
  request := fun hrequest ↦ requestAt_arrive.mpr (.inl hrequest)
  answered := fun hanswered ↦ Threads.getElem?_concat_iff.mpr (.inl hanswered)
  performed := id
  wall := Nat.le_refl _
  clock := Nat.le_refl _

/-- A call of a handler changes no request. -/
theorem requestAt_resume {relay next : Relay} {resumed thread : ℕ} {passage : Passage}
    {request : Request} (hresume : relay.resume machine resumed passage = some next) :
    RequestAt next thread request ↔ RequestAt relay thread request := by
  obtain ⟨other, call, continuation, after, result, hthread, -, rfl⟩ :=
    Threads.resume_eq_some_iff.mp hresume
  have hlt : resumed < relay.threads.length := (List.getElem?_eq_some_iff.mp hthread).1
  unfold RequestAt
  dsimp only
  by_cases hsame : resumed = thread
  · subst hsame
    rw [List.getElem?_set_self hlt, hthread]
    constructor
    · rintro ⟨rest, hrest⟩
      exact ⟨_, by rw [(Thread.mk.inj (Option.some.inj hrest)).1]⟩
    · rintro ⟨rest, hrest⟩
      exact ⟨_, by rw [(Thread.mk.inj (Option.some.inj hrest)).1]⟩
  · rw [List.getElem?_set_ne hsame]

theorem grows_resume {relay next : Relay} {resumed : ℕ} {passage : Passage}
    (hresume : relay.resume machine resumed passage = some next) : Grows relay next := by
  refine ⟨(requestAt_resume hresume).mpr, ?_, ?_, ?_, ?_⟩
  · intro thread request answer hanswered
    obtain ⟨other, call, continuation, after, result, hthread, -, rfl⟩ :=
      Threads.resume_eq_some_iff.mp hresume
    have hne : resumed ≠ thread := by
      rintro rfl
      rw [hthread] at hanswered
      cases hanswered
    change (relay.threads.set resumed _)[thread]? = _
    rw [List.getElem?_set_ne hne]
    exact hanswered
  · intro position performed hperformed
    obtain ⟨other, call, continuation, after, result, -, -, rfl⟩ :=
      Threads.resume_eq_some_iff.mp hresume
    exact performedAt_concat.mpr (.inl hperformed)
  · obtain ⟨other, call, continuation, after, result, -, hperform, rfl⟩ :=
      Threads.resume_eq_some_iff.mp hresume
    exact (wall_le_of_perform hperform).1
  · obtain ⟨other, call, continuation, after, result, -, hperform, rfl⟩ :=
      Threads.resume_eq_some_iff.mp hresume
    obtain ⟨later, hlater, rfl, -⟩ := perform_eq_some_iff.mp hperform
    obtain ⟨-, rfl⟩ := elapse_eq_some_iff.mp hlater
    exact Nat.le_add_right _ _

theorem grows_relay {relay next : Relay} {event : RelayEvent}
    (hrelay : (Relay.automaton primitives trustedIpHeader).step relay event = some next) :
    Grows relay next := by
  cases event with
  | arrive request =>
    obtain rfl := Option.some.inj hrelay
    exact grows_arrive relay request
  | resume thread passage => exact grows_resume hrelay
  | elapse passage =>
    obtain ⟨after, hafter, rfl⟩ := Option.map_eq_some_iff.mp hrelay
    obtain ⟨-, rfl⟩ := elapse_eq_some_iff.mp hafter
    exact ⟨id, id, id, Nat.le_add_right _ _, Nat.le_add_right _ _⟩

/-- A request that names the code after an ordinary event of the backend was there before. -/
theorem requestAt_relay {relay next : Relay} {event : RelayEvent} {code : String} {thread : ℕ}
    {request : Request}
    (hrelay : (Relay.automaton primitives trustedIpHeader).step relay event = some next)
    (hother : ∀ arrived, event = .arrive arrived → Exchange.NamesOther code arrived)
    (hrequest : RequestAt next thread request) (hnames : ¬ Exchange.NamesOther code request) :
    RequestAt relay thread request := by
  cases event with
  | arrive arrived =>
    obtain rfl := Option.some.inj hrelay
    rcases requestAt_arrive.mp hrequest with hold | ⟨-, rfl⟩
    · exact hold
    · exact absurd (hother request rfl) hnames
  | resume resumed passage => exact (requestAt_resume hrelay).mp hrequest
  | elapse passage =>
    obtain ⟨after, hafter, rfl⟩ := Option.map_eq_some_iff.mp hrelay
    exact hrequest

/-! ### What the parties keep -/

variable {parties : Parties}

/-- No clock has reached the deadline, as soon as there is a session. -/
def Within (world : Exchange) : Prop :=
  ∀ session, world.recipient.session? = some session → Exchange.WithinTtl world session

/-- The backend goes on, and the session, the deadline and the clock of the recipient stay or go
on. -/
structure GoesOn (world next : Exchange) : Prop where
  relay : Grows world.relay next.relay
  session : ∀ {session : RecipientSession}, world.recipient.session? = some session →
    next.recipient.session? = some session
  deadline : ∀ {deadline : ℕ}, world.recipient.deadline? = some deadline →
    next.recipient.deadline? = some deadline
  now : world.now ≤ next.now

/-- The session and the deadline outlive the reply to a download. -/
theorem afterDownload_eq (session : RecipientSession) (deadline now : ℕ) (reply : RelayReply) :
    (Exchange.afterDownload primitives session deadline now reply).session? = some session ∧
      (Exchange.afterDownload primitives session deadline now reply).deadline? = some deadline := by
  unfold Exchange.afterDownload
  cases pollTurn primitives session.handle deadline now reply with
  | some result => exact ⟨rfl, rfl⟩
  | none => exact ⟨rfl, rfl⟩

theorem goesOn_of_moves {world next : Exchange} {event : ExchangeEvent}
    (hmoves : Exchange.Moves primitives trustedIpHeader parties world event next) :
    GoesOn world next := by
  cases hmoves with
  | relay hrelay => exact ⟨grows_relay hrelay, id, id, Nat.le_refl _⟩
  | tick milliseconds => exact ⟨.refl _, id, id, Nat.le_add_right _ _⟩
  | prepare hidle =>
    refine ⟨grows_arrive _ _, ?_, ?_, Nat.le_refl _⟩
    · intro session hsession
      rw [hidle] at hsession
      cases hsession
    · intro deadline hdeadline
      rw [hidle] at hdeadline
      cases hdeadline
  | minted hminting hreply =>
    refine ⟨.refl _, ?_, ?_, Nat.le_refl _⟩
    · intro session hsession
      rw [hminting] at hsession
      cases hsession
    · intro deadline hdeadline
      rw [hminting] at hdeadline
      cases hdeadline
  | poll hready =>
    refine ⟨grows_arrive _ _, ?_, ?_, Nat.le_refl _⟩
    · intro session hsession
      rw [hready] at hsession
      exact hsession
    · intro deadline hdeadline
      rw [hready] at hdeadline
      cases hdeadline
  | downloaded hpolling hreply =>
    refine ⟨.refl _, ?_, ?_, Nat.le_refl _⟩
    · intro session hsession
      rw [hpolling] at hsession
      obtain rfl := Option.some.inj hsession
      exact (afterDownload_eq _ _ _ _).1
    · intro deadline hdeadline
      rw [hpolling] at hdeadline
      obtain rfl := Option.some.inj hdeadline
      exact (afterDownload_eq _ _ _ _).2
  | wake hwaiting =>
    refine ⟨grows_arrive _ _, ?_, ?_, Nat.le_refl _⟩
    · intro session hsession
      rw [hwaiting] at hsession
      exact hsession
    · intro deadline hdeadline
      rw [hwaiting] at hdeadline
      exact hdeadline
  | type hidle =>
    unfold Exchange.sendTyped
    split
    · exact ⟨.refl _, id, id, Nat.le_refl _⟩
    · exact ⟨grows_arrive _ _, id, id, Nat.le_refl _⟩
  | fetched hfetching hreply =>
    unfold Exchange.sendFetched
    split
    · exact ⟨.refl _, id, id, Nat.le_refl _⟩
    · exact ⟨grows_arrive _ _, id, id, Nat.le_refl _⟩
  | uploaded huploading hreply => exact ⟨.refl _, id, id, Nat.le_refl _⟩

/-- What is within the lifetime after an event was so before. -/
theorem Within.of_goesOn {world next : Exchange} (hgoesOn : GoesOn world next)
    (hwithin : Within next) : Within world := by
  intro session hsession
  have hnext := hwithin session (hgoesOn.session hsession)
  refine ⟨Nat.lt_of_le_of_lt hgoesOn.relay.wall hnext.wall,
    Nat.lt_of_le_of_lt hgoesOn.relay.clock hnext.clock, ?_⟩
  intro deadline hdeadline
  exact Nat.lt_of_le_of_lt hgoesOn.now (hnext.polling deadline (hgoesOn.deadline hdeadline))

/-- What the backend knows of the recipient: whose threads its requests are, that the code of its
session was minted for its key, and that its earlier downloads found nothing. -/
structure RecipientLedger (primitives : Primitives) (parties : Parties) (relay : Relay)
    (recipient : Recipient) : Prop where
  minting : ∀ {thread : ℕ}, recipient = .minting thread →
    RequestAt relay thread (.mint parties.headers (parties.pubkey primitives))
  session : ∀ {session : RecipientSession}, recipient.session? = some session →
    session.code = parties.code primitives ∧ session.handle = ⟨parties.secret⟩ ∧
      session.expiresAt < 2 ^ 53 ∧ ∃ position, PerformedAt relay.log position
        ⟨.putRendezvous (parties.code primitives)
          ⟨parties.pubkey primitives, session.expiresAt⟩, true⟩
  polling : ∀ {session : RecipientSession} {deadline thread : ℕ},
    recipient = .polling session deadline thread →
      RequestAt relay thread (.download (parties.code primitives))
  downloads : ∀ {thread : ℕ}, RequestAt relay thread (.download (parties.code primitives)) →
    (∃ session deadline, recipient = .polling session deadline thread) ∨
    (∃ session deadline result, recipient = .returned session deadline result) ∨
    ∃ message, relay.threads[thread]? =
      some ⟨.download (parties.code primitives), .done (.error (.notFound message))⟩

/-- The recipient's side is not touched by the requests of others. -/
theorem RecipientLedger.frame {relay next : Relay} {recipient : Recipient}
    (hledger : RecipientLedger primitives parties relay recipient) (hgrows : Grows relay next)
    (hdownloads : ∀ thread, RequestAt next thread (.download (parties.code primitives)) →
      RequestAt relay thread (.download (parties.code primitives))) :
    RecipientLedger primitives parties next recipient where
  minting := fun hminting ↦ hgrows.request (hledger.minting hminting)
  session := fun hsession ↦ by
    obtain ⟨hcode, hhandle, hexpires, position, hput⟩ := hledger.session hsession
    exact ⟨hcode, hhandle, hexpires, position, hgrows.performed hput⟩
  polling := fun hpolling ↦ hgrows.request (hledger.polling hpolling)
  downloads := fun hdownload ↦ by
    rcases hledger.downloads (hdownloads _ hdownload) with
      hpolling | hreturned | ⟨message, hanswered⟩
    · exact .inl hpolling
    · exact .inr (.inl hreturned)
    · exact .inr (.inr ⟨message, hgrows.answered hanswered⟩)

/-- What the backend knows of the sender: whose threads its requests are, and that nobody else
uploads under the code. -/
structure SenderLedger (primitives : Primitives) (parties : Parties) (relay : Relay)
    (sender : Sender) : Prop where
  fetching : ∀ {typed : String} {thread : ℕ}, sender = .fetching typed thread →
    normalizeCode typed = some (parties.code primitives) ∧
      RequestAt relay thread (.fetch (parties.code primitives))
  unsent : sender = .idle ∨ (∃ typed thread, sender = .fetching typed thread) →
    ∀ thread bytes, ¬ RequestAt relay thread (.upload (parties.code primitives) bytes)
  single : ∀ {thread other : ℕ} {bytes otherBytes : Bytes},
    RequestAt relay thread (.upload (parties.code primitives) bytes) →
    RequestAt relay other (.upload (parties.code primitives) otherBytes) → thread = other
  uploading : ∀ {upload : Upload} {thread : ℕ}, sender = .uploading upload thread →
    upload.code = parties.code primitives ∧
      RequestAt relay thread (.upload (parties.code primitives) upload.blob)

/-- The sender's side is not touched by the requests of others. -/
theorem SenderLedger.frame {relay next : Relay} {sender : Sender}
    (hledger : SenderLedger primitives parties relay sender) (hgrows : Grows relay next)
    (huploads : ∀ thread bytes, RequestAt next thread (.upload (parties.code primitives) bytes) →
      RequestAt relay thread (.upload (parties.code primitives) bytes)) :
    SenderLedger primitives parties next sender where
  fetching := fun hfetching ↦ by
    obtain ⟨hcode, hrequest⟩ := hledger.fetching hfetching
    exact ⟨hcode, hgrows.request hrequest⟩
  unsent := fun hunsent thread bytes hupload ↦
    hledger.unsent hunsent thread bytes (huploads _ _ hupload)
  single := fun hfirst hsecond ↦ hledger.single (huploads _ _ hfirst) (huploads _ _ hsecond)
  uploading := fun huploading ↦ by
    obtain ⟨hcode, hrequest⟩ := hledger.uploading huploading
    exact ⟨hcode, hgrows.request hrequest⟩

/-- Both sides, and that the code is not named before it is shown. -/
structure Ledger (primitives : Primitives) (trustedIpHeader : TrustedIpHeader) (parties : Parties)
    (world : Exchange) : Prop where
  reaches : ∃ wall clock, (Relay.automaton primitives trustedIpHeader).Reaches
    (Relay.start wall clock) world.relay
  recipient : RecipientLedger primitives parties world.relay world.recipient
  sender : SenderLedger primitives parties world.relay world.sender
  unshown : world.recipient.session? = none → world.sender = .idle ∧
    ∀ thread request, RequestAt world.relay thread request →
      Exchange.NamesOther (parties.code primitives) request

theorem Ledger.consistent {world : Exchange}
    (hledger : Ledger primitives trustedIpHeader parties world) :
    Threads.Consistent (handle primitives trustedIpHeader) world.relay := by
  obtain ⟨wall, clock, hreaches⟩ := hledger.reaches
  exact Threads.consistent_of_reaches hreaches

/-- The sender does nothing before a code is shown. -/
theorem Ledger.session_of_sender {world : Exchange}
    (hledger : Ledger primitives trustedIpHeader parties world) (hsender : world.sender ≠ .idle) :
    ∃ session, world.recipient.session? = some session := by
  refine Option.ne_none_iff_exists'.mp fun hnone ↦ ?_
  exact hsender (hledger.unshown hnone).1

theorem Parties.assertCode_code (hbase32 : Base32Digits primitives) :
    assertCode (parties.code primitives) = .ok () :=
  assertCode_commitmentCode hbase32 _

theorem reaches_arrive {shared : Shared} {relay : Relay} (request : Request)
    (hreaches : (Relay.automaton primitives trustedIpHeader).Reaches (Threads.start shared) relay) :
    (Relay.automaton primitives trustedIpHeader).Reaches (Threads.start shared)
      (Exchange.arrive primitives trustedIpHeader relay request) :=
  hreaches.tail ⟨.arrive request, trivial, rfl⟩

/-- The backend of a run is a run of the backend. -/
theorem reaches_of_moves {shared : Shared} {world next : Exchange} {event : ExchangeEvent}
    (hreaches : (Relay.automaton primitives trustedIpHeader).Reaches (Threads.start shared)
      world.relay)
    (hmoves : Exchange.Moves primitives trustedIpHeader parties world event next) :
    (Relay.automaton primitives trustedIpHeader).Reaches (Threads.start shared) next.relay := by
  cases hmoves with
  | relay hrelay => exact hreaches.tail ⟨_, trivial, hrelay⟩
  | tick milliseconds => exact hreaches
  | prepare hidle => exact reaches_arrive _ hreaches
  | minted hminting hreply => exact hreaches
  | poll hready => exact reaches_arrive _ hreaches
  | downloaded hpolling hreply => exact hreaches
  | wake hwaiting => exact reaches_arrive _ hreaches
  | type hidle =>
    unfold Exchange.sendTyped
    split
    · exact hreaches
    · exact reaches_arrive _ hreaches
  | fetched hfetching hreply =>
    unfold Exchange.sendFetched
    split
    · exact hreaches
    · exact reaches_arrive _ hreaches
  | uploaded huploading hreply => exact hreaches

/-! ### The recipient's side -/

/-- A download of the recipient is under its code. -/
theorem RecipientLedger.sendDownload {world : Exchange} {session : RecipientSession}
    {newDeadline : ℕ} (hledger : RecipientLedger primitives parties world.relay world.recipient)
    (hidle : world.recipient = .ready session ∨
      ∃ deadline, world.recipient = .waiting session deadline) :
    RecipientLedger primitives parties
      (Exchange.sendDownload primitives trustedIpHeader world session newDeadline).relay
      (Exchange.sendDownload primitives trustedIpHeader world session newDeadline).recipient := by
  have hsession : world.recipient.session? = some session := by
    rcases hidle with hready | ⟨deadline, hwaiting⟩
    · rw [hready]
      rfl
    · rw [hwaiting]
      rfl
  obtain ⟨hcode, hhandle, hexpires, position, hput⟩ := hledger.session hsession
  refine ⟨?_, ?_, ?_, ?_⟩
  · intro thread hminting
    cases hminting
  · intro other hother
    obtain rfl := Option.some.inj hother
    exact ⟨hcode, hhandle, hexpires, position, hput⟩
  · intro other otherDeadline thread hpolling
    cases hpolling
    exact requestAt_arrive.mpr (.inr ⟨rfl, by rw [hcode]⟩)
  · intro thread hdownload
    rcases requestAt_arrive.mp hdownload with hold | ⟨rfl, -⟩
    · -- An earlier download of a recipient that is not polling found nothing.
      rcases hledger.downloads hold with ⟨_, _, hpolling⟩ | ⟨_, _, _, hreturned⟩ |
        ⟨message, hanswered⟩
      · rcases hidle with hready | ⟨deadline, hwaiting⟩
        · rw [hready] at hpolling
          cases hpolling
        · rw [hwaiting] at hpolling
          cases hpolling
      · rcases hidle with hready | ⟨deadline, hwaiting⟩
        · rw [hready] at hreturned
          cases hreturned
        · rw [hwaiting] at hreturned
          cases hreturned
      · exact .inr (.inr ⟨message, (grows_arrive _ _).answered hanswered⟩)
    · exact .inl ⟨_, _, rfl⟩

/-- The reply to a download that did not settle the polling was that nothing is there. -/
theorem notFound_of_pollTurn {handle : RecipientHandle} {deadline now : ℕ}
    {answer : Except AppError Response}
    (hturn : pollTurn primitives handle deadline now (replyOf answer) = none) :
    ∃ message, answer = .error (.notFound message) := by
  cases answer with
  | ok response =>
    have hok : isOk response.status := by
      cases response with
      | octetStream bytes => exact (by decide : isOk 200)
      | noContent => exact (by decide : isOk 204)
    have hdownloaded : tryDownloadBlob (replyOf (.ok response)) =
        .ok (some (responseBody (.ok response))) := if_pos hok
    rw [pollTurn, hdownloaded] at hturn
    cases hturn
  | error error =>
    cases error with
    | notFound message => exact ⟨message, rfl⟩
    | badRequest message => cases hturn
    | conflict message => cases hturn
    | gone message => cases hturn
    | payloadTooLarge message => cases hturn
    | rateLimited => cases hturn

theorem RecipientLedger.downloaded {world : Exchange} {session : RecipientSession}
    {deadline thread : ℕ} {reply : RelayReply}
    (hledger : RecipientLedger primitives parties world.relay world.recipient)
    (hpolling : world.recipient = .polling session deadline thread)
    (hreply : Exchange.reply? world.relay thread = some reply) :
    RecipientLedger primitives parties world.relay
      (Exchange.afterDownload primitives session deadline world.now reply) := by
  have hsession : world.recipient.session? = some session := by
    rw [hpolling]
    rfl
  obtain ⟨answer, hanswered, rfl⟩ := answered_of_reply? (hledger.polling hpolling) hreply
  unfold Exchange.afterDownload
  cases hturn : pollTurn primitives session.handle deadline world.now (replyOf answer) with
  | some result =>
    refine ⟨?_, ?_, ?_, ?_⟩
    · intro other hminting
      cases hminting
    · intro other hother
      obtain rfl := Option.some.inj hother
      exact hledger.session hsession
    · intro other otherDeadline otherThread hother
      cases hother
    · exact fun _ ↦ .inr (.inl ⟨_, _, _, rfl⟩)
  | none =>
    obtain ⟨message, rfl⟩ := notFound_of_pollTurn hturn
    refine ⟨?_, ?_, ?_, ?_⟩
    · intro other hminting
      cases hminting
    · intro other hother
      obtain rfl := Option.some.inj hother
      exact hledger.session hsession
    · intro other otherDeadline otherThread hother
      cases hother
    · intro other hdownload
      rcases hledger.downloads hdownload with ⟨_, _, hother⟩ | ⟨_, _, _, hreturned⟩ | hfound
      · rw [hpolling] at hother
        cases hother
        exact .inr (.inr ⟨message, hanswered⟩)
      · rw [hpolling] at hreturned
        cases hreturned
      · exact .inr (.inr hfound)

theorem RecipientLedger.minted (hbase32 : Base32Digits primitives) {world : Exchange} {thread : ℕ}
    {reply : RelayReply}
    (hconsistent : Threads.Consistent (handle primitives trustedIpHeader) world.relay)
    (hledger : RecipientLedger primitives parties world.relay world.recipient)
    (hminting : world.recipient = .minting thread)
    (hreply : Exchange.reply? world.relay thread = some reply) :
    RecipientLedger primitives parties world.relay (Exchange.afterMint parties reply) := by
  obtain ⟨answer, hanswered, rfl⟩ := answered_of_reply? (hledger.minting hminting) hreply
  have hdownloads : ∀ {recipient : Recipient} {thread : ℕ},
      RequestAt world.relay thread (.download (parties.code primitives)) →
      (∃ session deadline, recipient = .polling session deadline thread) ∨
      (∃ session deadline result, recipient = .returned session deadline result) ∨
      ∃ message, world.relay.threads[thread]? =
        some ⟨.download (parties.code primitives), .done (.error (.notFound message))⟩ := by
    intro recipient other hdownload
    rcases hledger.downloads hdownload with ⟨_, _, hpolling⟩ | ⟨_, _, _, hreturned⟩ | hfound
    · rw [hminting] at hpolling
      cases hpolling
    · rw [hminting] at hreturned
      cases hreturned
    · exact .inr (.inr hfound)
  unfold Exchange.afterMint
  cases hsession : prepareReceive (some parties.secret) (replyOf answer) with
  | error cause =>
    refine ⟨?_, ?_, ?_, hdownloads⟩
    · intro other hother
      cases hother
    · intro session hother
      cases hother
    · intro session deadline other hother
      cases hother
  | ok session =>
    obtain ⟨hcode, hhandle, hexpires, hput⟩ :=
      session_of_mint hbase32 (hconsistent.runs hanswered) hsession
    obtain ⟨entry, hentry, -, hperformed⟩ := Threads.mem_trace_iff.mp hput
    obtain ⟨position, hposition⟩ := List.mem_iff_getElem?.mp hentry
    refine ⟨?_, ?_, ?_, hdownloads⟩
    · intro other hother
      cases hother
    · intro other hother
      obtain rfl := Option.some.inj hother
      exact ⟨hcode, hhandle, hexpires, position, entry, hposition, hperformed⟩
    · intro other deadline thread hother
      cases hother

/-! ### The sender's side -/

theorem SenderLedger.settled {relay : Relay} {sender : Sender} (result : Except Thrown Unit)
    (hledger : SenderLedger primitives parties relay sender) :
    SenderLedger primitives parties relay (.settled result) where
  fetching := fun hfetching ↦ by cases hfetching
  unsent := fun hunsent ↦ by
    rcases hunsent with hidle | ⟨_, _, hfetching⟩
    · cases hidle
    · cases hfetching
  single := hledger.single
  uploading := fun huploading ↦ by cases huploading

/-- What is typed for the code that is shown is normalized to the recipient's commitment. -/
theorem normalizeCode_typed (hbase32 : Base32Digits primitives) {world : Exchange} {typed : String}
    (hledger : RecipientLedger primitives parties world.relay world.recipient)
    (hordinary : Exchange.Ordinary primitives parties world (.type typed)) :
    normalizeCode typed = some (parties.code primitives) := by
  obtain ⟨session, hsession, htranscribes⟩ := hordinary
  rw [normalizeCode_of_transcribes htranscribes, normalizeCode_formatCodeForDisplay,
    (hledger.session hsession).1]
  exact normalizeCode_commitmentCode hbase32 _

/-- The sender's fetch is under the recipient's code. -/
theorem SenderLedger.typed {world : Exchange} {typed : String}
    (hledger : SenderLedger primitives parties world.relay world.sender)
    (hidle : world.sender = .idle)
    (hcode : normalizeCode typed = some (parties.code primitives)) :
    SenderLedger primitives parties
      (Exchange.sendTyped primitives trustedIpHeader world typed).relay
      (Exchange.sendTyped primitives trustedIpHeader world typed).sender := by
  have huploads : ∀ {thread : ℕ} {bytes : Bytes},
      RequestAt (Exchange.arrive primitives trustedIpHeader world.relay
        (.fetch (parties.code primitives))) thread (.upload (parties.code primitives) bytes) →
      RequestAt world.relay thread (.upload (parties.code primitives) bytes) := by
    intro thread bytes hupload
    exact requestAt_of_arrive hupload (by simp)
  unfold Exchange.sendTyped
  rw [hcode]
  refine ⟨?_, ?_, ?_, ?_⟩
  · intro other thread hfetching
    cases hfetching
    exact ⟨hcode, requestAt_arrive.mpr (.inr ⟨rfl, rfl⟩)⟩
  · intro _ thread bytes hupload
    exact hledger.unsent (.inl hidle) thread bytes (huploads hupload)
  · intro thread other bytes otherBytes hfirst hsecond
    exact hledger.single (huploads hfirst) (huploads hsecond)
  · intro upload thread huploading
    cases huploading

/-- The sender's upload is the only one under the code. -/
theorem SenderLedger.fetched {world : Exchange} {typed : String} {thread : ℕ} {reply : RelayReply}
    (hledger : SenderLedger primitives parties world.relay world.sender)
    (hfetching : world.sender = .fetching typed thread) :
    SenderLedger primitives parties
      (Exchange.sendFetched primitives trustedIpHeader parties world typed reply).relay
      (Exchange.sendFetched primitives trustedIpHeader parties world typed reply).sender := by
  unfold Exchange.sendFetched
  cases hupload : prepareUpload primitives typed parties.plaintext reply (some parties.entropy) with
  | error cause => exact hledger.settled _
  | ok upload =>
    have hcode : upload.code = parties.code primitives := by
      have hnormalized := (prepareUpload_eq_ok_iff.mp hupload).1
      rw [(hledger.fetching hfetching).1] at hnormalized
      exact (Option.some.inj hnormalized).symm
    have hnew : ∀ {thread : ℕ} {bytes : Bytes},
        RequestAt (Exchange.arrive primitives trustedIpHeader world.relay
          (.upload upload.code upload.blob)) thread (.upload (parties.code primitives) bytes) →
        thread = world.relay.threads.length := by
      intro thread bytes hrequest
      rcases requestAt_arrive.mp hrequest with hold | ⟨hthread, -⟩
      · exact absurd hold (hledger.unsent (.inr ⟨typed, _, hfetching⟩) thread bytes)
      · exact hthread
    refine ⟨?_, ?_, ?_, ?_⟩
    · intro other thread hother
      cases hother
    · intro hunsent
      rcases hunsent with hidle | ⟨_, _, hother⟩
      · cases hidle
      · cases hother
    · intro first second bytes otherBytes hfirst hsecond
      rw [hnew hfirst, hnew hsecond]
    · intro other otherThread hother
      cases hother
      refine ⟨hcode, requestAt_arrive.mpr (.inr ⟨rfl, ?_⟩)⟩
      rw [hcode]

/-! ### Both sides over a run -/

theorem Ledger.step (hbase32 : Base32Digits primitives) {world next : Exchange}
    {event : ExchangeEvent} (hledger : Ledger primitives trustedIpHeader parties world)
    (hordinary : Exchange.Ordinary primitives parties world event)
    (hmoves : Exchange.Moves primitives trustedIpHeader parties world event next) :
    Ledger primitives trustedIpHeader parties next := by
  obtain ⟨wall, clock, hreaches⟩ := hledger.reaches
  have hnext := reaches_of_moves hreaches hmoves
  have hgrows := (goesOn_of_moves hmoves).relay
  have hrecipient := hledger.recipient
  have hsender := hledger.sender
  refine ⟨⟨wall, clock, hnext⟩, ?_, ?_, ?_⟩
  · cases hmoves with
    | relay hrelay =>
      refine hrecipient.frame hgrows fun thread hdownload ↦ ?_
      refine requestAt_relay hrelay ?_ hdownload (fun hne ↦ hne rfl)
      rintro arrived rfl
      exact hordinary
    | tick milliseconds => exact hrecipient
    | prepare hidle =>
      refine ⟨?_, ?_, ?_, ?_⟩
      · intro thread hminting
        cases hminting
        exact requestAt_arrive.mpr (.inr ⟨rfl, rfl⟩)
      · intro session hsession
        cases hsession
      · intro session deadline thread hpolling
        cases hpolling
      · intro thread hdownload
        -- Nobody has named the code yet.
        have hnone : world.recipient.session? = none := by
          rw [hidle]
          rfl
        have hold := requestAt_of_arrive hdownload (by simp)
        exact absurd rfl ((hledger.unshown hnone).2 thread _ hold)
    | minted hminting hreply =>
      have hafter := hrecipient.minted hbase32 (Threads.consistent_of_reaches hreaches) hminting
        hreply
      exact hafter
    | poll hready => exact hrecipient.sendDownload (.inl hready)
    | downloaded hpolling hreply =>
      have hafter := hrecipient.downloaded hpolling hreply
      exact hafter
    | wake hwaiting => exact hrecipient.sendDownload (.inr ⟨_, hwaiting⟩)
    | @type typed hidle =>
      have hcode := normalizeCode_typed hbase32 hrecipient hordinary
      unfold Exchange.sendTyped at hgrows ⊢
      rw [hcode] at hgrows ⊢
      exact hrecipient.frame hgrows fun thread hdownload ↦ requestAt_of_arrive hdownload (by simp)
    | @fetched typed thread reply hfetching hreply =>
      unfold Exchange.sendFetched at hgrows ⊢
      cases hupload : prepareUpload primitives typed parties.plaintext reply
          (some parties.entropy) with
      | error cause => exact hrecipient
      | ok upload =>
        rw [hupload] at hgrows
        exact hrecipient.frame hgrows fun thread hdownload ↦ requestAt_of_arrive hdownload (by simp)
    | uploaded huploading hreply => exact hrecipient
  · cases hmoves with
    | relay hrelay =>
      refine hsender.frame hgrows fun thread bytes hupload ↦ ?_
      refine requestAt_relay hrelay ?_ hupload (fun hne ↦ hne rfl)
      rintro arrived rfl
      exact hordinary
    | tick milliseconds => exact hsender
    | prepare hidle =>
      exact hsender.frame hgrows fun thread bytes hupload ↦ requestAt_of_arrive hupload (by simp)
    | minted hminting hreply => exact hsender
    | poll hready =>
      exact hsender.frame hgrows fun thread bytes hupload ↦ requestAt_of_arrive hupload (by simp)
    | downloaded hpolling hreply => exact hsender
    | wake hwaiting =>
      exact hsender.frame hgrows fun thread bytes hupload ↦ requestAt_of_arrive hupload (by simp)
    | type hidle => exact hsender.typed hidle (normalizeCode_typed hbase32 hrecipient hordinary)
    | fetched hfetching hreply => exact hsender.fetched hfetching
    | uploaded huploading hreply => exact hsender.settled _
  · intro hnone
    have hbefore : world.recipient.session? = none := by
      cases hsession : world.recipient.session? with
      | none => rfl
      | some session =>
        rw [(goesOn_of_moves hmoves).session hsession] at hnone
        cases hnone
    obtain ⟨hidle, hnames⟩ := hledger.unshown hbefore
    cases hmoves with
    | relay hrelay =>
      refine ⟨hidle, fun thread request hrequest ↦ ?_⟩
      by_contra hnamed
      refine hnamed (hnames thread request (requestAt_relay hrelay ?_ hrequest hnamed))
      rintro arrived rfl
      exact hordinary
    | tick milliseconds => exact ⟨hidle, hnames⟩
    | prepare _ =>
      refine ⟨hidle, fun thread request hrequest ↦ ?_⟩
      rcases requestAt_arrive.mp hrequest with hold | ⟨-, rfl⟩
      · exact hnames thread request hold
      · trivial
    | minted _ _ => exact ⟨hidle, hnames⟩
    | poll hready => cases hnone
    | downloaded hpolling _ =>
      rw [hpolling] at hbefore
      cases hbefore
    | wake hwaiting => cases hnone
    | type _ =>
      obtain ⟨session, hsession, -⟩ := hordinary
      rw [hsession] at hbefore
      cases hbefore
    | fetched hfetching _ =>
      rw [hidle] at hfetching
      cases hfetching
    | uploaded huploading _ =>
      rw [hidle] at huploading
      cases huploading

end OpfsWebauthn.Share
