import OpfsWebauthn.Backend.OneShot
import OpfsWebauthn.Share.Receive

/-!
# A recipient, a sender and the backend

One share over the real backend: a recipient that runs `prepareReceive` and `pollAndDecrypt`, a
sender that runs `sendShare`, and the backend with any number of other requests in progress. Every
request of the two parties becomes a thread of the backend, and its answer comes back as the reply.
The events of the two parties, the calls of all handlers and the passing of time interleave in any
order.

`Ordinary` is what is asked of a run: the requests of others that name a code name another one, and
the sender types what the recipient was shown. `WithinTtl` says that no clock has reached the
deadline of the session.
-/

set_option autoImplicit false
set_option relaxedAutoImplicit false

namespace OpfsWebauthn.Share

open Foundation Storage Crypto Backend

/-! ### Replies -/

/-- The text of an `AppError`. -/
def errorText : AppError → String
  | .badRequest message => message
  | .notFound message => message
  | .conflict message => message
  | .gone message => message
  | .payloadTooLarge message => message
  | .rateLimited => "rate limited"

/-- The body of a response. -/
def responseBody : Except AppError Response → Bytes
  | .ok (.octetStream bytes) => bytes
  | .ok .noContent => []
  | .error error => utf8 (String.ofList
      (stringifyStrings [(jsString "error", jsString (errorText error))]))

/-- The response that a client gets to the answer of a handler. -/
def replyOf (answer : Except AppError Response) : RelayReply :=
  match answer with
  | .ok response => .response response.status (.ok (responseBody answer))
  | .error error => .response error.status (.ok (responseBody answer))

/-! ### The parties -/

/-- What the two parties bring: the note, the secret and the entropy that are drawn, the headers of
the mint request, and the option of `pollAndDecrypt`. -/
structure Parties where
  note : SharedNote
  secret : ByteArrayN keyLen
  entropy : SealEntropy
  headers : HeaderMap
  timeoutMs : Option ℕ

/-- How far the recipient is. -/
inductive Recipient
  | idle
  /-- `prepareReceive` waits for the mint reply. -/
  | minting (thread : ℕ)
  /-- `prepareReceive` was rejected. -/
  | refused (cause : Thrown)
  /-- `prepareReceive` was resolved; the code is shown. -/
  | ready (session : RecipientSession)
  /-- `pollAndDecrypt` waits for the reply to a download. -/
  | polling (session : RecipientSession) (deadline thread : ℕ)
  /-- `pollAndDecrypt` sleeps. -/
  | waiting (session : RecipientSession) (deadline : ℕ)
  /-- `pollAndDecrypt` was settled. -/
  | returned (session : RecipientSession) (deadline : ℕ) (result : Except Thrown Bytes)

namespace Recipient

/-- The session, once there is one. -/
def session? : Recipient → Option RecipientSession
  | .ready session => some session
  | .polling session _ _ => some session
  | .waiting session _ => some session
  | .returned session _ _ => some session
  | _ => none

/-- The deadline of the polling, once it has begun. -/
def deadline? : Recipient → Option ℕ
  | .polling _ deadline _ => some deadline
  | .waiting _ deadline => some deadline
  | .returned _ deadline _ => some deadline
  | _ => none

end Recipient

/-- How far the sender is. -/
inductive Sender
  | idle
  /-- `sendShare` waits for the public key. -/
  | fetching (typed : String) (thread : ℕ)
  /-- `sendShare` waits for the reply to its upload. -/
  | uploading (upload : Upload) (thread : ℕ)
  /-- `sendShare` was settled. -/
  | settled (result : Except Thrown Unit)

/-- The state of a run: the backend, the two parties, and the clock of the recipient in
milliseconds. -/
structure Exchange where
  relay : Relay
  recipient : Recipient
  sender : Sender
  now : ℕ

/-- The events of a run. -/
inductive ExchangeEvent
  /-- A request of others arrives, a handler makes its next call, or time passes at the backend. -/
  | relay (event : RelayEvent)
  /-- Time passes at the recipient. -/
  | tick (milliseconds : ℕ)
  /-- The recipient calls `prepareReceive`. -/
  | prepare
  /-- The reply to the mint request reaches the recipient. -/
  | minted
  /-- The recipient calls `pollAndDecrypt`. -/
  | poll
  /-- The reply to a download reaches the recipient. -/
  | downloaded
  /-- The sleep between two downloads is over. -/
  | wake
  /-- The sender types a code and calls `sendShare`. -/
  | type (typed : String)
  /-- The reply to the fetch request reaches the sender. -/
  | fetched
  /-- The reply to the upload reaches the sender. -/
  | uploaded
deriving DecidableEq, Repr

variable (primitives : Primitives) (trustedIpHeader : TrustedIpHeader) (parties : Parties)

/-- The public key of the recipient. -/
def Parties.pubkey : ByteArrayN keyLen :=
  primitives.publicKey parties.secret

/-- The code that the recipient's key commits to. -/
def Parties.code : String :=
  commitmentCode primitives (parties.pubkey primitives)

/-- The bytes that the sender seals. -/
def Parties.plaintext : Bytes :=
  encodeSharedNote parties.note

namespace Exchange

/-- An empty backend, and readings of the three clocks. -/
def start (wall clock now : ℕ) : Exchange :=
  ⟨Relay.start wall clock, .idle, .idle, now⟩

/-- The backend after one more request. -/
def arrive (relay : Relay) (request : Request) : Relay :=
  { relay with threads := relay.threads ++ [⟨request, handle primitives trustedIpHeader request⟩] }

/-- The reply to the request of a thread, once its handler has answered. -/
def reply? (relay : Relay) (thread : ℕ) : Option RelayReply :=
  (relay.answer? thread).map fun (_, answer) ↦ replyOf answer

/-- The recipient goes on with the mint reply. -/
def afterMint (reply : RelayReply) : Recipient :=
  match prepareReceive (some parties.secret) reply with
  | .ok session => .ready session
  | .error cause => .refused cause

/-- The recipient goes on with the reply to a download. -/
def afterDownload (session : RecipientSession) (deadline now : ℕ) (reply : RelayReply) :
    Recipient :=
  match pollTurn primitives session.handle deadline now reply with
  | some result => .returned session deadline result
  | none => .waiting session deadline

/-- The sender begins with a typed code. -/
def sendTyped (world : Exchange) (typed : String) : Exchange :=
  match normalizeCode typed with
  | none => { world with sender := .settled (.error (.share (.of .protocol
      ("code must be " ++ toString codeLen ++ " Crockford-base32 characters")))) }
  | some normalized =>
    { world with
      relay := arrive primitives trustedIpHeader world.relay (.fetch normalized)
      sender := .fetching typed world.relay.threads.length }

/-- The sender goes on with the reply to its fetch. -/
def sendFetched (world : Exchange) (typed : String) (reply : RelayReply) : Exchange :=
  match prepareUpload primitives typed parties.plaintext reply (some parties.entropy) with
  | .error cause => { world with sender := .settled (.error cause) }
  | .ok upload =>
    { world with
      relay := arrive primitives trustedIpHeader world.relay (.upload upload.code upload.blob)
      sender := .uploading upload world.relay.threads.length }

/-- The recipient sends a download. -/
def sendDownload (world : Exchange) (session : RecipientSession) (deadline : ℕ) : Exchange :=
  { world with
    relay := arrive primitives trustedIpHeader world.relay (.download session.code)
    recipient := .polling session deadline world.relay.threads.length }

/-- One event. -/
def step (world : Exchange) : ExchangeEvent → Option Exchange
  | .relay event =>
    ((Relay.automaton primitives trustedIpHeader).step world.relay event).map fun relay ↦
      { world with relay := relay }
  | .tick milliseconds => some { world with now := world.now + milliseconds }
  | .prepare =>
    match world.recipient with
    | .idle => some { world with
        relay := arrive primitives trustedIpHeader world.relay
          (.mint parties.headers (parties.pubkey primitives))
        recipient := .minting world.relay.threads.length }
    | _ => none
  | .minted =>
    match world.recipient with
    | .minting thread => (reply? world.relay thread).map fun reply ↦
        { world with recipient := afterMint parties reply }
    | _ => none
  | .poll =>
    match world.recipient with
    | .ready session => some (sendDownload primitives trustedIpHeader world session
        (pollDeadline session world.now parties.timeoutMs))
    | _ => none
  | .downloaded =>
    match world.recipient with
    | .polling session deadline thread => (reply? world.relay thread).map fun reply ↦
        { world with recipient := afterDownload primitives session deadline world.now reply }
    | _ => none
  | .wake =>
    match world.recipient with
    | .waiting session deadline =>
      some (sendDownload primitives trustedIpHeader world session deadline)
    | _ => none
  | .type typed =>
    match world.sender with
    | .idle => some (sendTyped primitives trustedIpHeader world typed)
    | _ => none
  | .fetched =>
    match world.sender with
    | .fetching typed thread => (reply? world.relay thread).map fun reply ↦
        sendFetched primitives trustedIpHeader parties world typed reply
    | _ => none
  | .uploaded =>
    match world.sender with
    | .uploading _ thread => (reply? world.relay thread).map fun reply ↦
        { world with sender := .settled (uploadBlob reply) }
    | _ => none

/-- The system. -/
def automaton : Automaton Exchange ExchangeEvent :=
  ⟨step primitives trustedIpHeader parties⟩

/-! ### What is asked of a run -/

/-- A request of others names another code, if it names one. A mint names none: its code is made
from its key. -/
def NamesOther (code : String) : Request → Prop
  | .mint _ _ => True
  | .fetch other => other ≠ code
  | .upload other _ => other ≠ code
  | .download other => other ≠ code

/-- Others use other codes, and the sender types the code that is shown. -/
def Ordinary (world : Exchange) : ExchangeEvent → Prop
  | .relay (.arrive request) => NamesOther (parties.code primitives) request
  | .type typed => ∃ session, world.recipient.session? = some session ∧
      Transcribes (formatCodeForDisplay session.code).toList typed.toList
  | _ => True

/-- No clock has reached the deadline of the session: neither those of the backend, nor that of the
recipient, whose polling may have a nearer deadline. -/
structure WithinTtl (world : Exchange) (session : RecipientSession) : Prop where
  wall : world.relay.shared.wall < session.expiresAt
  clock : world.relay.shared.clock < session.expiresAt
  polling : ∀ deadline, world.recipient.deadline? = some deadline → world.now < deadline

/-! ### What an event can do -/

variable {primitives} {trustedIpHeader} {parties}

/-- The events with what they ask of the state and what they make of it. -/
inductive Moves (primitives : Primitives) (trustedIpHeader : TrustedIpHeader) (parties : Parties)
    (world : Exchange) : ExchangeEvent → Exchange → Prop
  | relay {event : RelayEvent} {relay : Relay}
      (hrelay : (Relay.automaton primitives trustedIpHeader).step world.relay event = some relay) :
      Moves primitives trustedIpHeader parties world (.relay event) { world with relay := relay }
  | tick (milliseconds : ℕ) : Moves primitives trustedIpHeader parties world (.tick milliseconds)
      { world with now := world.now + milliseconds }
  | prepare (hidle : world.recipient = .idle) :
      Moves primitives trustedIpHeader parties world .prepare
        { world with
          relay := arrive primitives trustedIpHeader world.relay
            (.mint parties.headers (parties.pubkey primitives))
          recipient := .minting world.relay.threads.length }
  | minted {thread : ℕ} {reply : RelayReply} (hminting : world.recipient = .minting thread)
      (hreply : reply? world.relay thread = some reply) :
      Moves primitives trustedIpHeader parties world .minted
        { world with recipient := afterMint parties reply }
  | poll {session : RecipientSession} (hready : world.recipient = .ready session) :
      Moves primitives trustedIpHeader parties world .poll
        (sendDownload primitives trustedIpHeader world session
          (pollDeadline session world.now parties.timeoutMs))
  | downloaded {session : RecipientSession} {deadline thread : ℕ} {reply : RelayReply}
      (hpolling : world.recipient = .polling session deadline thread)
      (hreply : reply? world.relay thread = some reply) :
      Moves primitives trustedIpHeader parties world .downloaded
        { world with recipient := afterDownload primitives session deadline world.now reply }
  | wake {session : RecipientSession} {deadline : ℕ}
      (hwaiting : world.recipient = .waiting session deadline) :
      Moves primitives trustedIpHeader parties world .wake
        (sendDownload primitives trustedIpHeader world session deadline)
  | type {typed : String} (hidle : world.sender = .idle) :
      Moves primitives trustedIpHeader parties world (.type typed)
        (sendTyped primitives trustedIpHeader world typed)
  | fetched {typed : String} {thread : ℕ} {reply : RelayReply}
      (hfetching : world.sender = .fetching typed thread)
      (hreply : reply? world.relay thread = some reply) :
      Moves primitives trustedIpHeader parties world .fetched
        (sendFetched primitives trustedIpHeader parties world typed reply)
  | uploaded {upload : Upload} {thread : ℕ} {reply : RelayReply}
      (huploading : world.sender = .uploading upload thread)
      (hreply : reply? world.relay thread = some reply) :
      Moves primitives trustedIpHeader parties world .uploaded
        { world with sender := .settled (uploadBlob reply) }

/-- An event that happens does what `Moves` says. -/
theorem moves_of_step {world next : Exchange} {event : ExchangeEvent}
    (hstep : step primitives trustedIpHeader parties world event = some next) :
    Moves primitives trustedIpHeader parties world event next := by
  cases event with
  | relay event =>
    obtain ⟨relay, hrelay, rfl⟩ := Option.map_eq_some_iff.mp hstep
    exact .relay hrelay
  | tick milliseconds =>
    obtain rfl := Option.some.inj hstep
    exact .tick milliseconds
  | prepare =>
    cases hrecipient : world.recipient with
    | idle =>
      simp only [step, hrecipient] at hstep
      obtain rfl := Option.some.inj hstep
      exact .prepare hrecipient
    | _ => simp [step, hrecipient] at hstep
  | minted =>
    cases hrecipient : world.recipient with
    | minting thread =>
      simp only [step, hrecipient] at hstep
      obtain ⟨reply, hreply, rfl⟩ := Option.map_eq_some_iff.mp hstep
      exact .minted hrecipient hreply
    | _ => simp [step, hrecipient] at hstep
  | poll =>
    cases hrecipient : world.recipient with
    | ready session =>
      simp only [step, hrecipient] at hstep
      obtain rfl := Option.some.inj hstep
      exact .poll hrecipient
    | _ => simp [step, hrecipient] at hstep
  | downloaded =>
    cases hrecipient : world.recipient with
    | polling session deadline thread =>
      simp only [step, hrecipient] at hstep
      obtain ⟨reply, hreply, rfl⟩ := Option.map_eq_some_iff.mp hstep
      exact .downloaded hrecipient hreply
    | _ => simp [step, hrecipient] at hstep
  | wake =>
    cases hrecipient : world.recipient with
    | waiting session deadline =>
      simp only [step, hrecipient] at hstep
      obtain rfl := Option.some.inj hstep
      exact .wake hrecipient
    | _ => simp [step, hrecipient] at hstep
  | type typed =>
    cases hsender : world.sender with
    | idle =>
      simp only [step, hsender] at hstep
      obtain rfl := Option.some.inj hstep
      exact .type hsender
    | _ => simp [step, hsender] at hstep
  | fetched =>
    cases hsender : world.sender with
    | fetching typed thread =>
      simp only [step, hsender] at hstep
      obtain ⟨reply, hreply, rfl⟩ := Option.map_eq_some_iff.mp hstep
      exact .fetched hsender hreply
    | _ => simp [step, hsender] at hstep
  | uploaded =>
    cases hsender : world.sender with
    | uploading upload thread =>
      simp only [step, hsender] at hstep
      obtain ⟨reply, hreply, rfl⟩ := Option.map_eq_some_iff.mp hstep
      exact .uploaded hsender hreply
    | _ => simp [step, hsender] at hstep

/-- A reply is the response to the answer of a handler. -/
theorem reply?_eq_some_iff {relay : Relay} {thread : ℕ} {reply : RelayReply} :
    reply? relay thread = some reply ↔ ∃ request answer,
      relay.threads[thread]? = some ⟨request, .done answer⟩ ∧ reply = replyOf answer := by
  unfold reply?
  rw [Option.map_eq_some_iff]
  constructor
  · rintro ⟨⟨request, answer⟩, hanswer, rfl⟩
    exact ⟨request, answer, Threads.answer?_eq_some_iff.mp hanswer, rfl⟩
  · rintro ⟨request, answer, hthread, rfl⟩
    exact ⟨(request, answer), Threads.answer?_eq_some_iff.mpr hthread, rfl⟩

end Exchange

end OpfsWebauthn.Share
