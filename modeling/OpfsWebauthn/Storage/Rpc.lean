import OpfsWebauthn.Foundation.OrderedMap

/-!
# The request/response envelopes and the page-side client

`rpc.ts`. A page talks to the storage worker by numbered envelopes: `ClientEnvelope` carries a
request, `ServerEnvelope` its response or an error with the same number. `WorkerClient` numbers
the requests of one page, keeps the promises that are not settled in a map keyed by the number,
and settles each promise from the first envelope that answers it, from the transport's `error`
event, or from `terminate`.

A promise is modelled by the entry that records how it was settled: `settled` lists the numbers of
the settled promises with their outcome, oldest first, and the pending map holds the kind of each
request that waits, which is what the continuation of `send` compares the response with.

A value that crosses the transport need not be an envelope. `PageMessage` is what the transport
can tell apart about such a value: whether it has a numeric `id`, and its request.
-/

set_option autoImplicit false
set_option relaxedAutoImplicit false

namespace OpfsWebauthn.Storage

open Foundation

/-- The bytes of a `Uint8Array`. -/
abbrev Bytes := List UInt8

/-- `EncryptedNoteRow` of `row.ts`: a row as it lives in SQLite and crosses the worker boundary. -/
structure EncryptedNoteRow where
  id : String
  updatedDay : Int
  archived : Bool
  titleNonce : Bytes
  titleCiphertext : Bytes
  bodyNonce : Bytes
  bodyCiphertext : Bytes
deriving DecidableEq, Repr

/-- The `kind` of a request and of the response that answers it. -/
inductive RequestKind
  | bootstrap
  | ping
  | listNotes
  | upsertNote
  | getNote
  | archiveNote
  | deleteNote
  | close
deriving DecidableEq, Repr

/-- The text of a `kind` field. -/
def RequestKind.text : RequestKind → String
  | .bootstrap => "bootstrap"
  | .ping => "ping"
  | .listNotes => "listNotes"
  | .upsertNote => "upsertNote"
  | .getNote => "getNote"
  | .archiveNote => "archiveNote"
  | .deleteNote => "deleteNote"
  | .close => "close"

/-- `WorkerRequest`: wire messages from the page to the worker. -/
inductive WorkerRequest
  | bootstrap
  | ping
  | listNotes (limit : Int) (cursor : Option String) (includeArchived : Bool)
  | upsertNote (row : EncryptedNoteRow)
  | getNote (id : String)
  | archiveNote (id : String)
  | deleteNote (id : String)
  | close
deriving DecidableEq, Repr

/-- The `kind` field of a request. -/
def WorkerRequest.kind : WorkerRequest → RequestKind
  | .bootstrap => .bootstrap
  | .ping => .ping
  | .listNotes .. => .listNotes
  | .upsertNote _ => .upsertNote
  | .getNote _ => .getNote
  | .archiveNote _ => .archiveNote
  | .deleteNote _ => .deleteNote
  | .close => .close

/-- `WorkerResponse`: wire messages from the worker to the page. -/
inductive WorkerResponse
  | bootstrap (schemaVersion : Nat)
  | ping
  | listNotes (rows : List EncryptedNoteRow) (nextCursor : Option String)
  | upsertNote (row : EncryptedNoteRow)
  | getNote (row : Option EncryptedNoteRow)
  | archiveNote
  | deleteNote
  | close
deriving DecidableEq, Repr

/-- The `kind` field of a response. -/
def WorkerResponse.kind : WorkerResponse → RequestKind
  | .bootstrap _ => .bootstrap
  | .ping => .ping
  | .listNotes .. => .listNotes
  | .upsertNote _ => .upsertNote
  | .getNote _ => .getNote
  | .archiveNote => .archiveNote
  | .deleteNote => .deleteNote
  | .close => .close

/-- `ClientEnvelope`: a numbered request. -/
structure ClientEnvelope where
  id : Nat
  request : WorkerRequest
deriving DecidableEq, Repr

/-- A value posted on a transport: `id` is `none` when the value has no numeric `id`. -/
structure PageMessage where
  id : Option Nat
  request : WorkerRequest
deriving DecidableEq, Repr

/-- An envelope as a posted value. -/
def ClientEnvelope.toMessage (envelope : ClientEnvelope) : PageMessage :=
  ⟨some envelope.id, envelope.request⟩

/-- What a server envelope carries besides its number: `kind: "response"` with the response, or
`kind: "error"` with the message. -/
inductive ServerBody
  | response (response : WorkerResponse)
  | error (message : String)
deriving DecidableEq, Repr

/-- `ServerEnvelope`: the answer to the request of the same number. -/
structure ServerEnvelope where
  id : Nat
  body : ServerBody
deriving DecidableEq, Repr

/-- A message of the writer worker: its `id` is the one it was sent, numeric or not. -/
structure WriterMessage where
  id : Option Nat
  body : ServerBody
deriving DecidableEq, Repr

/-- How the promise of a `send` was settled. -/
inductive Settlement
  | resolved (response : WorkerResponse)
  | rejected (reason : String)
deriving DecidableEq, Repr

/-- `WorkerClient`: the pending promises with the kind of their request, the next number, whether
the listeners are still attached to the transport, and the settled promises. -/
structure WorkerClient where
  pending : OrderedMap Nat RequestKind
  nextId : Nat
  listening : Bool
  settled : List (Nat × Settlement)

namespace WorkerClient

/-- `new WorkerClient(worker)`. -/
def create : WorkerClient where
  pending := .empty
  nextId := 1
  listening := true
  settled := []

/-- `#rejectAll(reason)`. -/
def rejectAll (client : WorkerClient) (reason : String) : WorkerClient :=
  { client with
    pending := .empty
    settled := client.settled ++ client.pending.keys.map fun id ↦ (id, .rejected reason) }

/-- `#onError`: the transport fired its `error` event. -/
def onError (client : WorkerClient) : WorkerClient :=
  if client.listening then client.rejectAll "storage worker error" else client

/-- What the continuation of `send` makes of a response: the only place that compares kinds. -/
def settlementFor (kind : RequestKind) (response : WorkerResponse) : Settlement :=
  if response.kind = kind then .resolved response
  else .rejected ("storage worker replied with " ++ response.kind.text ++ ", expected " ++
    kind.text)

/-- `#onMessage`: the first envelope that carries the number of a pending promise settles it. -/
def onMessage (client : WorkerClient) (envelope : ServerEnvelope) : WorkerClient :=
  if client.listening then
    match client.pending.get? envelope.id with
    | none => client
    | some kind =>
      { client with
        pending := client.pending.erase envelope.id
        settled := client.settled ++ [(envelope.id,
          match envelope.body with
          | .response response => settlementFor kind response
          | .error message => .rejected message)] }
  else client

/-- `send(request)` up to the post: the client that waits, and the envelope it posts. -/
def send (client : WorkerClient) (request : WorkerRequest) : WorkerClient × ClientEnvelope :=
  ({ client with
      pending := client.pending.set client.nextId request.kind
      nextId := client.nextId + 1 },
    ⟨client.nextId, request⟩)

/-- The envelope by which `terminate()` tells the worker that the client leaves. -/
def farewell (client : WorkerClient) : ClientEnvelope :=
  ⟨client.nextId, .close⟩

/-- `terminate()` after its post: the listeners are gone and every pending promise is rejected. -/
def terminate (client : WorkerClient) : WorkerClient :=
  { client with nextId := client.nextId + 1, listening := false }.rejectAll
    "storage worker terminated"

end WorkerClient

end OpfsWebauthn.Storage
