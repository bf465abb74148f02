import OpfsWebauthn.Foundation.Histories
import OpfsWebauthn.Foundation.Outcome
import OpfsWebauthn.Storage.Dispatcher

/-!
# The connections of a storage worker

`Connection` of `connection.ts` over `createDispatcher`, for requests of which only the `kind` is
known to be text: the worker may be older or newer than the page. `handlers[request.kind]` is a
lookup in an object literal. For a kind that is no entry of the table, the lookup gives `undefined`,
which cannot be called, or a member of `Object.prototype`, whose result is no promise. In both cases
the exception is thrown in the listener, before the `catch` of the promise is attached.

What a repository method, the broadcast or the opening of the database does with the rest of a
request is not computed here: an event says how the calls end. The values that cross the port are
structured clones, so that posting an envelope does not throw.

`Answered` is what the page relies on: every request that a connection received gets one envelope
with its id, a response of its kind or an error. `answered_iff_runMeets` says that the runs in which
this is so are those in which every request that is received has an entry in the table.
-/

set_option autoImplicit false
set_option relaxedAutoImplicit false

namespace OpfsWebauthn.Storage

open Foundation

/-- A thrown value: an `Error`, or anything else with its text. -/
inductive Thrown
  | error (message : String)
  | other (text : String)
deriving DecidableEq, Repr

/-- `err instanceof Error ? err.message : String(err)`. -/
def Thrown.message : Thrown → String
  | .error message => message
  | .other text => text

/-- A request as it crosses the port: its `kind`, and its other members. -/
structure RequestObject (Clone : Type) where
  kind : String
  members : Clone
deriving DecidableEq, Repr

/-- A response with structured clones as its members. -/
inductive ResponseObject (Clone : Type)
  | bootstrap (schemaVersion : ℕ)
  | ping
  | listNotes (rows nextCursor : Clone)
  | upsertNote (row : Clone)
  | getNote (row : Clone)
  | archiveNote
  | deleteNote
  | close
deriving DecidableEq, Repr

/-- The `kind` field of a response. -/
def ResponseObject.kind {Clone : Type} : ResponseObject Clone → RequestKind
  | .bootstrap _ => .bootstrap
  | .ping => .ping
  | .listNotes .. => .listNotes
  | .upsertNote _ => .upsertNote
  | .getNote _ => .getNote
  | .archiveNote => .archiveNote
  | .deleteNote => .deleteNote
  | .close => .close

/-- How the calls end that the handler of a request can make. -/
structure Calls (Clone : Type) where
  schemaVersion : Except Thrown ℕ
  list : Except Thrown (Clone × Clone)
  upsert : Except Thrown Clone
  get : Except Thrown Clone
  archive : Except Thrown Unit
  delete : Except Thrown Unit
  broadcast : Except Thrown Unit

/-- The entries of the table `handlers`. -/
def handlerKinds : List RequestKind :=
  [.ping, .bootstrap, .listNotes, .upsertNote, .getNote, .archiveNote, .deleteNote, .close]

/-- `handlers[kind]`, when it is an entry of the table. -/
def handlers (kind : String) : Option RequestKind :=
  handlerKinds.find? fun entry ↦ entry.text = kind

/-- The kind of an entry is its text. -/
theorem text_of_handlers {kind : String} {entry : RequestKind}
    (hentry : handlers kind = some entry) :
    entry.text = kind := by
  simpa using List.find?_some hentry

section Handlers

variable {Clone : Type} (calls : Calls Clone)

/-- The outcome of the promise of a handler. A write is broadcast when it succeeded. -/
def handler : RequestKind → Except Thrown (ResponseObject Clone)
  | .ping => .ok .ping
  | .bootstrap => calls.schemaVersion.map .bootstrap
  | .listNotes => calls.list.map fun page ↦ .listNotes page.1 page.2
  | .upsertNote => do
    let row ← calls.upsert
    calls.broadcast
    return .upsertNote row
  | .getNote => calls.get.map .getNote
  | .archiveNote => do
    calls.archive
    calls.broadcast
    return .archiveNote
  | .deleteNote => do
    calls.delete
    calls.broadcast
    return .deleteNote
  | .close => .ok .close

/-- A call that does not throw. -/
def Returns {α : Type} (call : Except Thrown α) : Prop :=
  ∃ value, call = .ok value

/-- None of the calls that a handler makes throws. -/
def Calls.Succeed : RequestKind → Prop
  | .ping => True
  | .bootstrap => Returns calls.schemaVersion
  | .listNotes => Returns calls.list
  | .upsertNote => Returns calls.upsert ∧ Returns calls.broadcast
  | .getNote => Returns calls.get
  | .archiveNote => Returns calls.archive ∧ Returns calls.broadcast
  | .deleteNote => Returns calls.delete ∧ Returns calls.broadcast
  | .close => True

variable {calls}

/-- A handler that reads gives the answer to what it read. -/
theorem read_eq_ok_iff {α : Type} {call : Except Thrown α} {answer : α → ResponseObject Clone}
    {response : ResponseObject Clone} :
    call.map answer = .ok response ↔ ∃ value, call = .ok value ∧ answer value = response := by
  cases call with
  | error thrown => simp [Except.map]
  | ok value => simp [Except.map]

/-- A handler that writes gives its answer when the write and the broadcast succeed. -/
theorem write_eq_ok_iff {α : Type} {call : Except Thrown α} {answer : α → ResponseObject Clone}
    {response : ResponseObject Clone} :
    (call >>= fun value ↦ calls.broadcast >>= fun _ ↦ .ok (answer value)) = .ok response ↔
      ∃ value, call = .ok value ∧ Returns calls.broadcast ∧ answer value = response := by
  simp only [bind_eq_ok_iff, Except.ok.injEq, exists_and_right, Returns]

/-- A handler gives a response exactly when none of its calls throws. -/
theorem handler_returns_iff {kind : RequestKind} :
    Returns (handler calls kind) ↔ calls.Succeed kind := by
  have hread : ∀ {α : Type} (call : Except Thrown α) (answer : α → ResponseObject Clone),
      Returns (call.map answer) ↔ Returns call := by
    intro α call answer
    simp only [Returns, read_eq_ok_iff]
    constructor
    · rintro ⟨_, value, hcall, -⟩
      exact ⟨value, hcall⟩
    · rintro ⟨value, hcall⟩
      exact ⟨answer value, value, hcall, rfl⟩
  have hwrite : ∀ {α : Type} (call : Except Thrown α) (answer : α → ResponseObject Clone),
      Returns (call >>= fun value ↦ calls.broadcast >>= fun _ ↦ .ok (answer value)) ↔
        Returns call ∧ Returns calls.broadcast := by
    intro α call answer
    constructor
    · rintro ⟨_, hresponse⟩
      obtain ⟨value, hcall, hbroadcast, -⟩ := write_eq_ok_iff.mp hresponse
      exact ⟨⟨value, hcall⟩, hbroadcast⟩
    · rintro ⟨⟨value, hcall⟩, hbroadcast⟩
      exact ⟨answer value, write_eq_ok_iff.mpr ⟨value, hcall, hbroadcast, rfl⟩⟩
  cases kind with
  | ping => exact ⟨fun _ ↦ trivial, fun _ ↦ ⟨.ping, rfl⟩⟩
  | close => exact ⟨fun _ ↦ trivial, fun _ ↦ ⟨.close, rfl⟩⟩
  | bootstrap => exact hread calls.schemaVersion .bootstrap
  | listNotes => exact hread calls.list fun page ↦ .listNotes page.1 page.2
  | getNote => exact hread calls.get .getNote
  | upsertNote => exact hwrite calls.upsert .upsertNote
  | archiveNote => exact hwrite calls.archive fun _ ↦ .archiveNote
  | deleteNote => exact hwrite calls.delete fun _ ↦ .deleteNote

/-- The response of a handler has the kind of its entry. -/
theorem kind_of_handler {kind : RequestKind} {response : ResponseObject Clone}
    (hresponse : handler calls kind = .ok response) : response.kind = kind := by
  have hread : ∀ {α : Type} (call : Except Thrown α) (answer : α → ResponseObject Clone),
      (∀ value, (answer value).kind = kind) → call.map answer = .ok response →
        response.kind = kind := by
    intro α call answer hanswer hmap
    obtain ⟨value, -, rfl⟩ := read_eq_ok_iff.mp hmap
    exact hanswer value
  have hwrite : ∀ {α : Type} (call : Except Thrown α) (answer : α → ResponseObject Clone),
      (∀ value, (answer value).kind = kind) →
        (call >>= fun value ↦ calls.broadcast >>= fun _ ↦ .ok (answer value)) = .ok response →
          response.kind = kind := by
    intro α call answer hanswer hbind
    obtain ⟨value, -, -, rfl⟩ := write_eq_ok_iff.mp hbind
    exact hanswer value
  cases kind with
  | ping => exact congrArg ResponseObject.kind (Except.ok.inj hresponse).symm
  | close => exact congrArg ResponseObject.kind (Except.ok.inj hresponse).symm
  | bootstrap => exact hread calls.schemaVersion _ (fun _ ↦ rfl) hresponse
  | listNotes => exact hread calls.list _ (fun _ ↦ rfl) hresponse
  | getNote => exact hread calls.get _ (fun _ ↦ rfl) hresponse
  | upsertNote => exact hwrite calls.upsert .upsertNote (fun _ ↦ rfl) hresponse
  | archiveNote => exact hwrite calls.archive (fun _ ↦ .archiveNote) (fun _ ↦ rfl) hresponse
  | deleteNote => exact hwrite calls.delete (fun _ ↦ .deleteNote) (fun _ ↦ rfl) hresponse

end Handlers

/-! ### The requests of this build -/

/-- What the responses of this build carry. -/
inductive WireValue
  | rows (rows : List EncryptedNoteRow)
  | cursor (cursor : Option String)
  | row (row : Option EncryptedNoteRow)
deriving DecidableEq, Repr

/-- A response of this build as an object. -/
def WorkerResponse.toObject : WorkerResponse → ResponseObject WireValue
  | .bootstrap version => .bootstrap version
  | .ping => .ping
  | .listNotes rows nextCursor => .listNotes (.rows rows) (.cursor nextCursor)
  | .upsertNote row => .upsertNote (.row (some row))
  | .getNote row => .getNote (.row row)
  | .archiveNote => .archiveNote
  | .deleteNote => .deleteNote
  | .close => .close

/-- The calls of a handler that reads and writes nothing. -/
def noCalls : Calls WireValue where
  schemaVersion := .ok schemaVersion
  list := .error (.error "")
  upsert := .error (.error "")
  get := .error (.error "")
  archive := .error (.error "")
  delete := .error (.error "")
  broadcast := .ok ()

/-- How the calls of the repository end for a request of this build. -/
def repositoryCalls (table : NotesTable) : WorkerRequest → Calls WireValue
  | .listNotes limit cursor includeArchived => { noCalls with
      list := ((NoteRepositorySql.list table ⟨limit, cursor, includeArchived⟩).map
        fun page ↦ (.rows page.rows, .cursor page.nextCursor)).mapError .other }
  | .upsertNote row => { noCalls with
      upsert := ((NoteRepositorySql.upsert table row).map fun _ ↦ .row (some row)).mapError .other }
  | .getNote id => { noCalls with
      get := ((NoteRepositorySql.get table id).map .row).mapError .other }
  | .archiveNote id => { noCalls with
      archive := ((NoteRepositorySql.archive table id).map fun _ ↦ ()).mapError .other }
  | .deleteNote id => { noCalls with
      delete := ((NoteRepositorySql.delete table id).map fun _ ↦ ()).mapError .other }
  | _ => noCalls

/-- The handlers of the worker are these ones, at the calls of its repository. -/
theorem handler_repositoryCalls (table : NotesTable) (request : WorkerRequest) :
    (handler (repositoryCalls table request) request.kind).mapError Thrown.message =
      (handle table request).result.map WorkerResponse.toObject := by
  cases request with
  | ping | bootstrap | close => rfl
  | listNotes limit cursor includeArchived =>
    show Except.mapError _ (Except.map _ (Except.mapError _ (Except.map _ _))) =
      Except.map _ (Except.map _ _)
    cases NoteRepositorySql.list table ⟨limit, cursor, includeArchived⟩ <;> rfl
  | getNote id =>
    show Except.mapError _ (Except.map _ (Except.mapError _ (Except.map _ _))) =
      Except.map _ (Except.map _ _)
    cases NoteRepositorySql.get table id <;> rfl
  | upsertNote row =>
    simp only [handler, repositoryCalls, WorkerRequest.kind, handle]
    cases NoteRepositorySql.upsert table row <;> rfl
  | archiveNote id =>
    simp only [handler, repositoryCalls, WorkerRequest.kind, handle]
    cases NoteRepositorySql.archive table id <;> rfl
  | deleteNote id =>
    simp only [handler, repositoryCalls, WorkerRequest.kind, handle]
    cases NoteRepositorySql.delete table id <;> rfl

/-! ### Connections -/

/-- An envelope that a connection received. -/
structure Received (Id Clone : Type) where
  connection : ℕ
  id : Id
  request : RequestObject Clone
deriving DecidableEq, Repr

/-- How the work for a request ended: `openDatabase()` was rejected, or the calls of the handler
were made. -/
inductive Ending (Clone : Type)
  | openFailed (thrown : Thrown)
  | called (calls : Calls Clone)

/-- The outcome of the promise that the dispatcher returned. -/
def Ending.outcome {Clone : Type} (kind : RequestKind) :
    Ending Clone → Except Thrown (ResponseObject Clone)
  | .openFailed thrown => .error thrown
  | .called calls => handler calls kind

/-- The database was opened, and none of the calls threw. -/
def Ending.Success {Clone : Type} (kind : RequestKind) : Ending Clone → Prop
  | .openFailed _ => False
  | .called calls => calls.Succeed kind

/-- A request whose handler waits for the `openDatabase()` that it called. `receipt` is its place
among the requests received. -/
structure Waiting (Id Clone : Type) where
  receipt : ℕ
  received : Received Id Clone
  kind : RequestKind

/-- What follows the `id` in an envelope that is posted back: `respond` or `fail`. -/
inductive ReplyBody (Clone : Type)
  | response (response : ResponseObject Clone)
  | error (message : String)
deriving DecidableEq, Repr

/-- The envelope for the outcome of a dispatch. -/
def replyBody {Clone : Type} : Except Thrown (ResponseObject Clone) → ReplyBody Clone
  | .ok response => .response response
  | .error thrown => .error thrown.message

/-- A call of `post` for a request. A port that was closed does not deliver. -/
structure Post (Id Clone : Type) where
  receipt : ℕ
  connection : ℕ
  id : Id
  body : ReplyBody Clone
  delivered : Bool
deriving DecidableEq, Repr

/-- The connections over one dispatcher: whether the dispatcher has a database, the requests that
wait for one, and the connections that are disposed. Next to them stands the history: the requests
received, how the work for each ended, what was posted, and the requests for which an exception left
the listener. -/
structure Connections (Id Clone : Type) where
  ready : Bool
  waiting : List (Waiting Id Clone)
  disposed : ℕ → Bool
  received : List (Received Id Clone)
  endings : List (ℕ × Ending Clone)
  posts : List (Post Id Clone)
  escaped : List ℕ

/-- What can happen: an envelope reaches a port, or a call of `openDatabase` settles. The event says
how the calls end that a handler makes then. -/
inductive ConnectionEvent (Id Clone : Type)
  | message (received : Received Id Clone) (calls : Calls Clone)
  | databaseOpened (receipt : ℕ) (calls : Calls Clone)
  | databaseFailed (receipt : ℕ) (thrown : Thrown)

namespace Connections

variable {Id Clone : Type}

/-- Before the first request. -/
def initial : Connections Id Clone where
  ready := false
  waiting := []
  disposed := fun _ ↦ false
  received := []
  endings := []
  posts := []
  escaped := []

/-- `post(envelope)`. -/
def post (worker : Connections Id Clone) (receipt : ℕ) (received : Received Id Clone)
    (body : ReplyBody Clone) : Connections Id Clone :=
  { worker with
    posts := worker.posts ++
      [⟨receipt, received.connection, received.id, body, !worker.disposed received.connection⟩] }

/-- `dispose()`. -/
def dispose (worker : Connections Id Clone) (connection : ℕ) : Connections Id Clone :=
  { worker with disposed := Function.update worker.disposed connection true }

/-- The `then` and the `catch` of `#onMessage`. -/
def settle (worker : Connections Id Clone) (receipt : ℕ) (received : Received Id Clone)
    (kind : RequestKind) (ending : Ending Clone) : Connections Id Clone :=
  let worker : Connections Id Clone := { worker with
    endings := worker.endings ++ [(receipt, ending)] }
  let worker := worker.post receipt received (replyBody (ending.outcome kind))
  match ending.outcome kind with
  | .ok _ => if received.request.kind = "close" then worker.dispose received.connection else worker
  | .error _ => worker

/-- The call of a handler. With a database, or without the need of one, it runs to its end;
otherwise it waits for the `openDatabase()` that it calls. -/
def run (worker : Connections Id Clone) (receipt : ℕ) (received : Received Id Clone)
    (kind : RequestKind) (calls : Calls Clone) : Connections Id Clone :=
  if kind.NeedsDb ∧ worker.ready = false then
    { worker with waiting := worker.waiting ++ [⟨receipt, received, kind⟩] }
  else worker.settle receipt received kind (.called calls)

/-- `#onMessage`. A kind without an entry throws out of the listener. -/
def onMessage (worker : Connections Id Clone) (received : Received Id Clone)
    (calls : Calls Clone) : Connections Id Clone :=
  if worker.disposed received.connection then worker
  else
    let receipt := worker.received.length
    let worker : Connections Id Clone := { worker with received := worker.received ++ [received] }
    match handlers received.request.kind with
    | none => { worker with escaped := worker.escaped ++ [receipt] }
    | some kind => worker.run receipt received kind calls

/-- A request stops waiting. -/
def leave (worker : Connections Id Clone) (receipt : ℕ) : Connections Id Clone :=
  { worker with waiting := worker.waiting.filter fun other ↦ other.receipt ≠ receipt }

/-- The transition function. -/
def step (worker : Connections Id Clone) :
    ConnectionEvent Id Clone → Option (Connections Id Clone)
  | .message received calls => some (worker.onMessage received calls)
  | .databaseOpened receipt calls =>
    (worker.waiting.find? fun call ↦ call.receipt = receipt).map fun call ↦
      { worker.leave receipt with ready := true }.settle receipt call.received call.kind
        (.called calls)
  | .databaseFailed receipt thrown =>
    (worker.waiting.find? fun call ↦ call.receipt = receipt).map fun call ↦
      (worker.leave receipt).settle receipt call.received call.kind (.openFailed thrown)

/-- The connections as an automaton. -/
def automaton : Automaton (Connections Id Clone) (ConnectionEvent Id Clone) :=
  ⟨step⟩

/-- A request that is received has an entry in the table. -/
def KnownKind (worker : Connections Id Clone) : ConnectionEvent Id Clone → Prop
  | .message received _ =>
    worker.disposed received.connection = false → handlers received.request.kind ≠ none
  | .databaseOpened _ _ => True
  | .databaseFailed _ _ => True

instance (worker : Connections Id Clone) (event : ConnectionEvent Id Clone) :
    Decidable (worker.KnownKind event) := by
  cases event <;> unfold KnownKind <;> infer_instance

/-! ### What the page relies on -/

section Answers

variable (worker : Connections Id Clone)

/-- A request waits for its database. -/
def Waits (receipt : ℕ) : Prop :=
  ∃ call ∈ worker.waiting, call.receipt = receipt

/-- What was posted for a request. -/
def replies (receipt : ℕ) : List (Post Id Clone) :=
  worker.posts.filter fun post ↦ post.receipt = receipt

/-- How the work for a request ended. -/
def endingsOf (receipt : ℕ) : List (Ending Clone) :=
  (worker.endings.filter fun entry ↦ entry.1 = receipt).map Prod.snd

/-- An envelope answers a request: it has its id, and is a response of its kind when the work
succeeded and an error otherwise. -/
def Answers (post : Post Id Clone) (received : Received Id Clone) (ending : Ending Clone) : Prop :=
  post.connection = received.connection ∧ post.id = received.id ∧
    ∃ kind, handlers received.request.kind = some kind ∧
      match post.body with
      | .response response => ending.Success kind ∧ response.kind.text = received.request.kind
      | .error _ => ¬ ending.Success kind

/-- A request waits for its database, and nothing was posted for it, or its work ended once, and one
envelope was posted, which answers it. -/
def Once (receipt : ℕ) (received : Received Id Clone) : Prop :=
  (worker.Waits receipt ∧ worker.endingsOf receipt = [] ∧ worker.replies receipt = []) ∨
    (¬ worker.Waits receipt ∧ ∃ ending post, worker.endingsOf receipt = [ending] ∧
      worker.replies receipt = [post] ∧ Answers post received ending)

/-- An envelope is delivered unless a `close` was answered on its connection before. -/
def Delivers : Prop :=
  ∀ before post after, worker.posts = before ++ post :: after → post.delivered = false →
    ∃ other ∈ before, other.connection = post.connection ∧ other.body = .response .close

/-- Every request gets one envelope, as long as its connection is not disposed, and no exception
leaves the listener. -/
structure Answered : Prop where
  /-- No exception leaves the listener. -/
  contained : worker.escaped = []
  /-- A request waits for its database or has one envelope. -/
  once : ∀ receipt received, worker.received[receipt]? = some received →
    worker.Once receipt received
  /-- A request that waits goes on when `openDatabase` settles. -/
  resumes : ∀ receipt, worker.Waits receipt → ∀ calls thrown,
    (worker.step (.databaseOpened receipt calls)).isSome ∧
      (worker.step (.databaseFailed receipt thrown)).isSome
  /-- Nothing else is posted. -/
  asked : ∀ post ∈ worker.posts, post.receipt < worker.received.length
  /-- What is posted is delivered until the connection is disposed. -/
  delivered : worker.Delivers

end Answers

/-! ### One reply -/

/-- The outcome of the work is a response of the kind when it succeeded, and an error otherwise. -/
theorem answers_replyBody {receipt : ℕ} {received : Received Id Clone} {kind : RequestKind}
    (hkind : handlers received.request.kind = some kind) (ending : Ending Clone)
    (delivered : Bool) :
    Answers ⟨receipt, received.connection, received.id, replyBody (ending.outcome kind), delivered⟩
      received ending := by
  refine ⟨rfl, rfl, kind, hkind, ?_⟩
  cases ending with
  | openFailed thrown => exact id
  | called calls =>
    cases houtcome : handler calls kind with
    | ok response =>
      simp only [Ending.outcome, houtcome, replyBody]
      refine ⟨handler_returns_iff.mp ⟨response, houtcome⟩, ?_⟩
      rw [kind_of_handler houtcome]
      exact text_of_handlers hkind
    | error thrown =>
      simp only [Ending.outcome, houtcome, replyBody]
      intro hsuccess
      obtain ⟨response, hresponse⟩ := handler_returns_iff.mpr hsuccess
      rw [houtcome] at hresponse
      cases hresponse

/-- The invariant of the runs in which every request has an entry. `working` is the request whose
outcome is being posted. -/
structure Served (worker : Connections Id Clone) (working : Option ℕ) : Prop where
  contained : worker.escaped = []
  once : ∀ receipt received, worker.received[receipt]? = some received → working ≠ some receipt →
    worker.Once receipt received
  untouched : ∀ receipt, working = some receipt ∨ worker.received.length ≤ receipt →
    ¬ worker.Waits receipt ∧ worker.endingsOf receipt = [] ∧ worker.replies receipt = []
  waits : ∀ call ∈ worker.waiting, worker.received[call.receipt]? = some call.received ∧
    handlers call.received.request.kind = some call.kind
  closed : ∀ connection, worker.disposed connection = true →
    ∃ post ∈ worker.posts, post.connection = connection ∧ post.body = .response .close
  delivered : worker.Delivers

section Settle

variable (worker : Connections Id Clone) (receipt : ℕ) (received : Received Id Clone)
  (kind : RequestKind) (ending : Ending Clone)

/-- The call of `post` that settling a request makes. -/
def lastPost : Post Id Clone :=
  ⟨receipt, received.connection, received.id, replyBody (ending.outcome kind),
    !worker.disposed received.connection⟩

/-- What `settle` adds to the histories, and that it keeps the rest but the disposal. -/
theorem settle_spec : ∃ disposed, worker.settle receipt received kind ending = { worker with
    endings := worker.endings ++ [(receipt, ending)]
    posts := worker.posts ++ [worker.lastPost receipt received kind ending]
    disposed := disposed } := by
  unfold settle
  cases houtcome : ending.outcome kind with
  | error thrown => exact ⟨worker.disposed, by simp only [post, lastPost, houtcome]⟩
  | ok response =>
    by_cases hclose : received.request.kind = "close"
    · exact ⟨Function.update worker.disposed received.connection true, by
        simp only [if_pos hclose, post, dispose, lastPost, houtcome]⟩
    · exact ⟨worker.disposed, by simp only [if_neg hclose, post, lastPost, houtcome]⟩

@[simp] theorem settle_escaped :
    (worker.settle receipt received kind ending).escaped = worker.escaped := by
  obtain ⟨disposed, hsettle⟩ := settle_spec worker receipt received kind ending
  rw [hsettle]

@[simp] theorem settle_received :
    (worker.settle receipt received kind ending).received = worker.received := by
  obtain ⟨disposed, hsettle⟩ := settle_spec worker receipt received kind ending
  rw [hsettle]

@[simp] theorem settle_waiting :
    (worker.settle receipt received kind ending).waiting = worker.waiting := by
  obtain ⟨disposed, hsettle⟩ := settle_spec worker receipt received kind ending
  rw [hsettle]

@[simp] theorem settle_posts : (worker.settle receipt received kind ending).posts =
    worker.posts ++ [worker.lastPost receipt received kind ending] := by
  obtain ⟨disposed, hsettle⟩ := settle_spec worker receipt received kind ending
  rw [hsettle]

@[simp] theorem waits_settle (other : ℕ) :
    (worker.settle receipt received kind ending).Waits other ↔ worker.Waits other := by
  rw [Waits, Waits, settle_waiting]

theorem endingsOf_settle (other : ℕ) :
    (worker.settle receipt received kind ending).endingsOf other =
      worker.endingsOf other ++ if receipt = other then [ending] else [] := by
  obtain ⟨disposed, hsettle⟩ := settle_spec worker receipt received kind ending
  rw [hsettle, endingsOf, endingsOf, List.filter_append, List.map_append]
  by_cases hsame : receipt = other
  · simp [hsame]
  · simp [hsame]

theorem replies_settle (other : ℕ) :
    (worker.settle receipt received kind ending).replies other = worker.replies other ++
      if receipt = other then [worker.lastPost receipt received kind ending] else [] := by
  rw [replies, replies, settle_posts, List.filter_append]
  by_cases hsame : receipt = other
  · simp [hsame, lastPost]
  · simp [hsame, lastPost]

/-- A connection is disposed after the response to its `close`. -/
theorem disposed_settle {worker : Connections Id Clone} {receipt : ℕ} {received : Received Id Clone}
    {kind : RequestKind} {ending : Ending Clone} {connection : ℕ}
    (hdisposed : (worker.settle receipt received kind ending).disposed connection = true) :
    worker.disposed connection = true ∨ connection = received.connection ∧
      received.request.kind = "close" ∧ ∃ response, ending.outcome kind = .ok response := by
  unfold settle at hdisposed
  cases houtcome : ending.outcome kind with
  | error thrown =>
    simp only [houtcome] at hdisposed
    exact Or.inl hdisposed
  | ok response =>
    simp only [houtcome] at hdisposed
    by_cases hclose : received.request.kind = "close"
    · rw [if_pos hclose] at hdisposed
      by_cases hsame : connection = received.connection
      · exact Or.inr ⟨hsame, hclose, response, rfl⟩
      · simp only [dispose, Function.update_of_ne hsame] at hdisposed
        exact Or.inl hdisposed
    · rw [if_neg hclose] at hdisposed
      exact Or.inl hdisposed

/-- The response to a `close` is a `close`. -/
theorem eq_close {received : Received Id Clone} {kind : RequestKind} {ending : Ending Clone}
    {response : ResponseObject Clone} (hkind : handlers received.request.kind = some kind)
    (hclose : received.request.kind = "close") (houtcome : ending.outcome kind = .ok response) :
    response = .close := by
  rw [hclose] at hkind
  obtain rfl : RequestKind.close = kind := Option.some.inj hkind
  cases ending with
  | openFailed thrown => cases houtcome
  | called calls => exact (Except.ok.inj houtcome).symm

/-- What is posted last is delivered when the connection is not disposed. -/
theorem delivers_settle {worker : Connections Id Clone} {receipt : ℕ} {received : Received Id Clone}
    {kind : RequestKind} {ending : Ending Clone} (hdelivers : worker.Delivers)
    (hclosed : worker.disposed received.connection = true →
      ∃ post ∈ worker.posts, post.connection = received.connection ∧ post.body = .response .close) :
    (worker.settle receipt received kind ending).Delivers := by
  intro before other after hsplit hlost
  rw [settle_posts] at hsplit
  rcases split_concat hsplit with ⟨hbefore, rfl, -⟩ | ⟨inner, hposts, -⟩
  · rw [← hbefore]
    exact hclosed (by simpa [lastPost] using hlost)
  · exact hdelivers before other inner hposts hlost

/-- Settling a request posts its one envelope. -/
theorem served_settle {worker : Connections Id Clone} {receipt : ℕ} {received : Received Id Clone}
    {kind : RequestKind} (hserved : worker.Served (some receipt))
    (hreceived : worker.received[receipt]? = some received)
    (hkind : handlers received.request.kind = some kind) (ending : Ending Clone) :
    (worker.settle receipt received kind ending).Served none := by
  obtain ⟨hwaits, hendings, hreplies⟩ := hserved.untouched receipt (Or.inl rfl)
  refine ⟨?_, ?_, ?_, ?_, ?_, delivers_settle hserved.delivered (hserved.closed _)⟩
  · rw [settle_escaped]
    exact hserved.contained
  · intro other given hgiven _
    rw [settle_received] at hgiven
    unfold Once
    rw [waits_settle, endingsOf_settle, replies_settle]
    by_cases hsame : receipt = other
    · subst hsame
      obtain rfl : received = given := Option.some.inj (hreceived.symm.trans hgiven)
      rw [hendings, hreplies, if_pos rfl, if_pos rfl]
      exact Or.inr ⟨hwaits, ending, _, rfl, rfl, answers_replyBody hkind ending _⟩
    · rw [if_neg hsame, if_neg hsame, List.append_nil, List.append_nil]
      exact hserved.once other given hgiven (by simpa using hsame)
  · intro other hother
    have hle : worker.received.length ≤ other := by simpa using hother
    have hlt : receipt < worker.received.length := (List.getElem?_eq_some_iff.mp hreceived).1
    rw [waits_settle, endingsOf_settle, replies_settle, if_neg (by omega), if_neg (by omega),
      List.append_nil, List.append_nil]
    exact hserved.untouched other (Or.inr hle)
  · rw [settle_waiting, settle_received]
    exact hserved.waits
  · intro connection hclosed
    rw [settle_posts]
    rcases disposed_settle hclosed with hold | ⟨rfl, hclose, response, houtcome⟩
    · obtain ⟨other, hother, hrest⟩ := hserved.closed connection hold
      exact ⟨other, List.mem_append_left _ hother, hrest⟩
    · refine ⟨_, List.mem_append_right _ (List.mem_singleton_self _), rfl, ?_⟩
      rw [eq_close hkind hclose houtcome] at houtcome
      simp only [lastPost, houtcome, replyBody]

end Settle

/-- A request that is worked on waits for its database, or is settled. -/
theorem served_run {worker : Connections Id Clone} {receipt : ℕ} {received : Received Id Clone}
    {kind : RequestKind} (hserved : worker.Served (some receipt))
    (hreceived : worker.received[receipt]? = some received)
    (hkind : handlers received.request.kind = some kind) (calls : Calls Clone) :
    (worker.run receipt received kind calls).Served none := by
  unfold run
  by_cases hwaits : kind.NeedsDb ∧ worker.ready = false
  · rw [if_pos hwaits]
    obtain ⟨-, hendings, hreplies⟩ := hserved.untouched receipt (Or.inl rfl)
    refine ⟨hserved.contained, ?_, ?_, ?_, hserved.closed, hserved.delivered⟩
    · intro other given hgiven _
      by_cases hsame : receipt = other
      · subst hsame
        exact Or.inl ⟨⟨_, List.mem_append_right _ (List.mem_singleton_self _), rfl⟩, hendings,
          hreplies⟩
      · rcases hserved.once other given hgiven (by simpa using hsame) with hwaiting | hdone
        · obtain ⟨⟨call, hcall, hother⟩, hnothing⟩ := hwaiting
          exact Or.inl ⟨⟨call, List.mem_append_left _ hcall, hother⟩, hnothing⟩
        · refine Or.inr ⟨?_, hdone.2⟩
          rintro ⟨call, hcall, hother⟩
          rcases List.mem_append.mp hcall with hold | hnew
          · exact hdone.1 ⟨call, hold, hother⟩
          · rw [List.mem_singleton.mp hnew] at hother
            exact hsame hother
    · intro other hother
      have hle : worker.received.length ≤ other := by simpa using hother
      have hlt : receipt < worker.received.length := (List.getElem?_eq_some_iff.mp hreceived).1
      obtain ⟨hnone, hnothing⟩ := hserved.untouched other (Or.inr hle)
      refine ⟨?_, hnothing⟩
      rintro ⟨call, hcall, hreceipt⟩
      rcases List.mem_append.mp hcall with hold | hnew
      · exact hnone ⟨call, hold, hreceipt⟩
      · rw [List.mem_singleton.mp hnew] at hreceipt
        have hsame : receipt = other := hreceipt
        omega
    · intro call hcall
      rcases List.mem_append.mp hcall with hold | hnew
      · exact hserved.waits call hold
      · rw [List.mem_singleton.mp hnew]
        exact ⟨hreceived, hkind⟩
  · rw [if_neg hwaits]
    exact served_settle hserved hreceived hkind _

/-- A request that is received is worked on. -/
theorem served_receive {worker : Connections Id Clone} (hserved : worker.Served none)
    (received : Received Id Clone) :
    { worker with received := worker.received ++ [received] }.Served
      (some worker.received.length) := by
  refine ⟨hserved.contained, ?_, ?_, ?_, hserved.closed, hserved.delivered⟩
  · intro receipt given hgiven hother
    have hlt : receipt < worker.received.length := by
      have hbound := (List.getElem?_eq_some_iff.mp hgiven).1
      rw [List.length_append, List.length_singleton] at hbound
      have hdiffers : worker.received.length ≠ receipt := by simpa using hother
      omega
    rw [List.getElem?_append_left hlt] at hgiven
    exact hserved.once receipt given hgiven (by simp)
  · intro receipt hreceipt
    apply hserved.untouched receipt
    right
    rcases hreceipt with hworking | hlarge
    · exact (Option.some.inj hworking).le
    · have hbound : worker.received.length + 1 ≤ receipt := by simpa using hlarge
      omega
  · intro call hcall
    obtain ⟨hreceived, hkind⟩ := hserved.waits call hcall
    have hlt := (List.getElem?_eq_some_iff.mp hreceived).1
    exact ⟨(List.getElem?_append_left hlt).trans hreceived, hkind⟩

/-- A request that leaves the queue is worked on. -/
theorem served_leave {worker : Connections Id Clone} (hserved : worker.Served none)
    {receipt : ℕ} (hwaits : worker.Waits receipt) :
    (worker.leave receipt).Served (some receipt) := by
  have hwaitsIff : ∀ other, (worker.leave receipt).Waits other ↔
      worker.Waits other ∧ receipt ≠ other := by
    intro other
    constructor
    · rintro ⟨call, hcall, rfl⟩
      obtain ⟨hmem, hdiffers⟩ := List.mem_filter.mp hcall
      exact ⟨⟨call, hmem, rfl⟩, fun hsame ↦ (of_decide_eq_true hdiffers) hsame.symm⟩
    · rintro ⟨⟨call, hcall, rfl⟩, hdiffers⟩
      exact ⟨call, List.mem_filter.mpr ⟨hcall, decide_eq_true fun hsame ↦ hdiffers hsame.symm⟩,
        rfl⟩
  refine ⟨hserved.contained, ?_, ?_, ?_, hserved.closed, hserved.delivered⟩
  · intro other given hgiven hother
    have hdiffers : receipt ≠ other := by simpa using hother
    have honce := hserved.once other given hgiven (by simp)
    unfold Once at honce ⊢
    rw [hwaitsIff]
    simp only [hdiffers, ne_eq, not_false_eq_true, and_true]
    exact honce
  · intro other hother
    rcases hother with hworking | hlarge
    · obtain rfl := Option.some.inj hworking
      refine ⟨fun hstill ↦ ((hwaitsIff receipt).mp hstill).2 rfl, ?_⟩
      obtain ⟨call, hcall, rfl⟩ := hwaits
      obtain ⟨hreceived, -⟩ := hserved.waits call hcall
      rcases hserved.once call.receipt call.received hreceived (by simp) with hwaiting | hdone
      · exact hwaiting.2
      · exact absurd ⟨call, hcall, rfl⟩ hdone.1
    · obtain ⟨hnone, hnothing⟩ := hserved.untouched other (Or.inr hlarge)
      exact ⟨fun hstill ↦ hnone ((hwaitsIff other).mp hstill).1, hnothing⟩
  · intro call hcall
    exact hserved.waits call (List.mem_of_mem_filter hcall)

/-- The invariant says nothing about whether the database is open. -/
theorem served_ready {worker : Connections Id Clone} {working : Option ℕ}
    (hserved : worker.Served working) : { worker with ready := true }.Served working where
  contained := hserved.contained
  once := hserved.once
  untouched := hserved.untouched
  waits := hserved.waits
  closed := hserved.closed
  delivered := hserved.delivered

/-- The step lemma: while every request has an entry, each is served. -/
theorem served_step {worker next : Connections Id Clone} {event : ConnectionEvent Id Clone}
    (hserved : worker.Served none) (hknown : worker.KnownKind event)
    (hstep : worker.step event = some next) : next.Served none := by
  cases event with
  | message received calls =>
    obtain rfl := Option.some.inj hstep
    unfold onMessage
    by_cases hdisposed : worker.disposed received.connection = true
    · rw [if_pos hdisposed]
      exact hserved
    · rw [if_neg hdisposed]
      obtain ⟨kind, hkind⟩ := Option.ne_none_iff_exists'.mp (hknown (by simpa using hdisposed))
      simp only [hkind]
      refine served_run (served_receive hserved received) ?_ hkind calls
      exact List.getElem?_concat_length
  | databaseOpened receipt calls =>
    obtain ⟨call, hfind, rfl⟩ := Option.map_eq_some_iff.mp hstep
    have hcall : call ∈ worker.waiting := List.mem_of_find?_eq_some hfind
    obtain rfl : call.receipt = receipt := by simpa using List.find?_some hfind
    obtain ⟨hreceived, hkind⟩ := hserved.waits call hcall
    exact served_settle (served_ready (served_leave hserved ⟨call, hcall, rfl⟩)) hreceived hkind _
  | databaseFailed receipt thrown =>
    obtain ⟨call, hfind, rfl⟩ := Option.map_eq_some_iff.mp hstep
    have hcall : call ∈ worker.waiting := List.mem_of_find?_eq_some hfind
    obtain rfl : call.receipt = receipt := by simpa using List.find?_some hfind
    obtain ⟨hreceived, hkind⟩ := hserved.waits call hcall
    exact served_settle (served_leave hserved ⟨call, hcall, rfl⟩) hreceived hkind _

/-- Before the first request nothing is owed. -/
theorem served_initial : (initial : Connections Id Clone).Served none where
  contained := rfl
  once := fun receipt received hreceived ↦ by cases hreceived
  untouched := fun receipt _ ↦ ⟨fun ⟨_, hcall, _⟩ ↦ (by cases hcall), rfl, rfl⟩
  waits := fun call hcall ↦ by cases hcall
  closed := fun connection hclosed ↦ by cases hclosed
  delivered := fun before post after hsplit ↦ by simp [initial] at hsplit

/-- A request that waits goes on when the opening of its database settles. -/
theorem resumes (worker : Connections Id Clone) {receipt : ℕ} (hwaits : worker.Waits receipt)
    (calls : Calls Clone) (thrown : Thrown) :
    (worker.step (.databaseOpened receipt calls)).isSome ∧
      (worker.step (.databaseFailed receipt thrown)).isSome := by
  obtain ⟨call, hcall, hreceipt⟩ := hwaits
  have hfound : (worker.waiting.find? fun other ↦ other.receipt = receipt).isSome :=
    List.find?_isSome.mpr ⟨call, hcall, decide_eq_true hreceipt⟩
  constructor
  · rw [step, Option.isSome_map]
    exact hfound
  · rw [step, Option.isSome_map]
    exact hfound

/-- The invariant gives what the page relies on. -/
theorem answered_of_served {worker : Connections Id Clone} (hserved : worker.Served none) :
    worker.Answered where
  contained := hserved.contained
  once := fun receipt received hreceived ↦ hserved.once receipt received hreceived (by simp)
  resumes := fun _ hwaits calls thrown ↦ worker.resumes hwaits calls thrown
  asked := by
    intro post hpost
    by_contra hlarge
    obtain ⟨-, -, hreplies⟩ := hserved.untouched post.receipt (Or.inr (not_lt.mp hlarge))
    have hmem : post ∈ worker.replies post.receipt :=
      List.mem_filter.mpr ⟨hpost, decide_eq_true rfl⟩
    rw [hreplies] at hmem
    cases hmem
  delivered := hserved.delivered

/-- An exception that left the listener is never taken back. -/
theorem escaped_step {worker next : Connections Id Clone} {event : ConnectionEvent Id Clone}
    (hstep : worker.step event = some next) (hcontained : next.escaped = []) :
    worker.escaped = [] ∧ worker.KnownKind event := by
  cases event with
  | message received calls =>
    obtain rfl := Option.some.inj hstep
    unfold onMessage at hcontained
    by_cases hdisposed : worker.disposed received.connection = true
    · rw [if_pos hdisposed] at hcontained
      refine ⟨hcontained, fun hlistens ↦ ?_⟩
      rw [hdisposed] at hlistens
      cases hlistens
    · rw [if_neg hdisposed] at hcontained
      cases hkind : handlers received.request.kind with
      | none => simp [hkind] at hcontained
      | some kind =>
        simp only [hkind, run] at hcontained
        refine ⟨?_, fun _ hnone ↦ by rw [hkind] at hnone; cases hnone⟩
        split_ifs at hcontained
        · exact hcontained
        · rwa [settle_escaped] at hcontained
  | databaseOpened receipt calls =>
    obtain ⟨call, -, rfl⟩ := Option.map_eq_some_iff.mp hstep
    rw [settle_escaped] at hcontained
    exact ⟨hcontained, trivial⟩
  | databaseFailed receipt thrown =>
    obtain ⟨call, -, rfl⟩ := Option.map_eq_some_iff.mp hstep
    rw [settle_escaped] at hcontained
    exact ⟨hcontained, trivial⟩

/-- In a run without an exception every request had an entry. -/
theorem runMeets_of_contained {events : List (ConnectionEvent Id Clone)} :
    ∀ {start final : Connections Id Clone}, automaton.run start events = some final →
      final.escaped = [] → start.escaped = [] ∧ automaton.RunMeets KnownKind start events := by
  induction events with
  | nil =>
    intro start final hrun hcontained
    rw [Automaton.run, Option.some.injEq] at hrun
    exact ⟨hrun ▸ hcontained, trivial⟩
  | cons event rest ih =>
    intro start final hrun hcontained
    obtain ⟨next, hnext, hrest⟩ := Option.bind_eq_some_iff.mp hrun
    obtain ⟨hnextContained, hmeets⟩ := ih hrest hcontained
    obtain ⟨hstartContained, hknown⟩ := escaped_step hnext hnextContained
    refine ⟨hstartContained, hknown, fun other hother ↦ ?_⟩
    obtain rfl := Option.some.inj (hnext.symm.trans hother)
    exact hmeets

/-- Every request of a run gets its one envelope exactly when every request that was received has an
entry in the table. -/
theorem answered_iff_runMeets {events : List (ConnectionEvent Id Clone)}
    {final : Connections Id Clone} (hrun : automaton.run initial events = some final) :
    final.Answered ↔ automaton.RunMeets KnownKind initial events := by
  constructor
  · intro hanswered
    exact (runMeets_of_contained hrun hanswered.contained).2
  · intro hmeets
    have hreaches := Automaton.reachesWhere_of_run hrun hmeets
    exact answered_of_served <| hreaches.invariant (fun worker ↦ worker.Served none) served_initial
      fun _ _ _ hserved hknown hstep ↦ served_step hserved hknown hstep

/-- Calls that all succeed. -/
def allReturn : Calls Unit where
  schemaVersion := .ok schemaVersion
  list := .ok ((), ())
  upsert := .ok ()
  get := .ok ()
  archive := .ok ()
  delete := .ok ()
  broadcast := .ok ()

/-- A request waits for the database, a second one finds it open and fails, and the last one closes
the connection. -/
def openSession : List (ConnectionEvent ℕ Unit) :=
  [.message ⟨0, 1, ⟨"getNote", ()⟩⟩ allReturn, .databaseOpened 0 allReturn,
    .message ⟨0, 2, ⟨"deleteNote", ()⟩⟩ { allReturn with delete := .error (.other "invalid id") },
    .message ⟨0, 3, ⟨"close", ()⟩⟩ allReturn, .message ⟨0, 4, ⟨"ping", ()⟩⟩ allReturn]

/-- This session is answered. -/
theorem answered_iff_openSession : ∃ final, automaton.run initial openSession = some final ∧
    final.Answered ∧ final.posts =
      [⟨0, 0, 1, .response (.getNote ()), true⟩, ⟨1, 0, 2, .error "invalid id", true⟩,
        ⟨2, 0, 3, .response .close, true⟩] := by
  obtain ⟨final, hfinal, hposts⟩ := Option.map_eq_some_iff.mp
    (show (automaton.run initial openSession).map posts = some
      [⟨0, 0, 1, .response (.getNote ()), true⟩, ⟨1, 0, 2, .error "invalid id", true⟩,
        ⟨2, 0, 3, .response .close, true⟩] by decide +kernel)
  exact ⟨final, hfinal, (answered_iff_runMeets hfinal).mpr (by decide +kernel), hposts⟩

/-- A request of a kind that this worker does not have gets no reply, and the exception leaves the
listener. -/
theorem not_answered_unknownKind : ∃ final : Connections ℕ Unit,
    automaton.run initial [.message ⟨0, 1, ⟨"searchNotes", ()⟩⟩ allReturn] = some final ∧
      final.received = [⟨0, 1, ⟨"searchNotes", ()⟩⟩] ∧ final.waiting.length = 0 ∧
      final.posts = [] ∧ final.escaped = [0] ∧ ¬ final.Answered := by
  refine ⟨_, rfl, by decide +kernel, by decide +kernel, by decide +kernel, by decide +kernel, ?_⟩
  intro hanswered
  have hcontained := hanswered.contained
  revert hcontained
  decide +kernel

end Connections

end OpfsWebauthn.Storage
