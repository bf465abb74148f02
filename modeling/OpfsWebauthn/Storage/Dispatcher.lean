import Mathlib.Logic.Function.Basic
import OpfsWebauthn.Foundation.Automaton
import OpfsWebauthn.Storage.NoteRepository

/-!
# The dispatcher of the storage worker

`worker-handlers.ts` and `connection.ts`. A dispatcher is shared by any number of connections. It
opens its database at the first request that needs it: `withDb` tests two nullable variables,
awaits `openDatabase()`, and assigns them when the promise settles. A request that arrives while
the promise is pending makes the same test again, so it opens a database of its own.

`DbWorker` is the worker with its connections: the closure variables of `createDispatcher`, the
databases opened so far by the number of the call that opened them, and the requests that are
suspended in an `await`. Next to them stands the history: what was executed on which database, what
was posted, and how the calls of `openDatabase` settled. The spec lemmas at the end say what each
function changes.
-/

set_option autoImplicit false
set_option relaxedAutoImplicit false

namespace OpfsWebauthn.Storage

open Foundation

/-- `SCHEMA_VERSION`. -/
def schemaVersion : ℕ := 1

/-- What a handler did with the repository: the table, the outcome of its promise, and the ids of
the `tx-applied` notifications it broadcast. -/
structure Handled where
  table : NotesTable
  result : Except String WorkerResponse
  broadcasts : List (List String)

/-- Whether a handler goes through `withDb`. -/
def RequestKind.NeedsDb (kind : RequestKind) : Prop :=
  kind ≠ .ping ∧ kind ≠ .close

instance (kind : RequestKind) : Decidable kind.NeedsDb := by
  unfold RequestKind.NeedsDb
  infer_instance

/-- A handler that writes: the notification goes out when the statement succeeded. -/
def Handled.ofWrite (table : NotesTable) (id : String) (response : WorkerResponse)
    (written : Except String NotesTable) : Handled :=
  match written with
  | .ok next => ⟨next, .ok response, [[id]]⟩
  | .error message => ⟨table, .error message, []⟩

/-- A handler that only reads. -/
def Handled.ofRead (table : NotesTable) (result : Except String WorkerResponse) : Handled :=
  ⟨table, result, []⟩

/-- The table of handlers, each with its `withDb` callback. -/
def handle (table : NotesTable) : WorkerRequest → Handled
  | .ping => .ofRead table (.ok .ping)
  | .bootstrap => .ofRead table (.ok (.bootstrap schemaVersion))
  | .listNotes limit cursor includeArchived =>
    .ofRead table <| (NoteRepositorySql.list table ⟨limit, cursor, includeArchived⟩).map
      fun page ↦ .listNotes page.rows page.nextCursor
  | .upsertNote row =>
    .ofWrite table row.id (.upsertNote row) ((NoteRepositorySql.upsert table row).map Prod.fst)
  | .getNote id => .ofRead table ((NoteRepositorySql.get table id).map .getNote)
  | .archiveNote id => .ofWrite table id .archiveNote (NoteRepositorySql.archive table id)
  | .deleteNote id => .ofWrite table id .deleteNote (NoteRepositorySql.delete table id)
  | .close => .ofRead table (.ok .close)

/-- A request that waits in `withDb` for the `openDatabase()` it called. -/
structure Suspended where
  database : ℕ
  connection : ℕ
  envelope : ClientEnvelope
deriving DecidableEq, Repr

/-- A request that ran on a database. -/
structure Execution where
  database : ℕ
  connection : ℕ
  envelope : ClientEnvelope
  result : Except String WorkerResponse

/-- The worker: the variables of the dispatcher, its databases, the suspended requests and the
connections, with the history of the run. -/
structure DbWorker where
  db : Option ℕ
  repo : Option ℕ
  opens : ℕ
  databases : ℕ → NotesTable
  suspended : List Suspended
  disposed : ℕ → Bool
  posted : List (ℕ × ServerEnvelope)
  broadcasts : List (List String)
  executed : List Execution
  opened : List (ℕ × NotesTable)
  failures : ℕ

/-- What can happen: an envelope reaches a port, or a call of `openDatabase` settles. -/
inductive DbWorkerEvent
  | message (connection : ℕ) (envelope : ClientEnvelope)
  | databaseOpened (database : ℕ) (contents : NotesTable)
  | databaseFailed (database : ℕ) (reason : String)

namespace DbWorker

/-- A worker before its first request. -/
def initial : DbWorker where
  db := none
  repo := none
  opens := 0
  databases := fun _ ↦ .empty
  suspended := []
  disposed := fun _ ↦ false
  posted := []
  broadcasts := []
  executed := []
  opened := []
  failures := 0

/-- `Connection.#onMessage` after the dispatch: the envelope with the outcome, and the disposal of
the connection that a `close` asks for. A disposed connection has closed its port. -/
def finish (worker : DbWorker) (connection : ℕ) (envelope : ClientEnvelope)
    (result : Except String WorkerResponse) : DbWorker :=
  let body : ServerBody :=
    match result with
    | .ok response => .response response
    | .error message => .error message
  { worker with
    posted := if worker.disposed connection then worker.posted
      else worker.posted ++ [(connection, ⟨envelope.id, body⟩)]
    disposed := if envelope.request.kind = .close then
        Function.update worker.disposed connection true
      else worker.disposed }

/-- `fn(repo)` and what follows it. -/
def execute (worker : DbWorker) (database connection : ℕ) (envelope : ClientEnvelope) : DbWorker :=
  let handled := handle (worker.databases database) envelope.request
  let worker : DbWorker := { worker with
    databases := Function.update worker.databases database handled.table
    broadcasts := worker.broadcasts ++ handled.broadcasts
    executed := worker.executed ++ [⟨database, connection, envelope, handled.result⟩] }
  worker.finish connection envelope handled.result

/-- `withDb(fn)`. -/
def withDb (worker : DbWorker) (connection : ℕ) (envelope : ClientEnvelope) : DbWorker :=
  match worker.db, worker.repo with
  | some _, some repo => worker.execute repo connection envelope
  | _, _ => { worker with
      opens := worker.opens + 1
      suspended := worker.suspended ++ [⟨worker.opens, connection, envelope⟩] }

/-- `#onMessage` of a connection: the handler of the request's kind. -/
def onMessage (worker : DbWorker) (connection : ℕ) (envelope : ClientEnvelope) : DbWorker :=
  if worker.disposed connection then worker
  else if envelope.request.kind.NeedsDb then worker.withDb connection envelope
  else worker.finish connection envelope (handle .empty envelope.request).result

/-- The continuation of `withDb` after the `await`. -/
def resume (worker : DbWorker) (call : Suspended) (contents : NotesTable) : DbWorker :=
  let worker : DbWorker := { worker with
    databases := Function.update worker.databases call.database contents
    db := some call.database
    repo := some call.database
    suspended := worker.suspended.filter fun other ↦ other.database ≠ call.database
    opened := worker.opened ++ [(call.database, contents)] }
  worker.execute call.database call.connection call.envelope

/-- The rejection of an `openDatabase()` is the outcome of the request that called it. -/
def abandon (worker : DbWorker) (call : Suspended) (reason : String) : DbWorker :=
  let worker : DbWorker := { worker with
    suspended := worker.suspended.filter fun other ↦ other.database ≠ call.database
    failures := worker.failures + 1 }
  worker.finish call.connection call.envelope (.error reason)

/-- The transition function. -/
def step (worker : DbWorker) : DbWorkerEvent → Option DbWorker
  | .message connection envelope => some (worker.onMessage connection envelope)
  | .databaseOpened database contents =>
    (worker.suspended.find? fun call ↦ call.database = database).map fun call ↦
      worker.resume call contents
  | .databaseFailed database reason =>
    (worker.suspended.find? fun call ↦ call.database = database).map fun call ↦
      worker.abandon call reason

/-- The worker as an automaton. -/
def automaton : Automaton DbWorker DbWorkerEvent :=
  ⟨step⟩

section Functions

variable (worker : DbWorker) (connection : ℕ) (envelope : ClientEnvelope)

/-- With a repository, `withDb` runs its callback at once. -/
theorem withDb_ready {worker : DbWorker} {database : ℕ} (hdb : worker.db = some database)
    (hrepo : worker.repo = some database) :
    worker.withDb connection envelope = worker.execute database connection envelope := by
  unfold withDb
  rw [hdb, hrepo]

/-- Without a repository, `withDb` opens a database, whatever is pending. -/
theorem withDb_opens {worker : DbWorker} (hdb : worker.db = none) :
    worker.withDb connection envelope = { worker with
      opens := worker.opens + 1
      suspended := worker.suspended ++ [⟨worker.opens, connection, envelope⟩] } := by
  unfold withDb
  rw [hdb]

/-- A disposed connection does not listen. -/
theorem onMessage_disposed {worker : DbWorker} {connection : ℕ}
    (hdisposed : worker.disposed connection = true) :
    worker.onMessage connection envelope = worker := by
  rw [onMessage, if_pos hdisposed]

/-- A request that needs the database goes through `withDb`. -/
theorem onMessage_needsDb {worker : DbWorker} {connection : ℕ}
    (hlistens : worker.disposed connection = false) {envelope : ClientEnvelope}
    (hneeds : envelope.request.kind.NeedsDb) :
    worker.onMessage connection envelope = worker.withDb connection envelope := by
  rw [onMessage, if_neg (by simp [hlistens]), if_pos hneeds]

/-- Any other request is answered at once. -/
theorem onMessage_direct {worker : DbWorker} {connection : ℕ}
    (hlistens : worker.disposed connection = false) {envelope : ClientEnvelope}
    (hneeds : ¬ envelope.request.kind.NeedsDb) :
    worker.onMessage connection envelope =
      worker.finish connection envelope (handle .empty envelope.request).result := by
  rw [onMessage, if_neg (by simp [hlistens]), if_neg hneeds]

variable (result : Except String WorkerResponse)

@[simp] theorem finish_db : (worker.finish connection envelope result).db = worker.db := rfl

@[simp] theorem finish_repo : (worker.finish connection envelope result).repo = worker.repo := rfl

@[simp] theorem finish_opens :
    (worker.finish connection envelope result).opens = worker.opens := rfl

@[simp] theorem finish_databases :
    (worker.finish connection envelope result).databases = worker.databases := rfl

@[simp] theorem finish_suspended :
    (worker.finish connection envelope result).suspended = worker.suspended := rfl

@[simp] theorem finish_executed :
    (worker.finish connection envelope result).executed = worker.executed := rfl

@[simp] theorem finish_opened :
    (worker.finish connection envelope result).opened = worker.opened := rfl

@[simp] theorem finish_failures :
    (worker.finish connection envelope result).failures = worker.failures := rfl

/-- What `finish` posts. -/
theorem mem_finish_posted {entry : ℕ × ServerEnvelope}
    (hentry : entry ∈ (worker.finish connection envelope result).posted) :
    entry ∈ worker.posted ∨ entry.1 = connection ∧ entry.2.id = envelope.id ∧
      ∀ response, entry.2.body = .response response → result = .ok response := by
  unfold finish at hentry
  dsimp only at hentry
  split_ifs at hentry with hdisposed
  · exact Or.inl hentry
  · rcases List.mem_append.mp hentry with hold | hnew
    · exact Or.inl hold
    · obtain rfl := List.mem_singleton.mp hnew
      refine Or.inr ⟨rfl, rfl, fun response hbody ↦ ?_⟩
      cases result with
      | ok outcome => exact congrArg Except.ok (ServerBody.response.inj hbody)
      | error message => cases hbody

end Functions

/-- The response of a handler has the kind of its request. -/
theorem kind_of_handle {table : NotesTable} {request : WorkerRequest} {response : WorkerResponse}
    (hresult : (handle table request).result = .ok response) : response.kind = request.kind := by
  have hwrite : ∀ (id : String) (answer : WorkerResponse) (written : Except String NotesTable),
      (Handled.ofWrite table id answer written).result = .ok response → response = answer := by
    intro id answer written hwritten
    cases written with
    | ok next => exact (Except.ok.inj hwritten).symm
    | error message => cases hwritten
  have hread : ∀ {α : Type} (answer : α → WorkerResponse) (read : Except String α),
      read.map answer = .ok response → ∃ value, answer value = response := by
    intro α answer read hmap
    cases read with
    | ok value => exact ⟨value, Except.ok.inj hmap⟩
    | error message => cases hmap
  cases request with
  | ping => exact (congrArg WorkerResponse.kind (Except.ok.inj hresult)).symm
  | bootstrap => exact (congrArg WorkerResponse.kind (Except.ok.inj hresult)).symm
  | close => exact (congrArg WorkerResponse.kind (Except.ok.inj hresult)).symm
  | listNotes limit cursor includeArchived =>
    obtain ⟨page, rfl⟩ := hread _ _ hresult
    rfl
  | getNote id =>
    obtain ⟨row, rfl⟩ := hread _ _ hresult
    rfl
  | upsertNote row => rw [hwrite _ _ _ hresult]; rfl
  | archiveNote id => rw [hwrite _ _ _ hresult]; rfl
  | deleteNote id => rw [hwrite _ _ _ hresult]; rfl

end DbWorker

end OpfsWebauthn.Storage
