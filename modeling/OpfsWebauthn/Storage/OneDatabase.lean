import OpfsWebauthn.Foundation.Histories
import OpfsWebauthn.Storage.Dispatcher

/-!
# When the dispatcher opens one database

`OneDatabase` is the purpose of the lazy opening: `openDatabase` is called once, and once more for
each of its rejections, every request runs on the same database, each result is what the handler
makes of the table that the requests before it left, and a response that a client received is the
result of such a run.

`Lazy` is the invariant of the runs in which no request that needs the database arrives while no
database is open and a call of `openDatabase` is pending. These runs achieve the purpose, and the
first step that is not one of them misses it (`not_oneDatabase_of_not_arrivesAlone`):
`oneDatabase_iff_runMeets` puts the two together. Later the purpose can be met again, when calls are
rejected; `runMeets_of_opens` says that it is not when none is.
-/

set_option autoImplicit false
set_option relaxedAutoImplicit false

namespace OpfsWebauthn.Storage.DbWorker

open Foundation

/-- The table that a list of executions leaves. -/
def tableAfter (table : NotesTable) (executions : List Execution) : NotesTable :=
  executions.foldl (fun table execution ↦ (handle table execution.envelope.request).table) table

/-- Every result is what the handler of the request makes of the table that the executions before
it left. -/
def Sequential (table : NotesTable) (executions : List Execution) : Prop :=
  ∀ before execution after, executions = before ++ execution :: after →
    execution.result = (handle (tableAfter table before) execution.envelope.request).result

/-- A response that was posted for a request on the database is the result of its run. -/
def Acknowledged (worker : DbWorker) : Prop :=
  ∀ entry ∈ worker.posted, ∀ response, entry.2.body = .response response →
    response.kind.NeedsDb → ∃ execution ∈ worker.executed,
      execution.connection = entry.1 ∧ execution.envelope.id = entry.2.id ∧
        execution.result = .ok response

/-- The purpose of `withDb`. -/
structure OneDatabase (worker : DbWorker) : Prop where
  /-- `openDatabase` is called once, and again only for a call that was rejected. -/
  once : worker.opens ≤ 1 + worker.failures
  /-- All requests ran on the same database. -/
  same : ∀ first ∈ worker.executed, ∀ second ∈ worker.executed,
    first.database = second.database
  /-- The database a request ran on is one that `openDatabase` returned. -/
  returned : ∀ execution ∈ worker.executed, ∃ contents,
    (execution.database, contents) ∈ worker.opened
  /-- The requests ran one after the other on what `openDatabase` returned. -/
  sequential : ∀ entry ∈ worker.opened, Sequential entry.2 worker.executed
  /-- A response that was posted for a request on the database is the result of its run. -/
  acknowledged : Acknowledged worker

/-- The condition on a step: a request that needs the database does not arrive while none is open
and a call of `openDatabase` is pending. -/
def ArrivesAlone (worker : DbWorker) : DbWorkerEvent → Prop
  | .message connection envelope =>
    worker.disposed connection = false → envelope.request.kind.NeedsDb → worker.db = none →
      worker.suspended = []
  | .databaseOpened _ _ => True
  | .databaseFailed _ _ => True

instance (worker : DbWorker) (event : DbWorkerEvent) : Decidable (worker.ArrivesAlone event) := by
  cases event <;> unfold ArrivesAlone <;> infer_instance

/-- Executing one more request. -/
theorem tableAfter_concat (table : NotesTable) (executions : List Execution)
    (last : Execution) :
    tableAfter table (executions ++ [last]) =
      (handle (tableAfter table executions) last.envelope.request).table := by
  rw [tableAfter, List.foldl_append]
  rfl

/-- A list of executions stays sequential when one more is run on the table it left. -/
theorem sequential_concat {table : NotesTable} {executions : List Execution}
    (hsequential : Sequential table executions) {last : Execution}
    (hlast : last.result =
      (handle (tableAfter table executions) last.envelope.request).result) :
    Sequential table (executions ++ [last]) := by
  intro before execution after hsplit
  rcases split_concat hsplit with ⟨rfl, rfl, -⟩ | ⟨inner, hexecutions, -⟩
  · exact hlast
  · exact hsequential before execution inner hexecutions

/-! ### The condition is enough -/

/-- The invariant of the runs that meet the condition. -/
structure Lazy (worker : DbWorker) : Prop where
  /-- The two variables of `withDb` change together. -/
  agree : worker.repo = worker.db
  /-- Before a database is open at most one request waits for one. -/
  unopened : worker.db = none →
    worker.suspended.length ≤ 1 ∧ worker.executed = [] ∧ worker.opened = []
  /-- With an open database nothing waits, and all that ran, ran on it. -/
  ready : ∀ database, worker.db = some database → worker.suspended = [] ∧ ∃ contents,
    worker.opened = [(database, contents)] ∧
      (∀ execution ∈ worker.executed, execution.database = database) ∧
      Sequential contents worker.executed ∧
      worker.databases database = tableAfter contents worker.executed
  /-- Every call of `openDatabase` is pending, was rejected, or returned a database. -/
  counted : worker.opens = worker.suspended.length + worker.opened.length + worker.failures

/-- The invariant says nothing about what is posted. -/
theorem lazy_finish {worker : DbWorker} (hlazy : Lazy worker) (connection : ℕ)
    (envelope : ClientEnvelope) (result : Except String WorkerResponse) :
    Lazy (worker.finish connection envelope result) where
  agree := hlazy.agree
  unopened := hlazy.unopened
  ready := hlazy.ready
  counted := hlazy.counted

/-- Running a request on the open database keeps the invariant. -/
theorem lazy_execute {worker : DbWorker} (hlazy : Lazy worker) {database : ℕ}
    (hdb : worker.db = some database) (connection : ℕ) (envelope : ClientEnvelope) :
    Lazy (worker.execute database connection envelope) := by
  unfold execute
  apply lazy_finish
  refine ⟨hlazy.agree, fun hnone ↦ ?_, fun other hother ↦ ?_, hlazy.counted⟩
  · have hsome : worker.db = none := hnone
    rw [hdb] at hsome
    cases hsome
  · obtain rfl : database = other := Option.some.inj (hdb.symm.trans hother)
    obtain ⟨hsuspended, contents, hopened, hdatabase, hsequential, htable⟩ :=
      hlazy.ready database hdb
    refine ⟨hsuspended, contents, hopened, ?_, ?_, ?_⟩
    · intro execution hexecution
      rcases List.mem_append.mp hexecution with hold | hnew
      · exact hdatabase execution hold
      · rw [List.mem_singleton.mp hnew]
    · apply sequential_concat hsequential
      rw [htable]
    · rw [tableAfter_concat]
      simp only [Function.update_self]
      rw [htable]

/-- A pending call, when none is open, is the only one. -/
theorem suspended_eq_singleton {worker : DbWorker} (hlazy : Lazy worker) {database : ℕ}
    {call : Suspended}
    (hcall : (worker.suspended.find? fun other ↦ other.database = database) = some call) :
    worker.db = none ∧ worker.suspended = [call] := by
  have hmem : call ∈ worker.suspended := List.mem_of_find?_eq_some hcall
  cases hdb : worker.db with
  | some other =>
    rw [(hlazy.ready other hdb).1] at hmem
    cases hmem
  | none =>
    refine ⟨rfl, ?_⟩
    obtain ⟨other, hother⟩ := List.length_eq_one_iff.mp
      (le_antisymm (hlazy.unopened hdb).1 (List.length_pos_of_mem hmem))
    rw [hother] at hmem ⊢
    rw [List.mem_singleton.mp hmem]

/-- A step that meets the condition keeps the invariant. -/
theorem lazy_step {worker next : DbWorker} {event : DbWorkerEvent} (hlazy : Lazy worker)
    (halone : worker.ArrivesAlone event) (hstep : worker.step event = some next) :
    Lazy next := by
  cases event with
  | message connection envelope =>
    rw [step, Option.some.injEq] at hstep
    subst hstep
    by_cases hlistens : worker.disposed connection = true
    · rw [onMessage_disposed envelope hlistens]
      exact hlazy
    · rw [Bool.not_eq_true] at hlistens
      by_cases hneeds : envelope.request.kind.NeedsDb
      · rw [onMessage_needsDb hlistens hneeds]
        cases hdb : worker.db with
        | some database =>
          rw [withDb_ready connection envelope hdb (hlazy.agree.trans hdb)]
          exact lazy_execute hlazy hdb connection envelope
        | none =>
          rw [withDb_opens connection envelope hdb]
          have hnothing := halone hlistens hneeds hdb
          obtain ⟨-, hexecuted, hopened⟩ := hlazy.unopened hdb
          have hcounted := hlazy.counted
          rw [hnothing, hopened] at hcounted
          refine ⟨hlazy.agree, fun _ ↦ ⟨?_, hexecuted, hopened⟩, fun other hother ↦ ?_, ?_⟩
          · rw [hnothing]
            exact le_refl 1
          · have hsome : worker.db = some other := hother
            rw [hdb] at hsome
            cases hsome
          · simp only [hnothing, hopened, List.nil_append, List.length_singleton, List.length_nil]
              at hcounted ⊢
            omega
      · rw [onMessage_direct hlistens hneeds]
        exact lazy_finish hlazy connection envelope _
  | databaseOpened database contents =>
    rw [step, Option.map_eq_some_iff] at hstep
    obtain ⟨call, hcall, rfl⟩ := hstep
    obtain ⟨hdb, hsuspended⟩ := suspended_eq_singleton hlazy hcall
    obtain ⟨-, hexecuted, hopened⟩ := hlazy.unopened hdb
    have hcounted := hlazy.counted
    rw [hsuspended, hopened] at hcounted
    unfold resume
    refine lazy_execute ⟨rfl, fun hnone ↦ ?_, fun other hother ↦ ?_, ?_⟩ rfl _ _
    · cases hnone
    · obtain rfl : call.database = other := Option.some.inj hother
      refine ⟨by simp [hsuspended], contents, by simp [hopened], ?_, ?_, ?_⟩
      · simp [hexecuted]
      · intro before execution after hsplit
        simp [hexecuted] at hsplit
      · simp [hexecuted, tableAfter]
    · simp only [hsuspended, hopened, List.length_append, List.length_singleton, List.length_nil]
        at hcounted ⊢
      simp only [ne_eq, not_true_eq_false, decide_false, Bool.false_eq_true, not_false_eq_true,
        List.filter_cons_of_neg, List.filter_nil, List.length_nil]
      omega
  | databaseFailed database reason =>
    rw [step, Option.map_eq_some_iff] at hstep
    obtain ⟨call, hcall, rfl⟩ := hstep
    obtain ⟨hdb, hsuspended⟩ := suspended_eq_singleton hlazy hcall
    obtain ⟨-, hexecuted, hopened⟩ := hlazy.unopened hdb
    have hcounted := hlazy.counted
    rw [hsuspended, hopened] at hcounted
    unfold abandon
    apply lazy_finish
    refine ⟨hlazy.agree, fun _ ↦ ⟨by simp [hsuspended], hexecuted, hopened⟩,
      fun other hother ↦ ?_, ?_⟩
    · have hsome : worker.db = some other := hother
      rw [hdb] at hsome
      cases hsome
    · simp only [hsuspended, hopened, ne_eq, not_true_eq_false, decide_false, Bool.false_eq_true,
        not_false_eq_true, List.filter_cons_of_neg, List.filter_nil, List.length_nil,
        List.length_singleton] at hcounted ⊢
      omega

/-- Posting an outcome is justified when it is that of a run, or of no request on the database. -/
theorem acknowledged_finish {worker : DbWorker} (hacknowledged : Acknowledged worker)
    (connection : ℕ) (envelope : ClientEnvelope) (result : Except String WorkerResponse)
    (hresult : ∀ response, result = .ok response → response.kind.NeedsDb →
      ∃ execution ∈ worker.executed, execution.connection = connection ∧
        execution.envelope.id = envelope.id ∧ execution.result = .ok response) :
    Acknowledged (worker.finish connection envelope result) := by
  intro entry hentry response hbody hneeds
  rcases mem_finish_posted worker connection envelope result hentry with hold | hnew
  · exact hacknowledged entry hold response hbody hneeds
  · obtain ⟨hconnection, hid, houtcome⟩ := hnew
    rw [hconnection, hid]
    exact hresult response (houtcome response hbody) hneeds

/-- Running a request keeps what is posted justified. -/
theorem acknowledged_execute {worker : DbWorker} (hacknowledged : Acknowledged worker)
    (database connection : ℕ) (envelope : ClientEnvelope) :
    Acknowledged (worker.execute database connection envelope) := by
  unfold execute
  apply acknowledged_finish
  · intro entry hentry response hbody hneeds
    obtain ⟨execution, hexecution, hrest⟩ := hacknowledged entry hentry response hbody hneeds
    exact ⟨execution, List.mem_append_left _ hexecution, hrest⟩
  · intro response hresponse _
    exact ⟨_, List.mem_append_right _ (List.mem_singleton_self _), rfl, rfl, hresponse⟩

/-- Every step keeps what is posted justified. -/
theorem acknowledged_step {worker next : DbWorker} {event : DbWorkerEvent}
    (hacknowledged : Acknowledged worker) (hstep : worker.step event = some next) :
    Acknowledged next := by
  cases event with
  | message connection envelope =>
    rw [step, Option.some.injEq] at hstep
    subst hstep
    by_cases hlistens : worker.disposed connection = true
    · rw [onMessage_disposed envelope hlistens]
      exact hacknowledged
    · rw [Bool.not_eq_true] at hlistens
      by_cases hneeds : envelope.request.kind.NeedsDb
      · rw [onMessage_needsDb hlistens hneeds]
        unfold withDb
        split
        · exact acknowledged_execute hacknowledged _ connection envelope
        · exact hacknowledged
      · rw [onMessage_direct hlistens hneeds]
        refine acknowledged_finish hacknowledged _ _ _ fun response hresponse hkind ↦ ?_
        rw [kind_of_handle hresponse] at hkind
        exact absurd hkind hneeds
  | databaseOpened database contents =>
    rw [step, Option.map_eq_some_iff] at hstep
    obtain ⟨call, -, rfl⟩ := hstep
    unfold resume
    apply acknowledged_execute
    exact hacknowledged
  | databaseFailed database reason =>
    rw [step, Option.map_eq_some_iff] at hstep
    obtain ⟨call, -, rfl⟩ := hstep
    unfold abandon
    apply acknowledged_finish
    · exact hacknowledged
    · intro response hresponse _
      cases hresponse

/-- The two invariants give the purpose. -/
theorem oneDatabase_of_lazy {worker : DbWorker} (hlazy : Lazy worker)
    (hacknowledged : Acknowledged worker) : OneDatabase worker := by
  have hcounted := hlazy.counted
  cases hdb : worker.db with
  | none =>
    obtain ⟨hlength, hexecuted, hopened⟩ := hlazy.unopened hdb
    rw [hopened, List.length_nil] at hcounted
    refine ⟨by omega, ?_, ?_, ?_, hacknowledged⟩
    · simp [hexecuted]
    · simp [hexecuted]
    · simp [hopened]
  | some database =>
    obtain ⟨hsuspended, contents, hopened, hdatabase, hsequential, -⟩ :=
      hlazy.ready database hdb
    rw [hsuspended, hopened, List.length_nil, List.length_singleton] at hcounted
    refine ⟨by omega, ?_, ?_, ?_, hacknowledged⟩
    · intro first hfirst second hsecond
      rw [hdatabase first hfirst, hdatabase second hsecond]
    · intro execution hexecution
      rw [hdatabase execution hexecution, hopened]
      exact ⟨contents, List.mem_singleton_self _⟩
    · intro entry hentry
      rw [hopened, List.mem_singleton] at hentry
      rw [hentry]
      exact hsequential

/-- A new worker is lazy. -/
theorem lazy_initial : Lazy initial where
  agree := rfl
  unopened := fun _ ↦ ⟨by decide, rfl, rfl⟩
  ready := fun _ hsome ↦ by cases hsome
  counted := rfl

/-- A run whose steps all meet the condition achieves the purpose. -/
theorem oneDatabase_of_runMeets {events : List DbWorkerEvent} {final : DbWorker}
    (hrun : automaton.run initial events = some final)
    (hmeets : automaton.RunMeets ArrivesAlone initial events) : OneDatabase final := by
  have hreaches := Automaton.reachesWhere_of_run hrun hmeets
  have hlazy : Lazy final :=
    hreaches.invariant Lazy lazy_initial fun _ _ _ hlazy halone hstep ↦
      lazy_step hlazy halone hstep
  have hacknowledged : Acknowledged final :=
    hreaches.invariant Acknowledged (by simp [Acknowledged, initial])
      fun _ _ _ hacknowledged _ hstep ↦ acknowledged_step hacknowledged hstep
  exact oneDatabase_of_lazy hlazy hacknowledged

/-! ### The condition is necessary -/

/-- The pending calls of `openDatabase` are among those made. -/
def Numbered (worker : DbWorker) : Prop :=
  ∀ call ∈ worker.suspended, call.database < worker.opens

/-- Every step keeps the pending calls among those made, and no step takes a call back. -/
theorem numbered_step {worker next : DbWorker} {event : DbWorkerEvent}
    (hnumbered : Numbered worker) (hstep : worker.step event = some next) :
    Numbered next ∧ worker.opens ≤ next.opens := by
  cases event with
  | message connection envelope =>
    rw [step, Option.some.injEq] at hstep
    subst hstep
    by_cases hlistens : worker.disposed connection = true
    · rw [onMessage_disposed envelope hlistens]
      exact ⟨hnumbered, le_refl _⟩
    · rw [Bool.not_eq_true] at hlistens
      by_cases hneeds : envelope.request.kind.NeedsDb
      · rw [onMessage_needsDb hlistens hneeds]
        unfold withDb
        split
        · exact ⟨hnumbered, le_refl _⟩
        · refine ⟨fun call hcall ↦ ?_, Nat.le_succ _⟩
          rcases List.mem_append.mp hcall with hold | hnew
          · exact Nat.lt_succ_of_lt (hnumbered call hold)
          · rw [List.mem_singleton.mp hnew]
            exact Nat.lt_succ_self _
      · rw [onMessage_direct hlistens hneeds]
        exact ⟨hnumbered, le_refl _⟩
  | databaseOpened database contents =>
    rw [step, Option.map_eq_some_iff] at hstep
    obtain ⟨call, -, rfl⟩ := hstep
    exact ⟨fun other hother ↦ hnumbered other (List.mem_of_mem_filter hother), le_refl _⟩
  | databaseFailed database reason =>
    rw [step, Option.map_eq_some_iff] at hstep
    obtain ⟨call, -, rfl⟩ := hstep
    exact ⟨fun other hother ↦ hnumbered other (List.mem_of_mem_filter hother), le_refl _⟩

/-- The number of calls never goes down along a run. -/
theorem opens_le_of_run {events : List DbWorkerEvent} {start final : DbWorker}
    (hnumbered : Numbered start) (hrun : automaton.run start events = some final) :
    start.opens ≤ final.opens := by
  induction events generalizing start with
  | nil =>
    rw [Automaton.run, Option.some.injEq] at hrun
    rw [hrun]
  | cons event rest ih =>
    obtain ⟨next, hnext, hrest⟩ := Option.bind_eq_some_iff.mp hrun
    obtain ⟨hnumberedNext, hle⟩ := numbered_step hnumbered hnext
    exact hle.trans (ih hnumberedNext hrest)

/-- A step that does not meet the condition makes a second call. -/
theorem opens_of_not_arrivesAlone {worker next : DbWorker} {event : DbWorkerEvent}
    (hnumbered : Numbered worker) (halone : ¬ worker.ArrivesAlone event)
    (hstep : worker.step event = some next) : 2 ≤ next.opens := by
  cases event with
  | message connection envelope =>
    unfold ArrivesAlone at halone
    push Not at halone
    obtain ⟨hlistens, hneeds, hdb, hpending⟩ := halone
    rw [step, Option.some.injEq, onMessage_needsDb hlistens hneeds, withDb_opens _ _ hdb] at hstep
    subst hstep
    obtain ⟨call, hcall⟩ := List.exists_mem_of_ne_nil _ hpending
    have hcalled := hnumbered call hcall
    show 2 ≤ worker.opens + 1
    omega
  | databaseOpened database contents => exact absurd trivial halone
  | databaseFailed database reason => exact absurd trivial halone

/-- A run that calls `openDatabase` at most once meets the condition at every step. -/
theorem runMeets_of_opens {events : List DbWorkerEvent} {start final : DbWorker}
    (hnumbered : Numbered start) (hrun : automaton.run start events = some final)
    (hopens : final.opens ≤ 1) : automaton.RunMeets ArrivesAlone start events := by
  induction events generalizing start with
  | nil => trivial
  | cons event rest ih =>
    obtain ⟨next, hnext, hrest⟩ := Option.bind_eq_some_iff.mp hrun
    obtain ⟨hnumberedNext, -⟩ := numbered_step hnumbered hnext
    have hle := opens_le_of_run hnumberedNext hrest
    constructor
    · by_contra halone
      have htwice := opens_of_not_arrivesAlone hnumbered halone hnext
      omega
    · intro other hother
      have hsame : automaton.step start event = some other := hother
      rw [hnext, Option.some.injEq] at hsame
      exact hsame ▸ ih hnumberedNext hrest

/-- The first step of a run that does not meet the condition calls `openDatabase` once more than it
was rejected. -/
theorem not_oneDatabase_of_not_arrivesAlone {worker : DbWorker} {event : DbWorkerEvent}
    (hlazy : Lazy worker) (halone : ¬ worker.ArrivesAlone event) :
    ∃ next, worker.step event = some next ∧ ¬ OneDatabase next := by
  cases event with
  | message connection envelope =>
    refine ⟨_, rfl, fun hone ↦ ?_⟩
    unfold ArrivesAlone at halone
    push Not at halone
    obtain ⟨hlistens, hneeds, hdb, hpending⟩ := halone
    have honce := hone.once
    rw [onMessage_needsDb hlistens hneeds, withDb_opens _ _ hdb] at honce
    -- the pending call, and those that were rejected
    have hcounted := hlazy.counted
    have hpositive := List.length_pos_of_ne_nil hpending
    change worker.opens + 1 ≤ 1 + worker.failures at honce
    omega
  | databaseOpened database contents => exact absurd trivial halone
  | databaseFailed database reason => exact absurd trivial halone

/-- In every state of a run the dispatcher has served all requests from one database, opened once,
exactly when no request that needs the database arrives while none is open and a call of
`openDatabase` is pending. When no call is rejected, the last state alone tells. -/
theorem oneDatabase_iff_runMeets {events : List DbWorkerEvent} {final : DbWorker}
    (hrun : automaton.run initial events = some final) :
    (automaton.Always OneDatabase initial events ↔
      automaton.RunMeets ArrivesAlone initial events) ∧
      (final.failures = 0 →
        (OneDatabase final ↔ automaton.RunMeets ArrivesAlone initial events)) := by
  refine ⟨Automaton.always_iff_runMeets (fun worker ↦ Lazy worker ∧ Acknowledged worker) ?_ ?_ ?_
    ⟨lazy_initial, by simp [Acknowledged, initial]⟩, fun hfailures ↦ ⟨fun hone ↦ ?_,
      oneDatabase_of_runMeets hrun⟩⟩
  · exact fun worker hboth ↦ oneDatabase_of_lazy hboth.1 hboth.2
  · exact fun worker event next hboth halone hstep ↦
      ⟨lazy_step hboth.1 halone hstep, acknowledged_step hboth.2 hstep⟩
  · exact fun worker event hboth halone ↦ not_oneDatabase_of_not_arrivesAlone hboth.1 halone
  have hopens : final.opens ≤ 1 := by
    have honce := hone.once
    omega
  refine runMeets_of_opens (fun call hcall ↦ ?_) hrun hopens
  cases hcall

/-- One tab opens the database before a second tab writes and reads. -/
def oneTabFirst : List DbWorkerEvent :=
  [.message 0 ⟨1, .bootstrap⟩, .databaseOpened 0 .empty,
    .message 1 ⟨1, .archiveNote "00000000000000000000000000"⟩,
    .message 1 ⟨2, .listNotes 50 none false⟩]

/-- This run meets the condition, and uses one database. -/
theorem oneDatabase_iff_runMeets_oneTabFirst :
    ∃ final, automaton.run initial oneTabFirst = some final ∧ final.executed.length = 3 ∧
      OneDatabase final := by
  have hrun : automaton.run initial oneTabFirst = some _ := rfl
  have halways := (oneDatabase_iff_runMeets hrun).1.mpr (by decide)
  exact ⟨_, hrun, rfl, halways oneTabFirst (List.prefix_refl _) _ hrun⟩

/-- Two tabs that start together get a database each. -/
theorem not_oneDatabase_twoTabs :
    ∃ final, automaton.run initial [.message 0 ⟨1, .bootstrap⟩, .message 1 ⟨1, .bootstrap⟩,
        .databaseOpened 0 .empty, .databaseOpened 1 .empty] = some final ∧
      final.failures = 0 ∧ final.opens = 2 ∧ final.executed.map Execution.database = [0, 1] ∧
      ¬ OneDatabase final := by
  refine ⟨_, rfl, rfl, rfl, rfl, fun hone ↦ ?_⟩
  exact absurd hone.once (by decide)

end OpfsWebauthn.Storage.DbWorker
