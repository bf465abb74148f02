import OpfsWebauthn.State.NotesStore

/-!
# The notes in all tabs

The tabs of one vault over one worker: the calls of their `Repo`s change the worker's table one
after the other, and each tab has a notes store of its own, which hears of the writes by
notifications. Tabs open at any time. The events of the tabs and the calls come in any order.

The map of notes that the calls describe is what every tab shows: a settled tab shows the notes of
the map in list order, each as it is read back (`shows_of_settled`), and a tab that reloads while
nobody writes gets there after a bounded number of its own events, whatever the other tabs do
(`exact_of_reload`).
-/

set_option autoImplicit false
set_option relaxedAutoImplicit false

namespace OpfsWebauthn.State

open Foundation Crypto Storage

/-! ### The request of a call -/

section Request

variable (primitives : Primitives) (vault : CryptoVault)

/-- The request that a call of a `Repo` sends, if it gets as far. -/
def request : RepoCall → Option WorkerRequest
  | .upsertNote draw input =>
    match Repo.upsertRow primitives vault draw input with
    | .ok row => some (.upsertNote row)
    | .error _ => none
  | .archiveNote id => some (.archiveNote id)
  | .deleteNote id => some (.deleteNote id)
  | .getNote id => some (.getNote id)
  | .listNotes limit cursor includeArchived =>
    some (.listNotes (limit.getD 50) (cursor.map NoteCursor.text) (includeArchived.getD false))

/-- The worker's table after a call is the table after its request. -/
theorem perform_table (table : NotesTable) (call : RepoCall) :
    (call.perform primitives vault table).1 =
      match request primitives vault call with
      | none => table
      | some request => (handle table request).table := by
  cases call with
  | upsertNote draw input =>
    cases hrow : Repo.upsertRow primitives vault draw input with
    | error message => simp only [RepoCall.perform, Repo.upsertNote, request, hrow]
    | ok row => simp only [RepoCall.perform, Repo.upsertNote, request, hrow, send]
  | _ => rfl

/-- The day that a call writes is the day of the clock, which is exact. -/
theorem writesExactDay_request {call : RepoCall} {sent : WorkerRequest}
    (hsent : request primitives vault call = some sent) :
    NotesWorld.WritesExactDay (.request sent) := by
  cases call with
  | upsertNote draw input =>
    cases hrow : Repo.upsertRow primitives vault draw input with
    | error message =>
      simp only [request, hrow] at hsent
      cases hsent
    | ok row =>
      simp only [request, hrow] at hsent
      rw [← Option.some.inj hsent]
      change NoteRepositorySql.ExactDay row.updatedDay
      rw [(upsertRow_parts hrow).2.1]
      exact exactDay_todayDayBucket draw.now
  | archiveNote id =>
    rw [← Option.some.inj hsent]
    trivial
  | deleteNote id =>
    rw [← Option.some.inj hsent]
    trivial
  | getNote id =>
    rw [← Option.some.inj hsent]
    trivial
  | listNotes limit cursor includeArchived =>
    rw [← Option.some.inj hsent]
    trivial

end Request

/-! ### The tabs -/

/-- What the calls of all tabs have made of the worker's table, and the store of each tab. -/
structure Notebook where
  session : NoteSession
  tabs : List NotesWorld

/-- What can happen: a call of some tab reaches the worker, a tab is opened, or the store of a tab
goes on. -/
inductive NotebookEvent
  | call (call : RepoCall)
  | openTab
  | tab (index : ℕ) (event : NotesEvent)

namespace Notebook

variable (primitives : Primitives) (vault : CryptoVault)

/-- A tab after a request of some tab: the worker has handled it, and has notified every tab. -/
def notified (request : WorkerRequest) (tab : NotesWorld) : NotesWorld := { tab with
  table := (handle tab.table request).table
  undelivered := tab.undelivered + (handle tab.table request).broadcasts.length }

/-- One event. A tab takes part in requests only through the calls. -/
def step (notebook : Notebook) : NotebookEvent → Option Notebook
  | .call call => (notebook.session.step primitives vault call).map fun session ↦
    { session := session
      tabs := match request primitives vault call with
        | none => notebook.tabs
        | some request => notebook.tabs.map (notified request) }
  | .openTab => some { notebook with
      tabs := notebook.tabs ++ [NotesWorld.start notebook.session.table] }
  | .tab _ (.request _) => none
  | .tab index event => notebook.tabs[index]?.bind fun tab ↦
    (NotesWorld.step primitives vault tab event).map fun next ↦
      { notebook with tabs := notebook.tabs.set index next }

/-- The tabs of a vault as a system. -/
def automaton : Automaton Notebook NotebookEvent :=
  ⟨step primitives vault⟩

/-- No note was written, and no tab is open. -/
def fresh : Notebook :=
  ⟨.fresh, []⟩

/-- A call uses ids that upserts have returned, and what it writes can be encrypted. -/
def Admissible (notebook : Notebook) : NotebookEvent → Prop
  | .call call => notebook.session.Admissible primitives vault call
  | _ => True

instance (notebook : Notebook) : DecidablePred (Admissible primitives vault notebook)
  | .call call =>
    inferInstanceAs (Decidable (notebook.session.Admissible primitives vault call))
  | .openTab => .isTrue trivial
  | .tab _ _ => .isTrue trivial

/-- What a tab shows when it shows the map: the notes for its flag in list order, as they are read
back. -/
def shown (map : NoteMap) (includeArchived : Bool) : List Note :=
  (map.listed none includeArchived).map fun entry ↦ readBack (NoteMap.note entry)

variable {primitives : Primitives} {vault : CryptoVault}

/-! ### What every run keeps -/

/-- The worker's rows hold the map, and each tab is one that a run of its store over these rows can
reach. -/
structure Coherent (primitives : Primitives) (vault : CryptoVault) (notebook : Notebook) :
    Prop where
  simulates : notebook.session.Simulates primitives vault
  table : ∀ tab ∈ notebook.tabs, tab.table = notebook.session.table
  reaches : ∀ tab ∈ notebook.tabs, ∃ table, NoteRepositorySql.ExactDays table ∧
    (NotesWorld.automaton primitives vault).ReachesWhere
      (fun _ event ↦ NotesWorld.WritesExactDay event) (NotesWorld.start table) tab

/-- An event of a store that is no request leaves the worker's table as it is. -/
theorem table_of_step {tab next : NotesWorld} {event : NotesEvent}
    (hevent : ∀ request, event ≠ .request request)
    (hstep : NotesWorld.step primitives vault tab event = some next) : next.table = tab.table := by
  cases event with
  | request request => exact absurd rfl (hevent request)
  | deliver =>
    unfold NotesWorld.step at hstep
    dsimp only at hstep
    split_ifs at hstep
    rw [← Option.some.inj hstep]
    rfl
  | reload =>
    rw [← Option.some.inj hstep]
    rfl
  | setShowArchived shown =>
    rw [← Option.some.inj hstep]
    unfold NotesWorld.setShowArchived
    split_ifs
    · rfl
    · rfl
  | serve index =>
    obtain ⟨reload, _, hstep⟩ := Option.bind_eq_some_iff.mp hstep
    split_ifs at hstep
    rw [← Option.some.inj hstep]
  | reject index message =>
    obtain ⟨reload, _, hstep⟩ := Option.bind_eq_some_iff.mp hstep
    split at hstep
    · rw [← Option.some.inj hstep]
    · rw [← Option.some.inj hstep]
    · cases hstep
  | arrive index =>
    obtain ⟨reload, _, hstep⟩ := Option.bind_eq_some_iff.mp hstep
    split at hstep
    · rw [← Option.some.inj hstep]
    · cases hstep
  | complete index =>
    obtain ⟨reload, _, hstep⟩ := Option.bind_eq_some_iff.mp hstep
    split at hstep
    · rw [← Option.some.inj hstep]
    · cases hstep

/-- An event of a store that is no request writes nothing. -/
theorem writesExactDay_of_not_request {event : NotesEvent}
    (hevent : ∀ request, event ≠ .request request) : NotesWorld.WritesExactDay event := by
  cases event with
  | request request => exact absurd rfl (hevent request)
  | _ => trivial

/-- The parts of a step of a tab. -/
theorem step_tab_eq_some_iff {notebook next : Notebook} {index : ℕ} {event : NotesEvent} :
    step primitives vault notebook (.tab index event) = some next ↔
      (∀ request, event ≠ .request request) ∧ ∃ tab after, notebook.tabs[index]? = some tab ∧
        NotesWorld.step primitives vault tab event = some after ∧
        next = { notebook with tabs := notebook.tabs.set index after } := by
  have hparts : ((notebook.tabs[index]?.bind fun tab ↦
      (NotesWorld.step primitives vault tab event).map fun next ↦
        ({ notebook with tabs := notebook.tabs.set index next } : Notebook)) = some next) ↔
      ∃ tab after, notebook.tabs[index]? = some tab ∧
        NotesWorld.step primitives vault tab event = some after ∧
        next = { notebook with tabs := notebook.tabs.set index after } := by
    rw [Option.bind_eq_some_iff]
    refine exists_congr fun tab ↦ ?_
    rw [Option.map_eq_some_iff, ← exists_and_left]
    refine exists_congr fun after ↦ ?_
    rw [and_congr_right_iff, and_congr_right_iff]
    exact fun _ _ ↦ eq_comm
  cases event with
  | request request => exact iff_of_false nofun fun hparts ↦ hparts.1 request rfl
  | _ => exact hparts.trans (and_iff_right nofun).symm

/-- A call, an opened tab and an event of a tab keep the tabs coherent with the map. -/
theorem Coherent.step (hcorrect : primitives.CorrectAead) {notebook next : Notebook}
    (hcoherent : Coherent primitives vault notebook) (event : NotebookEvent)
    (hadmissible : notebook.Admissible primitives vault event)
    (hstep : (automaton primitives vault).step notebook event = some next) :
    Coherent primitives vault next := by
  cases event with
  | call call =>
    change Notebook.step primitives vault notebook (.call call) = some next at hstep
    rw [Notebook.step] at hstep
    obtain ⟨session, hsession, rfl⟩ := Option.map_eq_some_iff.mp hstep
    have hsimulates := (hcoherent.simulates.step hcorrect hadmissible).2 session hsession
    have htable : session.table = (call.perform primitives vault notebook.session.table).1 := by
      rw [← Option.some.inj hsession]
    rw [perform_table] at htable
    refine ⟨hsimulates, ?_, ?_⟩
    · intro tab htab
      dsimp only at htab ⊢
      rw [htable]
      cases hrequest : request primitives vault call with
      | none =>
        rw [hrequest] at htab
        exact hcoherent.table tab htab
      | some request =>
        rw [hrequest] at htab
        obtain ⟨before, hbefore, rfl⟩ := List.mem_map.mp htab
        dsimp only [notified]
        rw [hcoherent.table before hbefore]
    · intro tab htab
      dsimp only at htab
      cases hrequest : request primitives vault call with
      | none =>
        rw [hrequest] at htab
        exact hcoherent.reaches tab htab
      | some request =>
        rw [hrequest] at htab
        obtain ⟨before, hbefore, rfl⟩ := List.mem_map.mp htab
        obtain ⟨table, hdays, hreaches⟩ := hcoherent.reaches before hbefore
        have hexact := writesExactDay_request primitives vault hrequest
        exact ⟨table, hdays, hreaches.tail ⟨.request request, hexact, rfl⟩⟩
  | openTab =>
    obtain rfl := Option.some.inj hstep
    refine ⟨hcoherent.simulates, ?_, ?_⟩
    · intro tab htab
      rcases List.mem_append.mp htab with hold | hnew
      · exact hcoherent.table tab hold
      · rw [List.mem_singleton.mp hnew]
        rfl
    · intro tab htab
      rcases List.mem_append.mp htab with hold | hnew
      · exact hcoherent.reaches tab hold
      · rw [List.mem_singleton.mp hnew]
        exact ⟨notebook.session.table, exactDays_of_holds hcoherent.simulates.holds,
          Relation.ReflTransGen.refl⟩
  | tab index event =>
    obtain ⟨hevent, before, after, hbefore, hafter, rfl⟩ := step_tab_eq_some_iff.mp hstep
    have hmem := List.mem_of_getElem? hbefore
    refine ⟨hcoherent.simulates, ?_, ?_⟩
    · intro tab htab
      rcases List.mem_or_eq_of_mem_set htab with hold | rfl
      · exact hcoherent.table tab hold
      · exact (table_of_step hevent hafter).trans (hcoherent.table before hmem)
    · intro tab htab
      rcases List.mem_or_eq_of_mem_set htab with hold | rfl
      · exact hcoherent.reaches tab hold
      · obtain ⟨table, hdays, hreaches⟩ := hcoherent.reaches before hmem
        have hexact := writesExactDay_of_not_request hevent
        exact ⟨table, hdays, hreaches.tail ⟨event, hexact, hafter⟩⟩

/-- Every state of every run. -/
theorem coherent_of_reaches (hcorrect : primitives.CorrectAead) {notebook : Notebook}
    (hreaches : (automaton primitives vault).ReachesWhere (Admissible primitives vault) fresh
      notebook) : Coherent primitives vault notebook := by
  refine hreaches.invariant (Coherent primitives vault) ?_ ?_
  · exact ⟨NoteSession.simulates_fresh, nofun, nofun⟩
  · intro state event next hstate hadmissible hnext
    exact hstate.step hcorrect event hadmissible hnext

/-- The rows that a listing shows hold the entries that the map lists. -/
theorem forall₂_listed {table : NotesTable} {map : NoteMap}
    (hholds : Holds primitives vault table map) (includeArchived : Bool) :
    List.Forall₂ (RowHolds primitives vault) (NotesWorld.listed includeArchived table)
      (map.listed none includeArchived) := by
  have hpast := forall₂_itemsPast (fun _ _ hrow ↦ RowHolds.listKey hrow) none
    (forall₂_matching hholds includeArchived)
  rwa [NoteRepositorySql.itemsPast_none] at hpast

/-- The notes of the table are what the map shows. -/
theorem eq_shown (hcorrect : primitives.CorrectAead) {table : NotesTable} {map : NoteMap}
    (hholds : Holds primitives vault table map) {includeArchived : Bool} {notes : List Note}
    (hshows : NotesWorld.Shows primitives vault includeArchived table notes) :
    notes = shown map includeArchived := by
  have hnotes : (NotesWorld.listed includeArchived table).mapM (Repo.showNote primitives vault) =
      .ok (shown map includeArchived) := by
    rw [mapM_eq_ok_iff, shown, List.forall₂_map_right_iff]
    exact (forall₂_listed hholds includeArchived).imp fun _ _ hrow ↦ hrow.showNote hcorrect
  exact Except.ok.inj (hshows.symm.trans hnotes)

/-- As many rows match as the map lists entries. -/
theorem length_matching {table : NotesTable} {map : NoteMap}
    (hholds : Holds primitives vault table map) (includeArchived : Bool) :
    (NoteRepositorySql.matching includeArchived table).length =
      (map.listed none includeArchived).length := by
  rw [← (forall₂_listed hholds includeArchived).length_eq, NotesWorld.listed,
    List.length_insertionSort]

/-- The latest reload of a settled tab has published the notes of the map. -/
theorem ready_of_upToDate (hcorrect : primitives.CorrectAead) {notebook : Notebook}
    (hcoherent : Coherent primitives vault notebook) {tab : NotesWorld}
    (htab : tab ∈ notebook.tabs) {last : Reload}
    (hcurrent : NotesWorld.UpToDate primitives vault tab.table tab.state last)
    (hphase : last.phase = .finished) (hshown : last.includeArchived = tab.showArchived)
    (haccepted : last.rejected = false)
    (hfew : (notebook.session.map.listed none tab.showArchived).length ≤ 40000) :
    tab.state = .ready (shown notebook.session.map tab.showArchived) := by
  have hholds := hcoherent.simulates.holds
  unfold NotesWorld.UpToDate at hcurrent
  rw [hphase, hshown, hcoherent.table tab htab] at hcurrent
  rcases hcurrent with (hrejected | hmany) | ⟨notes, hready, hshows⟩
  · rw [haccepted] at hrejected
    cases hrejected
  · rw [hshown, length_matching hholds] at hmany
    omega
  · rw [hready, eq_shown hcorrect hholds hshows]

/-- In every run of all tabs, whatever order calls, notifications, pages and completions come in: a
tab whose notifications are delivered and whose reloads have finished shows exactly the notes of the
map for its flag, in list order, unless a page request of its latest reload was rejected or the map
lists more than 40000 notes. -/
theorem shows_of_settled (hcorrect : primitives.CorrectAead) {notebook : Notebook}
    (hreaches : (automaton primitives vault).ReachesWhere (Admissible primitives vault) fresh
      notebook) {tab : NotesWorld} (htab : tab ∈ notebook.tabs) (hsettled : tab.Settled)
    {last : Reload} (hlast : tab.reloads.getLast? = some last) (haccepted : last.rejected = false)
    (hfew : (notebook.session.map.listed none tab.showArchived).length ≤ 40000) :
    tab.state = .ready (shown notebook.session.map tab.showArchived) := by
  have hcoherent := coherent_of_reaches hcorrect hreaches
  obtain ⟨table, hdays, htabReaches⟩ := hcoherent.reaches tab htab
  obtain ⟨hdelivered, hfinished⟩ := hsettled
  obtain ⟨index, final, hfinal, hindex, hshown, hcurrent⟩ :=
    (NotesWorld.converges_of_reaches hdays htabReaches).upToDate hdelivered
  have hsame : final = last := by
    rw [List.getLast?_eq_getElem?, ← hindex, Nat.add_sub_cancel, hfinal] at hlast
    exact Option.some.inj hlast
  subst hsame
  exact ready_of_upToDate hcorrect hcoherent htab hcurrent
    (hfinished final (List.mem_of_getElem? hfinal)) hshown haccepted hfew

instance (tab : NotesWorld) : Decidable tab.Settled :=
  inferInstanceAs (Decidable (_ ∧ _))

/-- A tab is opened and reads its first page, the first note is saved, another tab is opened, and
the reload of the notification overtakes the first one. -/
def twoTabs : List NotebookEvent :=
  [.openTab, .tab 0 (.serve 0), .call (saveFirst none), .openTab, .tab 1 (.serve 0),
    .tab 0 .deliver, .tab 0 (.serve 1), .tab 1 (.arrive 0), .tab 0 (.arrive 1),
    .tab 0 (.complete 1), .tab 0 (.arrive 0), .tab 0 (.complete 0), .tab 1 (.complete 0)]

/-- Both tabs show the note. -/
theorem shows_of_settled_twoTabs : ∃ notebook,
    (automaton sampleNotes sampleVault).run fresh twoTabs = some notebook ∧
    notebook.tabs.length = 2 ∧
    shown notebook.session.map false = [⟨firstId, jsString "Hi", jsString "Yo", 19675, false⟩] ∧
    ∀ tab ∈ notebook.tabs, tab.state = .ready (shown notebook.session.map tab.showArchived) := by
  have hend : (((automaton sampleNotes sampleVault).run fresh twoTabs).map fun notebook ↦
      (shown notebook.session.map false, notebook.tabs.map fun tab ↦
        (decide tab.Settled, tab.reloads.getLast?.map Reload.rejected, tab.showArchived))) =
      some ([⟨firstId, jsString "Hi", jsString "Yo", 19675, false⟩],
        [(true, some false, false), (true, some false, false)]) := by
    decide +kernel
  obtain ⟨notebook, hrun, hend⟩ := Option.map_eq_some_iff.mp hend
  obtain ⟨hshown, htabs⟩ := Prod.mk.inj hend
  have hadmissible : (automaton sampleNotes sampleVault).RunMeets
      (Admissible sampleNotes sampleVault) fresh twoTabs := by
    decide +kernel
  have hlength := congrArg List.length htabs
  rw [List.length_map] at hlength
  refine ⟨notebook, hrun, hlength, hshown, ?_⟩
  intro tab htab
  have hmem := List.mem_map_of_mem (f := fun tab : NotesWorld ↦
    (decide tab.Settled, tab.reloads.getLast?.map Reload.rejected, tab.showArchived)) htab
  rw [htabs] at hmem
  simp only [List.mem_cons, Prod.mk.injEq, decide_eq_true_eq, List.not_mem_nil, or_false,
    or_self] at hmem
  obtain ⟨hsettled, hrejected, hflag⟩ := hmem
  obtain ⟨last, hlast, haccepted⟩ := Option.map_eq_some_iff.mp hrejected
  refine shows_of_settled correctAead_sampleNotes
    (Automaton.reachesWhere_of_run hrun hadmissible) htab hsettled hlast haccepted ?_
  have hentries := congrArg List.length hshown
  rw [shown, List.length_map] at hentries
  rw [hflag, hentries]
  decide

/-! ### A reload gets there -/

/-- How many events of its own a call of `reload` can still take. -/
def steps (reload : Reload) : ℕ :=
  match reload.phase with
  | .requested => 2 * (maxPages - reload.pages) + 3
  | .answered _ => 2 * (maxPages - reload.pages) + 2
  | .returned _ => 1
  | .finished => 0

/-- How many events of its own a tab can still take while nobody writes. -/
def work (tab : NotesWorld) : ℕ :=
  404 * tab.undelivered + (tab.reloads.map steps).sum

/-- The worker, the channel and the tab do what they have to. -/
def Works : NotesEvent → Prop
  | .deliver => True
  | .serve _ => True
  | .arrive _ => True
  | .complete _ => True
  | _ => False

/-- Nobody writes, and the tab at the index only does what it has to. -/
def Quiet (index : ℕ) : NotebookEvent → Prop
  | .call _ => False
  | .openTab => True
  | .tab other event => other = index → Works event

/-- An event of the tab at the index. -/
def isOwn (index : ℕ) : NotebookEvent → Bool
  | .tab other _ => other = index
  | _ => false

/-- No page request of the reload was rejected. -/
def Accepted (reload : Reload) : Prop :=
  reload.rejected = false ∧ ∀ message, reload.phase ≠ .answered (.error message)

/-- A reload that replaces another changes the steps by its own. -/
theorem sum_steps_set {reloads : List Reload} {index : ℕ} {reload : Reload}
    (hreload : reloads[index]? = some reload) (next : Reload) :
    ((reloads.set index next).map steps).sum + steps reload =
      (reloads.map steps).sum + steps next := by
  induction reloads generalizing index with
  | nil => cases hreload
  | cons first rest ih =>
    cases index with
    | zero =>
      obtain rfl := Option.some.inj hreload
      simp only [List.set_cons_zero, List.map_cons, List.sum_cons]
      omega
    | succ index =>
      have hrest := ih (List.getElem?_cons_succ.symm.trans hreload)
      simp only [List.set_cons_succ, List.map_cons, List.sum_cons]
      omega

/-- A page that arrives takes the reload on. -/
theorem steps_resume {reload : Reload} {page : Except String ListPage}
    (hphase : reload.phase = .answered page) : steps (reload.resume page) < steps reload := by
  have hbefore : steps reload = 2 * (maxPages - reload.pages) + 2 := by
    unfold steps
    rw [hphase]
  rw [hbefore]
  cases page with
  | error message =>
    change 1 < _
    omega
  | ok page =>
    unfold Reload.resume
    dsimp only
    split
    · change 1 < _
      omega
    · change 1 < _
      omega
    · split_ifs with hmore
      · change 2 * (maxPages - (reload.pages + 1)) + 3 < _
        omega
      · change 1 < _
        omega

/-- What the tab does is one step less to do. -/
theorem work_of_step {tab next : NotesWorld} {event : NotesEvent} (hworks : Works event)
    (hstep : NotesWorld.step primitives vault tab event = some next) : work next < work tab := by
  have hset : ∀ {index : ℕ} {reload : Reload} (_ : tab.reloads[index]? = some reload)
      (later : Reload) (state : NotesState), steps later < steps reload →
      work { tab with
        state := state
        reloads := tab.reloads.set index later } < work tab := by
    intro index reload hreload later state hless
    have hsum := sum_steps_set hreload later
    change 404 * tab.undelivered + ((tab.reloads.set index later).map steps).sum <
      404 * tab.undelivered + (tab.reloads.map steps).sum
    omega
  cases event with
  | deliver =>
    change (if tab.undelivered = 0 then none else some _) = some next at hstep
    split_ifs at hstep with hdelivered
    obtain rfl := Option.some.inj hstep
    change 404 * (tab.undelivered - 1) + ((tab.reloads ++ [_]).map steps).sum <
      404 * tab.undelivered + (tab.reloads.map steps).sum
    rw [List.map_append, List.sum_append, List.map_singleton, List.sum_singleton]
    change _ + (_ + 403) < _
    omega
  | serve index =>
    obtain ⟨reload, hreload, hstep⟩ := Option.bind_eq_some_iff.mp hstep
    split_ifs at hstep with hphase
    obtain rfl := Option.some.inj hstep
    refine hset hreload _ tab.state ?_
    unfold steps
    rw [hphase]
    dsimp only
    omega
  | arrive index =>
    obtain ⟨reload, hreload, hstep⟩ := Option.bind_eq_some_iff.mp hstep
    split at hstep
    · next page hphase =>
      obtain rfl := Option.some.inj hstep
      exact hset hreload _ tab.state (steps_resume hphase)
    · cases hstep
  | complete index =>
    obtain ⟨reload, hreload, hstep⟩ := Option.bind_eq_some_iff.mp hstep
    split at hstep
    · next notes hphase =>
      obtain rfl := Option.some.inj hstep
      refine hset hreload _ _ ?_
      unfold steps
      rw [hphase]
      exact Nat.zero_lt_one
    · cases hstep
  | request request => exact hworks.elim
  | reload => exact hworks.elim
  | setShowArchived shown => exact hworks.elim
  | reject index message => exact hworks.elim

/-- A tab that is not settled has something to do. -/
theorem exists_work {tab : NotesWorld} (hunsettled : ¬ tab.Settled) :
    ∃ event, Works event ∧ (NotesWorld.step primitives vault tab event).isSome = true := by
  by_cases hdelivered : tab.undelivered = 0
  · have hrunning : ∃ reload ∈ tab.reloads, reload.phase ≠ .finished := by
      by_contra hnone
      refine hunsettled ⟨hdelivered, fun reload hreload ↦ ?_⟩
      by_contra hphase
      exact hnone ⟨reload, hreload, hphase⟩
    obtain ⟨reload, hmem, hphase⟩ := hrunning
    obtain ⟨index, hreload⟩ := List.mem_iff_getElem?.mp hmem
    cases hcurrent : reload.phase with
    | requested =>
      refine ⟨.serve index, trivial, ?_⟩
      rw [NotesWorld.step, hreload, Option.bind_some, if_pos hcurrent]
      rfl
    | answered page =>
      refine ⟨.arrive index, trivial, ?_⟩
      rw [NotesWorld.step, hreload, Option.bind_some, hcurrent]
      rfl
    | returned notes =>
      refine ⟨.complete index, trivial, ?_⟩
      rw [NotesWorld.step, hreload, Option.bind_some, hcurrent]
      rfl
    | finished => exact absurd hcurrent hphase
  · refine ⟨.deliver, trivial, ?_⟩
    rw [NotesWorld.step, if_neg hdelivered]
    rfl

/-- The worker serves a page for every cursor that it has handed out. -/
theorem exists_page (hcorrect : primitives.CorrectAead) {table : NotesTable} {map : NoteMap}
    (hholds : Holds primitives vault table map) {reload : Reload}
    (hpartway : NotesWorld.Partway primitives vault table reload) :
    ∃ page, Repo.listNotes primitives vault table reload.options = .ok page := by
  obtain ⟨_, last, hcursor, _⟩ := hpartway
  obtain ⟨fetched, hfetched⟩ := NoteRepositorySql.list_isOk (length_of_holds hholds)
    pageSize reload.includeArchived (NoteRepositorySql.cursorWhere_of_denotes hcursor)
  have hrows := (NoteRepositorySql.list_spec (exactDays_of_holds hholds) hcursor hfetched).1
  have hpast := List.forall₂_take (NoteRepositorySql.pageLimit pageSize)
    (forall₂_itemsPast (fun _ _ hrow ↦ RowHolds.listKey hrow) last
      (forall₂_matching hholds reload.includeArchived))
  have hnotes := mapM_eq_ok_iff.mpr (List.forall₂_map_right_iff.mpr
    (hpast.imp fun _ _ hrow ↦ hrow.showNote hcorrect))
  rw [Reload.options, Repo.listNotes_eq]
  exact ⟨_, bind_eq_ok_iff.mpr ⟨fetched, hfetched, by rw [mapM_of_comp hrows hnotes]; rfl⟩⟩

/-- The latest reload is accepted, once every notification is delivered. -/
def Clean (tab : NotesWorld) : Prop :=
  tab.undelivered = 0 → ∀ last, tab.reloads.getLast? = some last → Accepted last

/-- A replaced reload is the latest, or another one is. -/
theorem getLast?_set {reloads : List Reload} {index : ℕ} {reload next last : Reload}
    (hreload : reloads[index]? = some reload)
    (hlast : (reloads.set index next).getLast? = some last) :
    reloads.getLast? = some reload ∧ last = next ∨ reloads.getLast? = some last := by
  rw [List.getLast?_eq_getElem?, List.length_set, List.getElem?_set] at hlast
  rw [List.getLast?_eq_getElem?]
  split_ifs at hlast with hsame hlength
  · rw [← hsame]
    exact .inl ⟨hreload, (Option.some.inj hlast).symm⟩
  · exact .inr hlast

/-- A reload goes on with a page as it was accepted. -/
theorem accepted_resume {reload : Reload} {page : Except String ListPage}
    (hphase : reload.phase = .answered page) (haccepted : Accepted reload) :
    Accepted (reload.resume page) := by
  cases page with
  | error message => exact absurd hphase (haccepted.2 message)
  | ok page =>
    unfold Reload.resume
    dsimp only
    split
    · exact ⟨haccepted.1, nofun⟩
    · exact ⟨haccepted.1, nofun⟩
    · split_ifs
      · exact ⟨haccepted.1, nofun⟩
      · exact ⟨haccepted.1, nofun⟩

/-- What the tab does keeps its latest reload accepted. -/
theorem clean_of_step (hcorrect : primitives.CorrectAead) {tab next : NotesWorld} {map : NoteMap}
    (hholds : Holds primitives vault tab.table map)
    (hconverges : NotesWorld.Converges primitives vault tab) {event : NotesEvent}
    (hworks : Works event) (hstep : NotesWorld.step primitives vault tab event = some next)
    (hclean : Clean tab) : Clean next := by
  cases event with
  | deliver =>
    change (if tab.undelivered = 0 then none else some _) = some next at hstep
    split_ifs at hstep
    obtain rfl := Option.some.inj hstep
    intro _ last hlast
    change (tab.reloads ++ [_]).getLast? = some last at hlast
    rw [List.getLast?_concat] at hlast
    rw [← Option.some.inj hlast]
    exact ⟨rfl, nofun⟩
  | serve index =>
    obtain ⟨reload, hreload, hstep⟩ := Option.bind_eq_some_iff.mp hstep
    split_ifs at hstep with hphase
    obtain rfl := Option.some.inj hstep
    intro hdelivered last hlast
    rcases getLast?_set hreload hlast with ⟨hlatest, rfl⟩ | hother
    · obtain ⟨final, current, hcurrent, hfinal, _, hupToDate⟩ := hconverges.upToDate hdelivered
      rw [List.getLast?_eq_getElem?, ← hfinal, Nat.add_sub_cancel, hcurrent] at hlatest
      obtain rfl := Option.some.inj hlatest
      unfold NotesWorld.UpToDate at hupToDate
      rw [hphase] at hupToDate
      obtain ⟨page, hpage⟩ := exists_page hcorrect hholds hupToDate
      have hrejected := (hclean hdelivered current (by
        rw [List.getLast?_eq_getElem?, ← hfinal, Nat.add_sub_cancel, hcurrent])).1
      rw [hpage]
      exact ⟨hrejected, nofun⟩
    · exact hclean hdelivered last hother
  | arrive index =>
    obtain ⟨reload, hreload, hstep⟩ := Option.bind_eq_some_iff.mp hstep
    split at hstep
    · next page hphase =>
      obtain rfl := Option.some.inj hstep
      intro hdelivered last hlast
      rcases getLast?_set hreload hlast with ⟨hlatest, rfl⟩ | hother
      · exact accepted_resume hphase (hclean hdelivered reload hlatest)
      · exact hclean hdelivered last hother
    · cases hstep
  | complete index =>
    obtain ⟨reload, hreload, hstep⟩ := Option.bind_eq_some_iff.mp hstep
    split at hstep
    · obtain rfl := Option.some.inj hstep
      intro hdelivered last hlast
      rcases getLast?_set hreload hlast with ⟨hlatest, rfl⟩ | hother
      · exact ⟨(hclean hdelivered reload hlatest).1, nofun⟩
      · exact hclean hdelivered last hother
    · cases hstep
  | request request => exact hworks.elim
  | reload => exact hworks.elim
  | setShowArchived shown => exact hworks.elim
  | reject index message => exact hworks.elim

/-- What the tab does leaves its flag. -/
theorem showArchived_of_step {tab next : NotesWorld} {event : NotesEvent} (hworks : Works event)
    (hstep : NotesWorld.step primitives vault tab event = some next) :
    next.showArchived = tab.showArchived := by
  cases event with
  | deliver =>
    change (if tab.undelivered = 0 then none else some _) = some next at hstep
    split_ifs at hstep
    rw [← Option.some.inj hstep]
    rfl
  | serve index =>
    obtain ⟨reload, _, hstep⟩ := Option.bind_eq_some_iff.mp hstep
    split_ifs at hstep
    rw [← Option.some.inj hstep]
  | arrive index =>
    obtain ⟨reload, _, hstep⟩ := Option.bind_eq_some_iff.mp hstep
    split at hstep
    · rw [← Option.some.inj hstep]
    · cases hstep
  | complete index =>
    obtain ⟨reload, _, hstep⟩ := Option.bind_eq_some_iff.mp hstep
    split at hstep
    · rw [← Option.some.inj hstep]
    · cases hstep
  | request request => exact hworks.elim
  | reload => exact hworks.elim
  | setShowArchived shown => exact hworks.elim
  | reject index message => exact hworks.elim

/-- A tab that has reloaded, and how far it is, since nobody writes. -/
structure Underway (primitives : Primitives) (vault : CryptoVault) (session : NoteSession)
    (index : ℕ) (notebook : Notebook) (tab : NotesWorld) : Prop where
  coherent : Coherent primitives vault notebook
  unwritten : notebook.session = session
  place : notebook.tabs[index]? = some tab
  clean : Clean tab

/-- One event while nobody writes: an event of the tab is one less to do, and any other leaves the
tab as it is. -/
theorem Underway.step (hcorrect : primitives.CorrectAead) {session : NoteSession} {index : ℕ}
    {notebook next : Notebook} {tab : NotesWorld}
    (hunderway : Underway primitives vault session index notebook tab) {event : NotebookEvent}
    (hquiet : Quiet index event)
    (hstep : (automaton primitives vault).step notebook event = some next) :
    ∃ after, Underway primitives vault session index next after ∧
      after.showArchived = tab.showArchived ∧
      (if isOwn index event then 1 else 0) + work after ≤ work tab := by
  have hlength : index < notebook.tabs.length :=
    (List.getElem?_eq_some_iff.mp hunderway.place).1
  cases event with
  | call call => exact hquiet.elim
  | openTab =>
    have hcoherent := hunderway.coherent.step hcorrect .openTab trivial hstep
    obtain rfl := Option.some.inj hstep
    refine ⟨tab, ⟨hcoherent, hunderway.unwritten, ?_, hunderway.clean⟩, rfl, ?_⟩
    · exact (List.getElem?_append_left hlength).trans hunderway.place
    · exact (Nat.zero_add _).le
  | tab other event =>
    have hcoherent := hunderway.coherent.step hcorrect (.tab other event) trivial hstep
    obtain ⟨_, before, after, hbefore, hafter, rfl⟩ := step_tab_eq_some_iff.mp hstep
    by_cases hown : other = index
    · subst hown
      obtain rfl : tab = before := Option.some.inj (hunderway.place.symm.trans hbefore)
      have hworks := hquiet rfl
      have hmem := List.mem_of_getElem? hbefore
      have hholds := hunderway.coherent.simulates.holds
      rw [← hunderway.coherent.table tab hmem] at hholds
      obtain ⟨table, hdays, hreaches⟩ := hunderway.coherent.reaches tab hmem
      have hclean := clean_of_step hcorrect hholds (NotesWorld.converges_of_reaches hdays hreaches)
        hworks hafter hunderway.clean
      have hwork := work_of_step hworks hafter
      refine ⟨after, ⟨hcoherent, hunderway.unwritten, List.getElem?_set_self hlength, hclean⟩,
        showArchived_of_step hworks hafter, ?_⟩
      rw [isOwn, if_pos (decide_eq_true rfl)]
      omega
    · refine ⟨tab, ⟨hcoherent, hunderway.unwritten, ?_, hunderway.clean⟩, rfl, ?_⟩
      · exact (List.getElem?_set_ne hown).trans hunderway.place
      · rw [isOwn, if_neg (by simpa using hown)]
        exact (Nat.zero_add _).le

/-- A run while nobody writes. -/
theorem Underway.run (hcorrect : primitives.CorrectAead) {session : NoteSession} {index : ℕ}
    {later : Notebook} {events : List NotebookEvent}
    (hquiet : ∀ event ∈ events, Quiet index event) :
    ∀ {notebook : Notebook} {tab : NotesWorld},
      Underway primitives vault session index notebook tab →
      (automaton primitives vault).run notebook events = some later →
      ∃ after, Underway primitives vault session index later after ∧
        after.showArchived = tab.showArchived ∧
        events.countP (isOwn index) + work after ≤ work tab := by
  induction events with
  | nil =>
    intro notebook tab hunderway hrun
    obtain rfl := Option.some.inj hrun
    exact ⟨tab, hunderway, rfl, (Nat.zero_add _).le⟩
  | cons event rest ih =>
    intro notebook tab hunderway hrun
    obtain ⟨next, hnext, hrest⟩ := Option.bind_eq_some_iff.mp hrun
    obtain ⟨hfirst, hothers⟩ := List.forall_mem_cons.mp hquiet
    obtain ⟨between, hbetween, hflag, hone⟩ := hunderway.step hcorrect hfirst hnext
    obtain ⟨after, hafter, hsame, hmany⟩ := ih hothers hbetween hrest
    refine ⟨after, hafter, hsame.trans hflag, ?_⟩
    rw [List.countP_cons]
    omega

/-- From every state of every run: a tab that calls `reload`, while nobody writes and its page
requests are not rejected, takes at most `work` further events, in whatever order they come and
whatever the other tabs do. As long as it is not settled it has one to take, and when it is settled
it shows exactly the notes of the map for its flag, unless these are more than 40000. -/
theorem exact_of_reload (hcorrect : primitives.CorrectAead) {notebook refreshed later : Notebook}
    (hreaches : (automaton primitives vault).ReachesWhere (Admissible primitives vault) fresh
      notebook) {index : ℕ} {tab : NotesWorld} (htab : notebook.tabs[index]? = some tab)
    (hreload : (automaton primitives vault).step notebook (.tab index .reload) = some refreshed)
    {events : List NotebookEvent} (hquiet : ∀ event ∈ events, Quiet index event)
    (hrun : (automaton primitives vault).run refreshed events = some later)
    (hfew : (notebook.session.map.listed none tab.showArchived).length ≤ 40000) :
    ∃ after, later.tabs[index]? = some after ∧
      events.countP (isOwn index) + work after ≤ work tab + 403 ∧
      (¬ after.Settled → ∃ event next, Works event ∧
        (automaton primitives vault).step later (.tab index event) = some next) ∧
      (after.Settled →
        after.state = .ready (shown notebook.session.map tab.showArchived)) := by
  have hcoherent := (coherent_of_reaches hcorrect hreaches).step hcorrect (.tab index .reload)
    trivial hreload
  change step primitives vault notebook (.tab index .reload) = some refreshed at hreload
  obtain ⟨_, before, reloaded, hbefore, hreloaded, rfl⟩ := step_tab_eq_some_iff.mp hreload
  obtain rfl : tab = before := Option.some.inj (htab.symm.trans hbefore)
  obtain rfl := Option.some.inj hreloaded
  have hwork : work tab.reload = work tab + 403 := by
    change 404 * tab.undelivered + ((tab.reloads ++ [_]).map steps).sum =
      404 * tab.undelivered + (tab.reloads.map steps).sum + 403
    rw [List.map_append, List.sum_append, List.map_singleton, List.sum_singleton, Nat.add_assoc]
    rfl
  have hclean : Clean tab.reload := by
    intro _ last hlast
    change (tab.reloads ++ [_]).getLast? = some last at hlast
    rw [List.getLast?_concat] at hlast
    rw [← Option.some.inj hlast]
    exact ⟨rfl, nofun⟩
  have hunderway : Underway primitives vault notebook.session index
      { notebook with tabs := notebook.tabs.set index tab.reload } tab.reload :=
    ⟨hcoherent, rfl, List.getElem?_set_self (List.getElem?_eq_some_iff.mp htab).1, hclean⟩
  obtain ⟨after, hafter, hflag, hspent⟩ := hunderway.run hcorrect hquiet hrun
  refine ⟨after, hafter.place, hwork ▸ hspent, ?_, ?_⟩
  · intro hunsettled
    obtain ⟨event, hworks, hsome⟩ := @exists_work primitives vault after hunsettled
    obtain ⟨next, hnext⟩ := Option.isSome_iff_exists.mp hsome
    refine ⟨event, _, hworks, step_tab_eq_some_iff.mpr ⟨?_, after, next, hafter.place, hnext, rfl⟩⟩
    rintro request rfl
    exact hworks
  · rintro ⟨hdelivered, hfinished⟩
    have hmem := List.mem_of_getElem? hafter.place
    obtain ⟨table, hdays, htabReaches⟩ := hafter.coherent.reaches after hmem
    obtain ⟨final, last, hlast, hfinal, hshown, hcurrent⟩ :=
      (NotesWorld.converges_of_reaches hdays htabReaches).upToDate hdelivered
    have haccepted := (hafter.clean hdelivered last (by
      rw [List.getLast?_eq_getElem?, ← hfinal, Nat.add_sub_cancel, hlast])).1
    have hready := ready_of_upToDate hcorrect hafter.coherent hmem hcurrent
      (hfinished last (List.mem_of_getElem? hlast)) hshown haccepted
    rw [hafter.unwritten, hflag] at hready
    exact hready hfew

/-- A tab is opened and the first note is saved. -/
def openAndSave : List NotebookEvent :=
  [.openTab, .call (saveFirst none)]

/-- The tab delivers its notification and lets the last of its three reloads overtake the others,
while another tab opens. -/
def quietly : List NotebookEvent :=
  [.tab 0 (.serve 1), .tab 0 .deliver, .openTab, .tab 0 (.serve 2), .tab 0 (.arrive 2),
    .tab 0 (.complete 2), .tab 0 (.serve 0), .tab 0 (.arrive 0), .tab 1 .reload,
    .tab 0 (.complete 0), .tab 0 (.arrive 1), .tab 0 (.complete 1)]

/-- The tab shows the note. -/
theorem exact_of_reload_quietly : ∃ notebook refreshed later after,
    (automaton sampleNotes sampleVault).run fresh openAndSave = some notebook ∧
    (automaton sampleNotes sampleVault).step notebook (.tab 0 .reload) = some refreshed ∧
    (automaton sampleNotes sampleVault).run refreshed quietly = some later ∧
    later.tabs[0]? = some after ∧
    after.state = .ready [⟨firstId, jsString "Hi", jsString "Yo", 19675, false⟩] := by
  have hend : (((automaton sampleNotes sampleVault).run fresh openAndSave).bind fun notebook ↦
      notebook.tabs[0]?.bind fun tab ↦
        ((automaton sampleNotes sampleVault).step notebook (.tab 0 .reload)).bind fun refreshed ↦
          ((automaton sampleNotes sampleVault).run refreshed quietly).map fun later ↦
            (shown notebook.session.map tab.showArchived,
              later.tabs[0]?.map fun after ↦ decide after.Settled)) =
      some ([⟨firstId, jsString "Hi", jsString "Yo", 19675, false⟩], some true) := by
    decide +kernel
  obtain ⟨notebook, hnotebook, hend⟩ := Option.bind_eq_some_iff.mp hend
  obtain ⟨tab, htab, hend⟩ := Option.bind_eq_some_iff.mp hend
  obtain ⟨refreshed, hrefreshed, hend⟩ := Option.bind_eq_some_iff.mp hend
  obtain ⟨later, hlater, hend⟩ := Option.map_eq_some_iff.mp hend
  obtain ⟨hshown, hsettled⟩ := Prod.mk.inj hend
  have hadmissible : (automaton sampleNotes sampleVault).RunMeets
      (Admissible sampleNotes sampleVault) fresh openAndSave := by
    decide +kernel
  have hquiet : ∀ event ∈ quietly, Quiet 0 event := by
    simp [quietly, Quiet, Works]
  have hentries := congrArg List.length hshown
  rw [shown, List.length_map] at hentries
  obtain ⟨after, hafter, _, _, hexact⟩ := exact_of_reload correctAead_sampleNotes
    (Automaton.reachesWhere_of_run hnotebook hadmissible) htab hrefreshed hquiet hlater (by
      rw [hentries]
      decide)
  rw [hafter, Option.map_some, Option.some.injEq, decide_eq_true_eq] at hsettled
  refine ⟨notebook, refreshed, later, after, hnotebook, hrefreshed, hlater, hafter, ?_⟩
  rw [hexact hsettled, hshown]

end Notebook

end OpfsWebauthn.State
