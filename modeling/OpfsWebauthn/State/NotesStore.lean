import OpfsWebauthn.Foundation.Automaton
import OpfsWebauthn.Storage.NoteMap
import OpfsWebauthn.Storage.Paging

/-!
# The notes store

`notes-store.ts` of one tab, over the worker and the other tabs. A reload pages through the notes by
`loadAllNotes`, one request at a time, and publishes what it found when it is still the latest. Any
number of reloads can be on their way at once. The worker serves their page requests between the
writes of all tabs, the responses and the rejections come in any order, and each write sends one
notification, whose delivery starts a reload.

`settled_exact` says that the store shows the current notes once every notification is delivered and
every reload has finished. It follows the cursors of the listing, so the days have to be exact.
-/

set_option autoImplicit false
set_option relaxedAutoImplicit false

namespace OpfsWebauthn.State

open Foundation Crypto Storage

/-! ### The store -/

/-- `PAGE_SIZE`. -/
def pageSize : ℤ := 200

/-- `MAX_PAGES`. -/
def maxPages : ℕ := 200

/-- `NotesState`. -/
inductive NotesState
  | loading
  | ready (notes : List Note)
  | error (message : String)
deriving DecidableEq, Repr

/-- Where a call of `reload` is suspended: it awaits a page that the worker has not served, a page
that is on its way back, or `loadAllNotes`, which has settled. -/
inductive ReloadPhase
  | requested
  | answered (page : Except String ListPage)
  | returned (notes : Except String (List Note))
  | finished
deriving DecidableEq

/-- A call of `reload` with the variables of its `loadAllNotes`, and whether a page request of it
was rejected. -/
structure Reload where
  generation : ℕ
  includeArchived : Bool
  collected : List Note
  cursor : Option String
  pages : ℕ
  phase : ReloadPhase
  rejected : Bool
deriving DecidableEq

namespace Reload

/-- `loadAllNotes(repo, includeArchived)` up to its first request. -/
def begin (generation : ℕ) (includeArchived : Bool) : Reload where
  generation := generation
  includeArchived := includeArchived
  collected := []
  cursor := none
  pages := 0
  phase := .requested
  rejected := false

/-- The options of the page request. -/
def options (reload : Reload) : ListOptions :=
  ⟨some pageSize, reload.cursor, some reload.includeArchived⟩

/-- The rest of a pass of the loop, with the settled page, up to the next request. -/
def resume (reload : Reload) : Except String ListPage → Reload
  | .error message => { reload with
      phase := .returned (.error message)
      rejected := true }
  | .ok page =>
    let collected := reload.collected ++ page.notes
    match page.nextCursor with
    | none => { reload with
        collected := collected
        phase := .returned (.ok collected) }
    | some "" => { reload with
        collected := collected
        phase := .returned (.ok collected) }
    | some cursor =>
      if reload.pages + 1 < maxPages then { reload with
        collected := collected
        cursor := some cursor
        pages := reload.pages + 1
        phase := .requested }
      else { reload with
        collected := collected
        phase := .returned (.error "refused to load past 40000 notes; add a paged view") }

/-- A reload keeps its number and its filter. -/
theorem resume_same (reload : Reload) (page : Except String ListPage) :
    (reload.resume page).generation = reload.generation ∧
      (reload.resume page).includeArchived = reload.includeArchived := by
  cases page with
  | error message => exact ⟨rfl, rfl⟩
  | ok page =>
    unfold resume
    dsimp only
    split
    · exact ⟨rfl, rfl⟩
    · exact ⟨rfl, rfl⟩
    · split_ifs
      · exact ⟨rfl, rfl⟩
      · exact ⟨rfl, rfl⟩

end Reload

/-- The worker's table, the notifications on their way to the tab, the store, and the calls of
`reload`, oldest first. -/
structure NotesWorld where
  table : NotesTable
  undelivered : ℕ
  state : NotesState
  showArchived : Bool
  generation : ℕ
  reloads : List Reload

/-- What can happen: the worker handles a request of some tab, a notification is delivered, the tab
calls a method of the store, or the reload at an index goes on. -/
inductive NotesEvent
  | request (request : WorkerRequest)
  | deliver
  | reload
  | setShowArchived (shown : Bool)
  | serve (index : ℕ)
  | reject (index : ℕ) (message : String)
  | arrive (index : ℕ)
  | complete (index : ℕ)

namespace NotesWorld

variable (primitives : Primitives) (vault : CryptoVault)

/-- `reload()` up to its first request. -/
def reload (world : NotesWorld) : NotesWorld := { world with
  generation := world.generation + 1
  reloads := world.reloads ++ [.begin (world.generation + 1) world.showArchived] }

/-- `setShowArchived(show)`. -/
def setShowArchived (world : NotesWorld) (shown : Bool) : NotesWorld :=
  if world.showArchived = shown then world
  else { world with showArchived := shown }.reload

/-- The rest of `reload()`, once `loadAllNotes` has settled: only the latest publishes. -/
def publish (world : NotesWorld) (generation : ℕ) (notes : Except String (List Note)) :
    NotesState :=
  if world.generation = generation then
    match notes with
    | .ok notes => .ready notes
    | .error message => .error message
  else world.state

/-- One event. -/
def step (world : NotesWorld) : NotesEvent → Option NotesWorld
  | .request request =>
    let handled := handle world.table request
    some { world with
      table := handled.table
      undelivered := world.undelivered + handled.broadcasts.length }
  | .deliver =>
    if world.undelivered = 0 then none
    else some { world with undelivered := world.undelivered - 1 }.reload
  | .reload => some world.reload
  | .setShowArchived shown => some (world.setShowArchived shown)
  | .serve index => world.reloads[index]?.bind fun reload ↦
    if reload.phase = .requested then
      some { world with reloads := world.reloads.set index { reload with
        phase := .answered (Repo.listNotes primitives vault world.table reload.options) } }
    else none
  | .reject index message => world.reloads[index]?.bind fun reload ↦
    match reload.phase with
    | .requested => some { world with
        reloads := world.reloads.set index { reload with phase := .answered (.error message) } }
    | .answered _ => some { world with
        reloads := world.reloads.set index { reload with phase := .answered (.error message) } }
    | _ => none
  | .arrive index => world.reloads[index]?.bind fun reload ↦
    match reload.phase with
    | .answered page => some { world with reloads := world.reloads.set index (reload.resume page) }
    | _ => none
  | .complete index => world.reloads[index]?.bind fun reload ↦
    match reload.phase with
    | .returned notes => some { world with
        state := world.publish reload.generation notes
        reloads := world.reloads.set index { reload with phase := .finished } }
    | _ => none

/-- The store with the worker and the other tabs as a system. -/
def automaton : Automaton NotesWorld NotesEvent :=
  ⟨step primitives vault⟩

/-- `createNotesStore(repo)`: the first reload has started. -/
def start (table : NotesTable) : NotesWorld :=
  reload ⟨table, 0, .loading, false, 0, []⟩

/-- The day that a request writes, if any, is exact. -/
def WritesExactDay : NotesEvent → Prop
  | .request (.upsertNote row) => NoteRepositorySql.ExactDay row.updatedDay
  | _ => True

instance (event : NotesEvent) : Decidable (WritesExactDay event) := by
  unfold WritesExactDay
  split <;> infer_instance

/-- Every notification is delivered and every reload has finished. -/
def Settled (world : NotesWorld) : Prop :=
  world.undelivered = 0 ∧ ∀ reload ∈ world.reloads, reload.phase = .finished

variable {primitives : Primitives} {vault : CryptoVault}

/-! ### What a reload has read -/

/-- The rows that a listing shows, in its order. -/
def listed (includeArchived : Bool) (table : NotesTable) : List (Bytes × NoteColumns) :=
  (NoteRepositorySql.matching includeArchived table).insertionSort NoteRepositorySql.Precedes

/-- These are the notes of the table, in list order. -/
def Shows (primitives : Primitives) (vault : CryptoVault) (includeArchived : Bool)
    (table : NotesTable) (notes : List Note) : Prop :=
  (listed includeArchived table).mapM (Repo.showNote primitives vault) = .ok notes

/-- What a reload has collected is the front of the listing, in full pages up to its cursor. -/
def Partway (primitives : Primitives) (vault : CryptoVault) (table : NotesTable)
    (reload : Reload) : Prop :=
  ∃ rows last, NoteRepositorySql.CursorDenotes reload.cursor last ∧
    rows.mapM (Repo.showNote primitives vault) = .ok reload.collected ∧
    rows ++ itemsPast NoteRepositorySql.sortKey last
      (NoteRepositorySql.matching reload.includeArchived table) =
        listed reload.includeArchived table ∧
    rows.length = 200 * reload.pages ∧ reload.pages < maxPages

/-- The reload has failed, or it has more notes to read than it may. -/
def Refused (table : NotesTable) (reload : Reload) : Prop :=
  reload.rejected = true ∨
    40000 < (NoteRepositorySql.matching reload.includeArchived table).length

/-- What a reload knows, when the table has not changed since it began. -/
def UpToDate (primitives : Primitives) (vault : CryptoVault) (table : NotesTable)
    (state : NotesState) (reload : Reload) : Prop :=
  match reload.phase with
  | .requested => Partway primitives vault table reload
  | .answered (.error _) => True
  | .answered (.ok page) => Partway primitives vault table reload ∧
    Repo.listNotes primitives vault table reload.options = .ok page
  | .returned (.error _) => Refused table reload
  | .returned (.ok notes) => Shows primitives vault reload.includeArchived table notes
  | .finished => Refused table reload ∨ ∃ notes, state = .ready notes ∧
    Shows primitives vault reload.includeArchived table notes

/-- A reload that begins has read nothing yet. -/
theorem upToDate_begin (table : NotesTable) (state : NotesState) (generation : ℕ)
    (includeArchived : Bool) :
    UpToDate primitives vault table state (.begin generation includeArchived) :=
  ⟨[], none, .start, rfl, NoteRepositorySql.itemsPast_none _, rfl, Nat.zero_lt_succ _⟩

/-- The worker serves a page of the current table. -/
theorem upToDate_serve {table : NotesTable} {state : NotesState} {reload : Reload}
    (hphase : reload.phase = .requested)
    (hreload : UpToDate primitives vault table state reload) :
    UpToDate primitives vault table state { reload with
      phase := .answered (Repo.listNotes primitives vault table reload.options) } := by
  unfold UpToDate at hreload
  rw [hphase] at hreload
  cases hpage : Repo.listNotes primitives vault table reload.options with
  | error message => trivial
  | ok page => exact ⟨hreload, hpage⟩

/-- A page that arrives brings the reload on. -/
theorem upToDate_resume {table : NotesTable} {state : NotesState} {reload : Reload}
    {page : Except String ListPage} (hdays : NoteRepositorySql.ExactDays table)
    (hphase : reload.phase = .answered page)
    (hreload : UpToDate primitives vault table state reload) :
    UpToDate primitives vault table state (reload.resume page) := by
  cases page with
  | error message => exact .inl rfl
  | ok page =>
    unfold UpToDate at hreload
    rw [hphase] at hreload
    obtain ⟨⟨rows, last, hcursor, hcollected, hrows, hlength, hpages⟩, hpage⟩ := hreload
    obtain ⟨hnotes, hnext⟩ := Repo.listNotes_spec hdays hcursor hpage
    have hlimit : NoteRepositorySql.pageLimit pageSize = 200 := by decide
    rw [hlimit] at hnotes hnext
    have hread := mapM_append_eq_ok hcollected hnotes
    unfold Reload.resume
    dsimp only
    split
    · next hnull =>
      -- the last page has all that was left
      rw [hnull] at hnext
      rw [keysetPage_eq_itemsPast (by decide) hnext.eq_none, hrows] at hread
      exact hread
    · next hempty =>
      rw [hempty] at hnext
      exact absurd rfl hnext.ne_empty
    · next text _ htext =>
      rw [htext] at hnext
      obtain ⟨bound, hbound⟩ := hnext.exists_last
      rw [hbound] at hnext
      have hmore := (keysetNext_eq_some_iff.mp hbound).1
      have hpageLength : (keysetPage NoteRepositorySql.sortKey 200 last
          (NoteRepositorySql.matching reload.includeArchived table)).length = 200 := by
        rw [keysetPage, List.length_take]
        omega
      by_cases hmorePages : reload.pages + 1 < maxPages
      · rw [if_pos hmorePages]
        rw [itemsPast_eq_append (NoteRepositorySql.nodup_sortKey _ table) hbound,
          ← List.append_assoc] at hrows
        refine ⟨_, bound, hnext, hread, hrows, ?_, hmorePages⟩
        rw [List.length_append, hlength, hpageLength]
        exact (Nat.mul_succ 200 reload.pages).symm
      · rw [if_neg hmorePages]
        have hall := congrArg List.length hrows
        rw [List.length_append, hlength, listed, List.length_insertionSort] at hall
        refine .inr ?_
        change 40000 < (NoteRepositorySql.matching reload.includeArchived table).length
        unfold maxPages at hpages hmorePages
        omega

/-! ### The latest reload -/

/-- The days are exact, the reloads are numbered in the order in which they began, and the latest
began after the last write unless a notification is still on its way. -/
structure Converges (primitives : Primitives) (vault : CryptoVault) (world : NotesWorld) :
    Prop where
  days : NoteRepositorySql.ExactDays world.table
  numbered : ∀ index reload, world.reloads[index]? = some reload → reload.generation = index + 1
  latest : world.generation = world.reloads.length
  upToDate : world.undelivered = 0 → ∃ index last, world.reloads[index]? = some last ∧
    index + 1 = world.reloads.length ∧ last.includeArchived = world.showArchived ∧
    UpToDate primitives vault world.table world.state last

/-- A reload that begins is the latest. -/
theorem converges_reload {world : NotesWorld}
    (hdays : NoteRepositorySql.ExactDays world.table)
    (hnumbered : ∀ index reload, world.reloads[index]? = some reload →
      reload.generation = index + 1)
    (hlatest : world.generation = world.reloads.length) :
    Converges primitives vault world.reload := by
  refine ⟨hdays, ?_, ?_, fun _ ↦ ?_⟩
  · intro index reload hreload
    change (world.reloads ++ [Reload.begin (world.generation + 1) world.showArchived])[index]? =
      some reload at hreload
    by_cases hold : index < world.reloads.length
    · rw [List.getElem?_append_left hold] at hreload
      exact hnumbered index reload hreload
    · rw [List.getElem?_append_right (Nat.not_lt.mp hold)] at hreload
      rw [List.getElem?_singleton] at hreload
      split_ifs at hreload with hzero
      rw [← Option.some.inj hreload]
      change world.generation + 1 = index + 1
      omega
  · change world.generation + 1 = (world.reloads ++ [_]).length
    rw [List.length_append, hlatest]
    rfl
  · refine ⟨world.reloads.length, .begin (world.generation + 1) world.showArchived,
      List.getElem?_concat_length, ?_, rfl, upToDate_begin _ _ _ _⟩
    change world.reloads.length + 1 = (world.reloads ++ [_]).length
    rw [List.length_append]
    rfl

/-- A reload goes on. Only the latest may change what the store shows. -/
theorem Converges.set {world : NotesWorld} (hconverges : Converges primitives vault world)
    {index : ℕ} {reload : Reload} (hreload : world.reloads[index]? = some reload) (next : Reload)
    (hgeneration : next.generation = reload.generation)
    (hfilter : next.includeArchived = reload.includeArchived) (state : NotesState)
    (hstate : world.generation ≠ reload.generation → state = world.state)
    (hnext : world.generation = reload.generation →
      UpToDate primitives vault world.table world.state reload →
      UpToDate primitives vault world.table state next) :
    Converges primitives vault { world with
      state := state
      reloads := world.reloads.set index next } := by
  have hnumber := hconverges.numbered index reload hreload
  refine ⟨hconverges.days, ?_, ?_, ?_⟩
  · intro other changed hchanged
    change (world.reloads.set index next)[other]? = some changed at hchanged
    rw [List.getElem?_set] at hchanged
    split_ifs at hchanged with hsame hlength
    · rw [← Option.some.inj hchanged, hgeneration, hnumber, hsame]
    · exact hconverges.numbered other changed hchanged
  · change world.generation = (world.reloads.set index next).length
    rw [List.length_set]
    exact hconverges.latest
  · intro hdelivered
    obtain ⟨final, last, hlast, hfinal, hshown, hcurrent⟩ := hconverges.upToDate hdelivered
    by_cases hsame : index = final
    · subst hsame
      obtain rfl : last = reload := Option.some.inj (hlast.symm.trans hreload)
      have hlatest : world.generation = last.generation := by
        rw [hconverges.latest, hnumber, hfinal]
      refine ⟨index, next, List.getElem?_set_self (by omega), ?_, hfilter.trans hshown,
        hnext hlatest hcurrent⟩
      exact hfinal.trans (List.length_set).symm
    · have hstale : world.generation ≠ reload.generation := by
        rw [hconverges.latest, hnumber]
        omega
      rw [hstate hstale]
      refine ⟨final, last, ?_, ?_, hshown, hcurrent⟩
      · exact (List.getElem?_set_ne hsame).trans hlast
      · exact hfinal.trans (List.length_set).symm

/-- A request that sends no notification leaves the table as it is. -/
theorem table_of_silent {table : NotesTable} {request : WorkerRequest}
    (hsilent : (handle table request).broadcasts = []) : (handle table request).table = table := by
  have hwrite : ∀ (id : String) (response : WorkerResponse) (written : Except String NotesTable),
      (Handled.ofWrite table id response written).broadcasts = [] →
        (Handled.ofWrite table id response written).table = table := by
    intro id response written hnone
    cases written with
    | error message => rfl
    | ok next => cases hnone
  cases request with
  | upsertNote row => exact hwrite _ _ _ hsilent
  | archiveNote id => exact hwrite _ _ _ hsilent
  | deleteNote id => exact hwrite _ _ _ hsilent
  | _ => rfl

/-- A request that writes an exact day leaves the days exact. -/
theorem exactDays_handle {table : NotesTable} (hdays : NoteRepositorySql.ExactDays table)
    {request : WorkerRequest} (hexact : WritesExactDay (.request request)) :
    NoteRepositorySql.ExactDays (handle table request).table := by
  have hwritten : ∀ (id : String) (response : WorkerResponse) (written : Except String NotesTable),
      (Handled.ofWrite table id response written).table = written.toOption.getD table := by
    intro id response written
    cases written with
    | error message => rfl
    | ok next => rfl
  have happlied : ∀ write : NoteRepositorySql.NoteWrite, write.Exact →
      NoteRepositorySql.ExactDays (write.apply table) :=
    fun write hwrite ↦ @NoteRepositorySql.ExactDays.foldl [write] table hdays
      (List.forall_mem_singleton.mpr hwrite)
  cases request with
  | upsertNote row =>
    rw [handle, hwritten]
    exact happlied (.upsert row) hexact
  | archiveNote id =>
    rw [handle, hwritten]
    exact happlied (.archive id) trivial
  | deleteNote id =>
    rw [handle, hwritten]
    exact happlied (.delete id) trivial
  | _ => exact hdays

theorem Converges.step {world next : NotesWorld} {event : NotesEvent}
    (hconverges : Converges primitives vault world) (hexact : WritesExactDay event)
    (hstep : (automaton primitives vault).step world event = some next) :
    Converges primitives vault next := by
  cases event with
  | request request =>
    obtain rfl := Option.some.inj hstep
    refine ⟨exactDays_handle hconverges.days hexact, hconverges.numbered, hconverges.latest,
      fun hdelivered ↦ ?_⟩
    change world.undelivered + (handle world.table request).broadcasts.length = 0 at hdelivered
    have hsilent : (handle world.table request).broadcasts = [] :=
      List.eq_nil_of_length_eq_zero (by omega)
    rw [show ({ world with
      table := (handle world.table request).table
      undelivered := world.undelivered + (handle world.table request).broadcasts.length } :
        NotesWorld).table = world.table from table_of_silent hsilent]
    exact hconverges.upToDate (by omega)
  | deliver =>
    change (if world.undelivered = 0 then none else some _) = some next at hstep
    split_ifs at hstep
    obtain rfl := Option.some.inj hstep
    exact converges_reload hconverges.days hconverges.numbered hconverges.latest
  | reload =>
    obtain rfl := Option.some.inj hstep
    exact converges_reload hconverges.days hconverges.numbered hconverges.latest
  | setShowArchived shown =>
    obtain rfl := Option.some.inj hstep
    unfold NotesWorld.setShowArchived
    split_ifs
    · exact hconverges
    · exact converges_reload hconverges.days hconverges.numbered hconverges.latest
  | serve index =>
    obtain ⟨reload, hreload, hstep⟩ := Option.bind_eq_some_iff.mp hstep
    split_ifs at hstep with hphase
    obtain rfl := Option.some.inj hstep
    exact hconverges.set hreload { reload with
      phase := .answered (Repo.listNotes primitives vault world.table reload.options) }
      rfl rfl world.state (fun _ ↦ rfl) (fun _ hcurrent ↦ upToDate_serve hphase hcurrent)
  | reject index message =>
    obtain ⟨reload, hreload, hstep⟩ := Option.bind_eq_some_iff.mp hstep
    split at hstep
    · obtain rfl := Option.some.inj hstep
      exact hconverges.set hreload { reload with phase := .answered (.error message) }
        rfl rfl world.state (fun _ ↦ rfl) (fun _ _ ↦ trivial)
    · obtain rfl := Option.some.inj hstep
      exact hconverges.set hreload { reload with phase := .answered (.error message) }
        rfl rfl world.state (fun _ ↦ rfl) (fun _ _ ↦ trivial)
    · cases hstep
  | arrive index =>
    obtain ⟨reload, hreload, hstep⟩ := Option.bind_eq_some_iff.mp hstep
    split at hstep
    · next page hphase =>
      obtain rfl := Option.some.inj hstep
      obtain ⟨hgeneration, hfilter⟩ := reload.resume_same page
      exact hconverges.set hreload _ hgeneration hfilter world.state (fun _ ↦ rfl)
        (fun _ hcurrent ↦ upToDate_resume hconverges.days hphase hcurrent)
    · cases hstep
  | complete index =>
    obtain ⟨reload, hreload, hstep⟩ := Option.bind_eq_some_iff.mp hstep
    split at hstep
    · next notes hphase =>
      obtain rfl := Option.some.inj hstep
      refine hconverges.set hreload { reload with phase := .finished } rfl rfl
        (world.publish reload.generation notes) ?_ ?_
      · intro hstale
        exact if_neg hstale
      · intro hlatest hcurrent
        unfold UpToDate at hcurrent
        rw [hphase] at hcurrent
        unfold publish
        rw [if_pos hlatest]
        cases notes with
        | error message => exact .inl hcurrent
        | ok notes => exact .inr ⟨notes, rfl, hcurrent⟩
    · cases hstep

/-- Every state of every run of the store. -/
theorem converges_of_reaches {table : NotesTable} {world : NotesWorld}
    (hdays : NoteRepositorySql.ExactDays table)
    (hreaches : (automaton primitives vault).ReachesWhere (fun _ event ↦ WritesExactDay event)
      (start table) world) : Converges primitives vault world := by
  refine hreaches.invariant (Converges primitives vault) ?_ ?_
  · apply converges_reload hdays
    · intro index reload hreload
      cases hreload
    · rfl
  · intro state event next hstate hexact hnext
    exact hstate.step hexact hnext

/-- Notes that are shown for different rows have different ids. -/
theorem nodup_ids {includeArchived : Bool} {table : NotesTable} {notes : List Note}
    (hshows : Shows primitives vault includeArchived table notes) :
    (notes.map Note.id).Nodup := by
  have hkeys : (listed includeArchived table).Pairwise fun row other ↦ row.1 ≠ other.1 := by
    have htable : table.entries.Pairwise fun row other ↦ row.1 ≠ other.1 :=
      List.pairwise_map.mp table.nodup_keys
    have hperm := List.perm_insertionSort NoteRepositorySql.Precedes
      (NoteRepositorySql.matching includeArchived table)
    exact (hperm.pairwise_iff fun hne ↦ Ne.symm hne).mpr (htable.sublist List.filter_sublist)
  have hforall := mapM_eq_ok_iff.mp hshows
  rw [List.Nodup, List.pairwise_map]
  clear hshows
  generalize listed includeArchived table = rows at hkeys hforall
  induction hforall with
  | nil => exact List.Pairwise.nil
  | @cons row note rows notes hnote hnotes ih =>
    rw [List.pairwise_cons] at hkeys ⊢
    refine ⟨?_, ih hkeys.2⟩
    intro other hother hsame
    obtain ⟨otherRow, hotherRow, hotherNote⟩ :=
      exists_of_mem_mapM (mapM_eq_ok_iff.mpr hnotes) hother
    apply hkeys.1 otherRow hotherRow
    have hid := Repo.encode_of_showNote hnote
    have hotherId := Repo.encode_of_showNote hotherNote
    rw [hsame] at hid
    exact Except.ok.inj ((RowId.decode_encode hid).symm.trans (RowId.decode_encode hotherId))

/-- In every run of the store over exact days, whatever order requests, notifications, pages and
completions come in: once every notification is delivered and every reload has finished, the store
shows exactly the current notes for its flag, in list order, unless a page request of the latest
reload was rejected or more than 40000 notes match. -/
theorem settled_exact {table : NotesTable} {world : NotesWorld}
    (hdays : NoteRepositorySql.ExactDays table)
    (hreaches : (automaton primitives vault).ReachesWhere (fun _ event ↦ WritesExactDay event)
      (start table) world)
    (hsettled : world.Settled) {last : Reload} (hlast : world.reloads.getLast? = some last)
    (haccepted : last.rejected = false)
    (hfew : (NoteRepositorySql.matching world.showArchived world.table).length ≤ 40000) :
    ∃ notes, world.state = .ready notes ∧
      ((NoteRepositorySql.matching world.showArchived world.table).insertionSort
        NoteRepositorySql.Precedes).mapM (Repo.showNote primitives vault) = .ok notes ∧
      (notes.map Note.id).Nodup := by
  obtain ⟨hdelivered, hfinished⟩ := hsettled
  obtain ⟨index, final, hfinal, hindex, hshown, hcurrent⟩ :=
    (converges_of_reaches hdays hreaches).upToDate hdelivered
  have hsame : final = last := by
    rw [List.getLast?_eq_getElem?, ← hindex, Nat.add_sub_cancel, hfinal] at hlast
    exact Option.some.inj hlast
  subst hsame
  unfold UpToDate at hcurrent
  rw [hfinished final (List.mem_of_getElem? hfinal), hshown] at hcurrent
  rcases hcurrent with (hrejected | hmany) | ⟨notes, hready, hshows⟩
  · rw [haccepted] at hrejected
    cases hrejected
  · rw [hshown] at hmany
    omega
  · exact ⟨notes, hready, hshows, nodup_ids hshows⟩

/-- The row of a note, as a tab sends it. -/
def firstRow : EncryptedNoteRow where
  id := firstId
  updatedDay := 19675
  archived := false
  titleNonce := (repeated 12 0xa1).val
  titleCiphertext := bytesOf 18 0x3dcb3c5b29e058f223114e5082ab961c936e
  bodyNonce := (repeated 12 0xa2).val
  bodyCiphertext := bytesOf 18 0x026d5877d20f80ccb4ea954a7cd68d466aee

/-- The first reload reads its page before a note is written, and the reload of the notification
overtakes it. -/
def overtaken : List NotesEvent :=
  [.serve 0, .request (.upsertNote firstRow), .deliver, .serve 1, .arrive 1, .complete 1,
    .arrive 0, .complete 0]

theorem settled_exact_overtaken : ∃ world,
    (automaton sampleNotes sampleVault).run (start .empty) overtaken = some world ∧
    world.state = .ready [⟨firstId, jsString "Hi", jsString "Yo", 19675, false⟩] ∧
    ∃ notes, world.state = .ready notes ∧
      ((NoteRepositorySql.matching world.showArchived world.table).insertionSort
        NoteRepositorySql.Precedes).mapM (Repo.showNote sampleNotes sampleVault) = .ok notes ∧
      (notes.map Note.id).Nodup := by
  have hend : (((automaton sampleNotes sampleVault).run (start .empty) overtaken).map fun world ↦
      (world.state, world.undelivered, world.reloads.map fun reload ↦
          (decide (reload.phase = .finished), reload.rejected),
        (NoteRepositorySql.matching world.showArchived world.table).length)) =
      some (.ready [⟨firstId, jsString "Hi", jsString "Yo", 19675, false⟩], 0,
        [(true, false), (true, false)], 1) := by
    decide +kernel
  obtain ⟨world, hrun, hend⟩ := Option.map_eq_some_iff.mp hend
  obtain ⟨hstate, hend⟩ := Prod.mk.inj hend
  obtain ⟨hdelivered, hend⟩ := Prod.mk.inj hend
  obtain ⟨hreloads, hmatching⟩ := Prod.mk.inj hend
  have hfinished : ∀ reload ∈ world.reloads,
      reload.phase = .finished ∧ reload.rejected = false := by
    intro reload hreload
    have hmem := List.mem_map_of_mem (f := fun reload : Reload ↦
      (decide (reload.phase = .finished), reload.rejected)) hreload
    rw [hreloads] at hmem
    simp only [List.mem_cons, Prod.mk.injEq, decide_eq_true_eq, List.not_mem_nil, or_false,
      or_self] at hmem
    exact hmem
  have hnonempty : world.reloads ≠ [] := by
    intro hempty
    rw [hempty] at hreloads
    cases hreloads
  have hlast := List.getLast?_eq_some_getLast hnonempty
  have hexact : (automaton sampleNotes sampleVault).RunMeets
      (fun _ event ↦ WritesExactDay event) (start .empty) overtaken := by decide +kernel
  refine ⟨world, hrun, hstate, settled_exact (by decide) (Automaton.reachesWhere_of_run hrun hexact)
    ⟨hdelivered, fun reload hreload ↦ (hfinished reload hreload).1⟩ hlast
    (hfinished _ (List.getLast_mem hnonempty)).2 ?_⟩
  rw [hmatching]
  decide

end NotesWorld

end OpfsWebauthn.State
