import OpfsWebauthn.Storage.Cursors

/-!
# Following the cursors of the listing

A traversal starts `list` with the cursor `null` and follows `nextCursor` until it is `null`, while
other requests write to the table between the fetches. `traverse_spec` says that a complete one is a
traversal of the matching rows by their sort key, `traverse_isOk` that no fetch throws, and
`paging_exact` what follows for the rows returned. A cursor carries its day as a decimal number that
is read back as a double, so the days of the tables have to be exact.
-/

set_option autoImplicit false
set_option relaxedAutoImplicit false

namespace OpfsWebauthn.Storage.NoteRepositorySql

open Foundation

/-! ### Traversals -/

/-- A write between two fetches. -/
inductive NoteWrite
  | upsert (input : EncryptedNoteRow)
  | archive (id : String)
  | delete (id : String)
deriving DecidableEq, Repr

namespace NoteWrite

/-- The id of the row that is written. -/
def id : NoteWrite → String
  | .upsert input => input.id
  | .archive id => id
  | .delete id => id

/-- The table after a write. One that throws changes nothing. -/
def apply (table : NotesTable) (write : NoteWrite) : NotesTable :=
  let written := match write with
    | .upsert input => (NoteRepositorySql.upsert table input).map Prod.fst
    | .archive id => NoteRepositorySql.archive table id
    | .delete id => NoteRepositorySql.delete table id
  written.toOption.getD table

/-- The day that is written, if any, is exact. -/
def Exact : NoteWrite → Prop
  | .upsert input => ExactDay input.updatedDay
  | _ => True

instance (write : NoteWrite) : Decidable write.Exact :=
  match write with
  | .upsert input => inferInstanceAs (Decidable (ExactDay input.updatedDay))
  | .archive _ => .isTrue trivial
  | .delete _ => .isTrue trivial

end NoteWrite

/-- One fetch: the table it reads, and the page it returns. -/
structure Visit where
  table : NotesTable
  page : ListPageOutput

/-- The fetches from a cursor on, with the writes that happen after each of them, and the cursor
that is left to follow: `null` when the traversal is complete. -/
def traverse (limit : ℤ) (includeArchived : Bool) (table : NotesTable) (cursor : Option String) :
    List (List NoteWrite) → Except String (List Visit × Option String)
  | [] => do
    let page ← list table ⟨limit, cursor, includeArchived⟩
    return ([⟨table, page⟩], page.nextCursor)
  | writes :: gaps => do
    let page ← list table ⟨limit, cursor, includeArchived⟩
    match page.nextCursor with
    | none => return ([⟨table, page⟩], none)
    | some next =>
      let (visits, left) ←
        traverse limit includeArchived (writes.foldl NoteWrite.apply table) (some next) gaps
      return (⟨table, page⟩ :: visits, left)

/-- One row comes before another in the listing: by day, newest first, then by the bytes of the
id, highest first. -/
def ListedBefore (row later : EncryptedNoteRow) : Prop :=
  later.updatedDay < row.updatedDay ∨ (later.updatedDay = row.updatedDay ∧
    ∃ bytes laterBytes, RowId.decode row.id = .ok bytes ∧ RowId.decode later.id = .ok laterBytes ∧
      laterBytes < bytes)

/-! ### Writes -/

/-- What a write does: nothing, or it sets, archives or erases the row of its id. -/
inductive Wrote (table : NotesTable) : NoteWrite → NotesTable → Prop
  | unchanged (write : NoteWrite) : Wrote table write table
  | upserted (input : EncryptedNoteRow) {key : Bytes} (hdecode : RowId.decode input.id = .ok key) :
    Wrote table (.upsert input) (table.set key (columns input))
  | archived (id : String) {key : Bytes} {stored : NoteColumns}
      (hdecode : RowId.decode id = .ok key) (hstored : table.get? key = some stored) :
    Wrote table (.archive id) (table.set key { stored with archived := 1 })
  | deleted (id : String) {key : Bytes} (hdecode : RowId.decode id = .ok key) :
    Wrote table (.delete id) (table.erase key)

theorem wrote_apply (table : NotesTable) (write : NoteWrite) :
    Wrote table write (write.apply table) := by
  cases hdecode : RowId.decode write.id with
  | error error =>
    have hfails : decodeRowId write.id = .error error.text := by
      rw [decodeRowId, hdecode]
      rfl
    have hsame : write.apply table = table := by
      cases write with
      | upsert input =>
        change ((upsert table input).map Prod.fst).toOption.getD table = table
        rw [upsert, show decodeRowId input.id = _ from hfails]
        rfl
      | archive id =>
        change (archive table id).toOption.getD table = table
        rw [archive, show decodeRowId id = _ from hfails]
        rfl
      | delete id =>
        change (delete table id).toOption.getD table = table
        rw [delete, show decodeRowId id = _ from hfails]
        rfl
    rw [hsame]
    exact .unchanged write
  | ok key =>
    have hdecodes : decodeRowId write.id = .ok key := by
      rw [decodeRowId, hdecode]
      rfl
    cases write with
    | upsert input =>
      have hset : NoteWrite.apply table (.upsert input) = table.set key (columns input) := by
        change ((upsert table input).map Prod.fst).toOption.getD table = _
        rw [upsert, show decodeRowId input.id = _ from hdecodes]
        rfl
      rw [hset]
      exact .upserted input hdecode
    | archive id =>
      change Wrote table _ ((archive table id).toOption.getD table)
      cases hstored : table.get? key with
      | none =>
        have harchive : archive table id = .ok table := by
          simp only [archive, show decodeRowId id = _ from hdecodes, bind, Except.bind, hstored]
          rfl
        rw [harchive]
        exact .unchanged _
      | some stored =>
        have harchive : archive table id =
            .ok (table.set key { stored with archived := 1 }) := by
          simp only [archive, show decodeRowId id = _ from hdecodes, bind, Except.bind, hstored]
          rfl
        rw [harchive]
        exact .archived id hdecode hstored
    | delete id =>
      have herase : NoteWrite.apply table (.delete id) = table.erase key := by
        change (delete table id).toOption.getD table = _
        rw [delete, show decodeRowId id = _ from hdecodes]
        rfl
      rw [herase]
      exact .deleted id hdecode

/-- A write leaves the rows of other ids as they are. -/
theorem mem_entries_apply {table : NotesTable} {write : NoteWrite} {row : Bytes × NoteColumns}
    (hother : RowId.decode write.id ≠ .ok row.1) (hrow : row ∈ table.entries) :
    row ∈ (write.apply table).entries := by
  obtain ⟨key, stored⟩ := row
  rw [OrderedMap.mem_entries_iff] at hrow ⊢
  have hwrote := wrote_apply table write
  generalize write.apply table = after at hwrote ⊢
  have hne : ∀ {other : Bytes}, RowId.decode write.id = .ok other → key ≠ other := by
    rintro other hdecode rfl
    exact hother hdecode
  cases hwrote with
  | unchanged => exact hrow
  | upserted input hdecode =>
    rw [OrderedMap.get?_set, if_neg (hne hdecode)]
    exact hrow
  | archived id hdecode hstored =>
    rw [OrderedMap.get?_set, if_neg (hne hdecode)]
    exact hrow
  | deleted id hdecode =>
    rw [OrderedMap.get?_erase, if_neg (hne hdecode)]
    exact hrow

/-- What holds of all rows holds after a write, when it holds of the rows written. -/
theorem forall_entries_apply {property : Bytes × NoteColumns → Prop} {table : NotesTable}
    {write : NoteWrite} (hall : ∀ row ∈ table.entries, property row)
    (hupserted : ∀ input key, write = .upsert input → RowId.decode input.id = .ok key →
      property (key, columns input))
    (harchived : ∀ key stored, property (key, stored) →
      property (key, { stored with archived := 1 })) :
    ∀ row ∈ (write.apply table).entries, property row := by
  have hget : ∀ key stored, table.get? key = some stored → property (key, stored) :=
    fun key stored hstored ↦ hall _ ((OrderedMap.mem_entries_iff _ _ _).mpr hstored)
  have hset : ∀ {own : Bytes} {written : NoteColumns}, property (own, written) →
      ∀ row ∈ (table.set own written).entries, property row := by
    rintro own written hwritten ⟨key, stored⟩ hrow
    rw [OrderedMap.mem_entries_iff, OrderedMap.get?_set] at hrow
    split_ifs at hrow with hkey
    · rw [hkey, ← Option.some.inj hrow]
      exact hwritten
    · exact hget key stored hrow
  have hwrote := wrote_apply table write
  generalize write.apply table = after at hwrote ⊢
  cases hwrote with
  | unchanged => exact hall
  | upserted input hdecode => exact hset (hupserted input _ rfl hdecode)
  | archived id hdecode hstored => exact hset (harchived _ _ (hget _ _ hstored))
  | deleted id hdecode =>
    rintro ⟨key, stored⟩ hrow
    rw [OrderedMap.mem_entries_iff, OrderedMap.get?_erase] at hrow
    split_ifs at hrow
    exact hget key stored hrow

/-- The keys of a table are row ids. -/
def KeysAreIds (table : NotesTable) : Prop :=
  ∀ row ∈ table.entries, row.1.length = RowId.rowIdBytes

instance (table : NotesTable) : Decidable (KeysAreIds table) := by
  unfold KeysAreIds
  infer_instance

/-- Writes keep the keys row ids. -/
theorem KeysAreIds.foldl {writes : List NoteWrite} : ∀ {table : NotesTable}, KeysAreIds table →
    KeysAreIds (writes.foldl NoteWrite.apply table) := by
  induction writes with
  | nil => exact fun hkeys ↦ hkeys
  | cons write writes ih =>
    intro table hkeys
    refine ih (forall_entries_apply hkeys ?_ fun key stored hlength ↦ hlength)
    exact fun input key _ hdecode ↦ RowId.decode_length hdecode

/-- Writes of exact days keep the days exact. -/
theorem ExactDays.foldl {writes : List NoteWrite} : ∀ {table : NotesTable}, ExactDays table →
    (∀ write ∈ writes, write.Exact) → ExactDays (writes.foldl NoteWrite.apply table) := by
  induction writes with
  | nil => exact fun hdays _ ↦ hdays
  | cons write writes ih =>
    intro table hdays hexact
    refine ih (forall_entries_apply hdays ?_ fun key stored hday ↦ hday)
      fun other hother ↦ hexact other (List.mem_cons_of_mem _ hother)
    rintro input key rfl -
    exact hexact _ List.mem_cons_self

theorem mem_entries_foldl {writes : List NoteWrite} {row : Bytes × NoteColumns} :
    ∀ {table : NotesTable}, (∀ write ∈ writes, RowId.decode write.id ≠ .ok row.1) →
      row ∈ table.entries → row ∈ (writes.foldl NoteWrite.apply table).entries := by
  induction writes with
  | nil => exact fun _ hrow ↦ hrow
  | cons write writes ih =>
    intro table hothers hrow
    rw [List.forall_mem_cons] at hothers
    exact ih hothers.2 (mem_entries_apply hothers.1 hrow)

/-! ### Fetches -/

/-- A traversal is one fetch, or a fetch, the writes of the first gap and the rest. -/
theorem traverse_cases {limit : ℤ} {includeArchived : Bool} {table : NotesTable}
    {cursor left : Option String} {gaps : List (List NoteWrite)} {visits : List Visit}
    (htraverse : traverse limit includeArchived table cursor gaps = .ok (visits, left)) :
    ∃ page, list table ⟨limit, cursor, includeArchived⟩ = .ok page ∧
      (page.nextCursor = left ∧ visits = [⟨table, page⟩] ∨
        ∃ writes rest next later, gaps = writes :: rest ∧ page.nextCursor = some next ∧
          traverse limit includeArchived (writes.foldl NoteWrite.apply table) (some next) rest =
            .ok (later, left) ∧ visits = ⟨table, page⟩ :: later) := by
  cases gaps with
  | nil =>
    rw [traverse] at htraverse
    obtain ⟨page, hpage, hdone⟩ := bind_eq_ok_iff.mp htraverse
    obtain ⟨rfl, rfl⟩ := Prod.mk.inj (Except.ok.inj hdone)
    exact ⟨page, hpage, .inl ⟨rfl, rfl⟩⟩
  | cons writes rest =>
    rw [traverse] at htraverse
    obtain ⟨page, hpage, hmore⟩ := bind_eq_ok_iff.mp htraverse
    refine ⟨page, hpage, ?_⟩
    cases hnext : page.nextCursor with
    | none =>
      rw [hnext] at hmore
      obtain ⟨rfl, rfl⟩ := Prod.mk.inj (Except.ok.inj hmore)
      exact .inl ⟨rfl, rfl⟩
    | some next =>
      rw [hnext] at hmore
      obtain ⟨⟨later, pending⟩, hlater, hdone⟩ := bind_eq_ok_iff.mp hmore
      obtain ⟨rfl, rfl⟩ := Prod.mk.inj (Except.ok.inj hdone)
      exact .inr ⟨writes, rest, next, later, rfl, rfl, hlater, rfl⟩

/-- What the tables of the fetches have in common, when it holds at first and the writes keep it. -/
theorem forall_visits (property : NotesTable → Prop) {limit : ℤ} {includeArchived : Bool}
    {left : Option String} {gaps : List (List NoteWrite)} :
    ∀ {table : NotesTable} {cursor : Option String} {visits : List Visit},
      traverse limit includeArchived table cursor gaps = .ok (visits, left) → property table →
      (∀ writes ∈ gaps, ∀ table, property table → property (writes.foldl NoteWrite.apply table)) →
      ∀ visit ∈ visits, property visit.table := by
  induction gaps with
  | nil =>
    intro table cursor visits htraverse hstart _
    obtain ⟨page, -, ⟨-, rfl⟩ | ⟨_, _, _, _, hgaps, -⟩⟩ := traverse_cases htraverse
    · exact List.forall_mem_singleton.mpr hstart
    · cases hgaps
  | cons writes gaps ih =>
    intro table cursor visits htraverse hstart hkept
    rw [List.forall_mem_cons] at hkept
    obtain ⟨page, -, ⟨-, rfl⟩ | ⟨_, _, _, _, hgaps, -, hlater, rfl⟩⟩ := traverse_cases htraverse
    · exact List.forall_mem_singleton.mpr hstart
    · obtain ⟨rfl, rfl⟩ := List.cons.inj hgaps
      exact List.forall_mem_cons.mpr ⟨hstart, ih hlater (hkept.1 table hstart) hkept.2⟩

/-- No fetch throws, when the keys of the table are row ids, whatever is written between the
fetches. -/
theorem traverse_isOk (limit : ℤ) (includeArchived : Bool) (gaps : List (List NoteWrite)) :
    ∀ {table : NotesTable} {cursor : Option String} {condition : Bytes × NoteColumns → Bool},
      KeysAreIds table → cursorWhere cursor = .ok condition →
      ∃ visits left, traverse limit includeArchived table cursor gaps = .ok (visits, left) := by
  induction gaps with
  | nil =>
    intro table cursor condition hkeys hcursor
    obtain ⟨page, hpage⟩ := list_isOk hkeys limit includeArchived hcursor
    exact ⟨_, _, bind_eq_ok_iff.mpr ⟨page, hpage, rfl⟩⟩
  | cons writes gaps ih =>
    intro table cursor condition hkeys hcursor
    obtain ⟨page, hpage⟩ := list_isOk hkeys limit includeArchived hcursor
    obtain ⟨after, hafter⟩ := cursorWhere_nextCursor hpage
    rw [traverse, hpage]
    change ∃ visits left, (match page.nextCursor with | none => _ | some next => _) =
      Except.ok (visits, left)
    cases hnext : page.nextCursor with
    | none => exact ⟨_, _, rfl⟩
    | some next =>
      rw [hnext] at hafter
      obtain ⟨visits, left, hrest⟩ := ih (@KeysAreIds.foldl writes table hkeys) hafter
      exact ⟨_, _, bind_eq_ok_iff.mpr ⟨(visits, left), hrest, rfl⟩⟩

/-- A row that no write is about is there at every fetch. -/
theorem mem_entries_of_traverse {limit : ℤ} {includeArchived : Bool} {row : Bytes × NoteColumns}
    {gaps : List (List NoteWrite)} {table : NotesTable} {cursor left : Option String}
    {visits : List Visit}
    (htraverse : traverse limit includeArchived table cursor gaps = .ok (visits, left))
    (hothers : ∀ writes ∈ gaps, ∀ write ∈ writes, RowId.decode write.id ≠ .ok row.1)
    (hrow : row ∈ table.entries) : ∀ visit ∈ visits, row ∈ visit.table.entries :=
  forall_visits (fun table ↦ row ∈ table.entries) htraverse hrow
    fun writes hwrites _ hthere ↦ mem_entries_foldl (hothers writes hwrites) hthere

/-- The days are exact at every fetch when they are at first and only exact days are written. -/
theorem exactDays_of_traverse {limit : ℤ} {includeArchived : Bool} {gaps : List (List NoteWrite)}
    {table : NotesTable} {cursor left : Option String} {visits : List Visit}
    (htraverse : traverse limit includeArchived table cursor gaps = .ok (visits, left))
    (hexact : ∀ writes ∈ gaps, ∀ write ∈ writes, write.Exact)
    (hdays : ExactDays table) : ∀ visit ∈ visits, ExactDays visit.table :=
  forall_visits ExactDays htraverse hdays fun writes hwrites _ hkept ↦
    hkept.foldl (hexact writes hwrites)

/-! ### What a traversal returns -/

/-- The page of a visit is a page of the matching rows of its table, decoded. -/
def Fetches (includeArchived : Bool) (visit : Visit)
    (page : List (Bytes × NoteColumns) × List (Bytes × NoteColumns)) : Prop :=
  page.1 = matching includeArchived visit.table ∧ page.2.mapM decodeRow = .ok visit.page.rows

/-- A complete traversal is one of the matching rows by their sort key. -/
theorem traverse_spec {limit : ℤ} {includeArchived : Bool} {gaps : List (List NoteWrite)} :
    ∀ {table : NotesTable} {cursor : Option String} {last : Option (ℤ ×ₗ List ℕ)}
      {visits : List Visit}, CursorDenotes cursor last →
      traverse limit includeArchived table cursor gaps = .ok (visits, none) →
      (∀ visit ∈ visits, ExactDays visit.table) →
      ∃ fetched, KeysetTraversal sortKey (pageLimit limit) last fetched ∧
        List.Forall₂ (Fetches includeArchived) visits fetched := by
  induction gaps with
  | nil =>
    intro table cursor last visits hdenotes htraverse hdays
    obtain ⟨page, hpage, ⟨hnull, rfl⟩ | ⟨_, _, _, _, hgaps, -⟩⟩ := traverse_cases htraverse
    · obtain ⟨hrows, hnext⟩ := list_spec (hdays _ List.mem_cons_self) hdenotes hpage
      rw [hnull] at hnext
      exact ⟨_, .last hnext.eq_none, .cons ⟨rfl, hrows⟩ .nil⟩
    · cases hgaps
  | cons writes gaps ih =>
    intro table cursor last visits hdenotes htraverse hdays
    obtain ⟨page, hpage, ⟨hnull, rfl⟩ | ⟨_, _, text, _, hgaps, htext, hlater, rfl⟩⟩ :=
      traverse_cases htraverse
    · obtain ⟨hrows, hnext⟩ := list_spec (hdays _ List.mem_cons_self) hdenotes hpage
      rw [hnull] at hnext
      exact ⟨_, .last hnext.eq_none, .cons ⟨rfl, hrows⟩ .nil⟩
    · obtain ⟨rfl, rfl⟩ := List.cons.inj hgaps
      rw [List.forall_mem_cons] at hdays
      obtain ⟨hrows, hnext⟩ := list_spec hdays.1 hdenotes hpage
      rw [htext] at hnext
      obtain ⟨bound, hbound⟩ := hnext.exists_last
      rw [hbound] at hnext
      obtain ⟨fetched, hfetched, hsame⟩ := ih hnext hlater hdays.2
      exact ⟨_, .next hbound hfetched, .cons ⟨rfl, hrows⟩ hsame⟩

/-- The rows of all pages are the rows fetched, decoded. -/
theorem mapM_flatMap {visits : List Visit} {includeArchived : Bool}
    {fetched : List (List (Bytes × NoteColumns) × List (Bytes × NoteColumns))}
    (hsame : List.Forall₂ (Fetches includeArchived) visits fetched) :
    (fetched.flatMap Prod.snd).mapM decodeRow =
      .ok (visits.flatMap fun visit ↦ visit.page.rows) := by
  induction hsame with
  | nil => rfl
  | cons hfirst _ ih =>
    rw [List.flatMap_cons, List.flatMap_cons]
    exact mapM_append_eq_ok hfirst.2 ih

/-- Two rows of a table that are shown alike are the same. -/
theorem eq_of_decodeRow {table : NotesTable} {row other : Bytes × NoteColumns}
    (hrow : row ∈ table.entries) (hother : other ∈ table.entries) {shown : EncryptedNoteRow}
    (hrowShown : decodeRow row = .ok shown) (hotherShown : decodeRow other = .ok shown) :
    row = other := by
  obtain ⟨id, hid, rfl⟩ := decodeRow_eq_ok_iff.mp hrowShown
  obtain ⟨otherId, hotherId, hsame⟩ := decodeRow_eq_ok_iff.mp hotherShown
  obtain rfl : otherId = id := congrArg EncryptedNoteRow.id hsame
  have hkey : row.1 = other.1 := Except.ok.inj
    ((RowId.decode_encode hid).symm.trans (RowId.decode_encode hotherId))
  obtain ⟨key, columns⟩ := row
  obtain ⟨otherKey, otherColumns⟩ := other
  obtain rfl : key = otherKey := hkey
  rw [OrderedMap.mem_entries_iff] at hrow hother
  rw [Option.some.inj (hrow.symm.trans hother)]

variable {limit : ℤ} {includeArchived : Bool} {table : NotesTable} {gaps : List (List NoteWrite)}
  {visits : List Visit} {fetched : List (List (Bytes × NoteColumns) × List (Bytes × NoteColumns))}

/-- Every page fetched is the page of a visit. -/
theorem exists_visit (hsame : List.Forall₂ (Fetches includeArchived) visits fetched) :
    ∀ page ∈ fetched, ∃ visit ∈ visits, Fetches includeArchived visit page := by
  induction hsame with
  | nil =>
    intro page hpage
    cases hpage
  | cons hfirst _ ih =>
    refine List.forall_mem_cons.mpr ⟨⟨_, List.mem_cons_self, hfirst⟩, ?_⟩
    intro page hpage
    obtain ⟨visit, hvisit, hfetches⟩ := ih page hpage
    exact ⟨visit, List.mem_cons_of_mem _ hvisit, hfetches⟩

/-- The sort keys of the rows that were paged are distinct. -/
theorem nodup_of_fetches (hsame : List.Forall₂ (Fetches includeArchived) visits fetched) :
    ∀ page ∈ fetched, (page.1.map sortKey).Nodup := by
  intro page hpage
  obtain ⟨visit, -, hitems, -⟩ := exists_visit hsame page hpage
  rw [hitems]
  exact nodup_sortKey includeArchived visit.table

/-- A row that stays is shown on the pages it was fetched on, and on no other. -/
theorem countP_shown (hsame : List.Forall₂ (Fetches includeArchived) visits fetched)
    (hpages : ∀ page ∈ fetched, ∀ item ∈ page.2, item ∈ page.1) {row : Bytes × NoteColumns}
    (hstays : ∀ visit ∈ visits, row ∈ visit.table.entries) {shown : EncryptedNoteRow}
    (hshown : decodeRow row = .ok shown) :
    visits.countP (fun visit ↦ shown ∈ visit.page.rows) =
      fetched.countP fun page ↦ row ∈ page.2 := by
  induction hsame with
  | nil => rfl
  | @cons visit page visits fetched hfirst _ ih =>
    obtain ⟨hitems, hrows⟩ := hfirst
    rw [List.forall_mem_cons] at hpages hstays
    have hiff : shown ∈ visit.page.rows ↔ row ∈ page.2 := by
      constructor
      · intro hmem
        obtain ⟨other, hother, hotherShown⟩ := exists_of_mem_mapM hrows hmem
        have hentry := hpages.1 other hother
        rw [hitems] at hentry
        rwa [eq_of_decodeRow hstays.1 (List.mem_of_mem_filter hentry) hshown hotherShown]
      · intro hmem
        obtain ⟨other, hother, hotherShown⟩ := mem_of_mapM hrows hmem
        rwa [Except.ok.inj (hshown.symm.trans hotherShown)]
    rw [List.countP_cons, List.countP_cons, ih hpages.2 hstays.2]
    simp only [hiff]

/-- A matching row that is there at every fetch is on exactly one page. -/
theorem countP_eq_one_of_traverse
    (htraverse : traverse limit includeArchived table none gaps = .ok (visits, none))
    (hdays : ∀ visit ∈ visits, ExactDays visit.table)
    {row : Bytes × NoteColumns} (hmatches : (includeArchived || row.2.archived = 0) = true)
    (hstays : ∀ visit ∈ visits, row ∈ visit.table.entries) :
    ∃ shown, decodeRow row = .ok shown ∧
      visits.countP (fun visit ↦ shown ∈ visit.page.rows) = 1 := by
  obtain ⟨fetched, hfetched, hsame⟩ := traverse_spec .start htraverse hdays
  have hthere : ∀ page ∈ fetched, row ∈ page.1 := by
    intro page hpage
    obtain ⟨visit, hvisit, hitems, -⟩ := exists_visit hsame page hpage
    rw [hitems]
    exact List.mem_filter.mpr ⟨hstays visit hvisit, hmatches⟩
  have hnone : ∀ bound ∈ (none : Option (ℤ ×ₗ List ℕ)), sortKey row < bound := by
    intro bound hbound
    cases hbound
  have hone : (fetched.countP fun page ↦ row ∈ page.2) = 1 :=
    hfetched.countP_eq_one (pageLimit_pos limit) (nodup_of_fetches hsame)
      (fun _ ↦ decide_eq_true_iff) hnone hthere
  have hsomewhere : 0 < fetched.countP fun page ↦ row ∈ page.2 := by omega
  obtain ⟨page, hpage, hmem⟩ := List.countP_pos_iff.mp hsomewhere
  obtain ⟨visit, -, -, hrows⟩ := exists_visit hsame page hpage
  obtain ⟨shown, -, hshown⟩ := mem_of_mapM hrows (of_decide_eq_true hmem)
  refine ⟨shown, hshown, ?_⟩
  rw [countP_shown hsame hfetched.mem_of_mem_page hstays hshown, hone]

/-- Rows are listed by day and id, highest first, over the whole traversal. -/
theorem pairwise_of_traverse
    (htraverse : traverse limit includeArchived table none gaps = .ok (visits, none))
    (hdays : ∀ visit ∈ visits, ExactDays visit.table) :
    (visits.flatMap fun visit ↦ visit.page.rows).Pairwise ListedBefore := by
  obtain ⟨fetched, hfetched, hsame⟩ := traverse_spec .start htraverse hdays
  have hdescending := hfetched.pairwise (nodup_of_fetches hsame)
  have hforall := mapM_eq_ok_iff.mp (mapM_flatMap hsame)
  generalize fetched.flatMap Prod.snd = rows at hdescending hforall
  generalize (visits.flatMap fun visit ↦ visit.page.rows) = shownRows at hforall
  induction hforall with
  | nil => exact List.Pairwise.nil
  | @cons row shown rows shownRows hrow hrows ih =>
    rw [List.pairwise_cons] at hdescending ⊢
    refine ⟨?_, ih hdescending.2⟩
    intro later hlater
    obtain ⟨laterRow, hmem, hlaterRow⟩ := exists_of_mem_mapM (mapM_eq_ok_iff.mpr hrows) hlater
    obtain ⟨id, hid, rfl⟩ := decodeRow_eq_ok_iff.mp hrow
    obtain ⟨laterId, hlaterId, rfl⟩ := decodeRow_eq_ok_iff.mp hlaterRow
    rcases (sortKey_lt_iff laterRow row.2.updatedDay row.1).mp (hdescending.1 laterRow hmem) with
      hday | ⟨hday, hbytes⟩
    · exact .inl hday
    · exact .inr ⟨hday, row.1, laterRow.1, RowId.decode_encode hid, RowId.decode_encode hlaterId,
        hbytes⟩

/-- The pages of a table that does not change are its matching rows, in order. -/
theorem flatMap_of_traverse
    (htraverse : traverse limit includeArchived table none gaps = .ok (visits, none))
    (hdays : ∀ visit ∈ visits, ExactDays visit.table)
    (hstatic : ∀ visit ∈ visits, visit.table = table) :
    ((matching includeArchived table).insertionSort Precedes).mapM decodeRow =
      .ok (visits.flatMap fun visit ↦ visit.page.rows) := by
  obtain ⟨fetched, hfetched, hsame⟩ := traverse_spec .start htraverse hdays
  have hitems : ∀ page ∈ fetched, page.1 = matching includeArchived table := by
    intro page hpage
    obtain ⟨visit, hvisit, hitems, -⟩ := exists_visit hsame page hpage
    rw [hitems, hstatic visit hvisit]
  have hall := hfetched.flatMap_eq (pageLimit_pos limit) (nodup_sortKey _ table) hitems
  rw [← itemsPast_none, ← hall]
  exact mapM_flatMap hsame

/-- A traversal of a table whose keys are row ids and whose days are exact ends, when nothing
changes. -/
theorem exists_traverse (hkeys : KeysAreIds table) (hdays : ExactDays table)
    {last : Option (ℤ ×ₗ List ℕ)}
    (hfetched : KeysetTraversal sortKey (pageLimit limit) last fetched)
    (hstatic : ∀ page ∈ fetched, page.1 = matching includeArchived table) :
    ∀ {cursor : Option String}, CursorDenotes cursor last →
      ∃ more visits, traverse limit includeArchived table cursor (List.replicate more []) =
        .ok (visits, none) := by
  induction hfetched with
  | last hnext =>
    intro cursor hdenotes
    obtain rfl := hstatic _ List.mem_cons_self
    obtain ⟨page, hpage⟩ := list_isOk hkeys limit includeArchived (cursorWhere_of_denotes hdenotes)
    have hnull := (list_spec hdays hdenotes hpage).2
    rw [hnext] at hnull
    refine ⟨0, [⟨table, page⟩], ?_⟩
    rw [List.replicate_zero, traverse, hpage, ← hnull.null]
    rfl
  | next hnext _ ih =>
    intro cursor hdenotes
    rw [List.forall_mem_cons] at hstatic
    obtain ⟨rfl, hrest⟩ := hstatic
    obtain ⟨page, hpage⟩ := list_isOk hkeys limit includeArchived (cursorWhere_of_denotes hdenotes)
    have hcursor := (list_spec hdays hdenotes hpage).2
    rw [hnext] at hcursor
    obtain ⟨more, visits, hvisits⟩ := ih hrest hcursor
    refine ⟨more + 1, ⟨table, page⟩ :: visits, ?_⟩
    rw [List.replicate_succ, traverse, hpage]
    change (match page.nextCursor with | none => _ | some next => _) = Except.ok _
    cases htext : page.nextCursor with
    | none =>
      rw [htext] at hcursor
      cases hcursor
    | some text =>
      rw [htext] at hvisits
      exact bind_eq_ok_iff.mpr ⟨(visits, none), hvisits, rfl⟩

/-- For every table, limit and filter: whatever is written between the fetches of a traversal that
follows the cursors until `null`, with exact days at every fetch, a matching row that is there at
every fetch is on exactly one page, and the rows come strictly by day and id; when nothing changes,
the pages are exactly the matching rows in that order. When the keys are row ids no fetch throws,
and when the days are exact the traversal of a table that does not change ends. -/
theorem paging_exact (limit : ℤ) (includeArchived : Bool) (table : NotesTable) :
    (∀ gaps visits, traverse limit includeArchived table none gaps = .ok (visits, none) →
      (∀ visit ∈ visits, ExactDays visit.table) →
      (∀ row : Bytes × NoteColumns, (includeArchived || row.2.archived = 0) = true →
        (∀ visit ∈ visits, row ∈ visit.table.entries) →
        ∃ shown, decodeRow row = .ok shown ∧
          visits.countP (fun visit ↦ shown ∈ visit.page.rows) = 1) ∧
      (visits.flatMap fun visit ↦ visit.page.rows).Pairwise ListedBefore ∧
      ((∀ visit ∈ visits, visit.table = table) →
        ((matching includeArchived table).insertionSort Precedes).mapM decodeRow =
          .ok (visits.flatMap fun visit ↦ visit.page.rows))) ∧
    (KeysAreIds table →
      (∀ gaps, ∃ visits left,
        traverse limit includeArchived table none gaps = .ok (visits, left)) ∧
      (ExactDays table → ∃ more visits,
        traverse limit includeArchived table none (List.replicate more []) =
          .ok (visits, none))) := by
  constructor
  · intro gaps visits htraverse hdays
    refine ⟨?_, pairwise_of_traverse htraverse hdays, flatMap_of_traverse htraverse hdays⟩
    intro row hmatches hstays
    exact countP_eq_one_of_traverse htraverse hdays hmatches hstays
  · intro hkeys
    refine ⟨fun gaps ↦ traverse_isOk limit includeArchived gaps hkeys rfl, fun hdays ↦ ?_⟩
    obtain ⟨fetched, hfetched, hstatic⟩ := exists_keysetTraversal (pageLimit_pos limit)
      (nodup_sortKey includeArchived table) none
    exact exists_traverse hkeys hdays hfetched hstatic .start

/-- A row of the table, with a key of equal bytes. -/
def rowOf (byte : UInt8) (updatedDay : ℤ) : Bytes × NoteColumns :=
  (List.replicate RowId.rowIdBytes byte, ⟨updatedDay, 0, [], [byte], [], []⟩)

/-- Three rows, the first two of one day. -/
def threeRows : NotesTable where
  entries := [rowOf 1 20020, rowOf 2 20020, rowOf 0 20019]
  nodup_keys := by decide

/-- After the first page its row is deleted, and a newer row is written. -/
def deletedAndWritten : List NoteWrite :=
  [.delete "081040G2081040G2081040G208",
    .upsert ⟨"0C1G60R30C1G60R30C1G60R30C", 20021, false, [], [], [], []⟩]

/-- The limit is raised to one row a page. The oldest row is on exactly one of three pages. -/
theorem paging_exact_deletedAndWritten : ∃ visits shown,
    traverse 0 false threeRows none [deletedAndWritten, []] = .ok (visits, none) ∧
    visits.length = 3 ∧ decodeRow (rowOf 0 20019) = .ok shown ∧
    visits.countP (fun visit ↦ shown ∈ visit.page.rows) = 1 := by
  obtain ⟨⟨visits, left⟩, htraverse⟩ :
      ∃ result, traverse 0 false threeRows none [deletedAndWritten, []] = .ok result := by
    obtain ⟨visits, left, htraverse⟩ :=
      ((paging_exact 0 false threeRows).2 (by decide)).1 [deletedAndWritten, []]
    exact ⟨_, htraverse⟩
  have hview : (traverse 0 false threeRows none [deletedAndWritten, []]).map
      (fun result ↦ (result.1.length, result.2)) = .ok (3, none) := by decide +kernel
  rw [htraverse] at hview
  obtain ⟨hlength, rfl⟩ := Prod.mk.inj (Except.ok.inj hview)
  have hdays := exactDays_of_traverse htraverse (by decide) (by decide)
  have hothers : ∀ writes ∈ [deletedAndWritten, []], ∀ write ∈ writes,
      RowId.decode write.id ≠ .ok (rowOf 0 20019).1 := by decide +kernel
  have hstays := mem_entries_of_traverse htraverse hothers (by decide)
  obtain ⟨shown, hshown, hone⟩ := ((paging_exact 0 false threeRows).1 _ visits htraverse hdays).1
    (rowOf 0 20019) rfl hstays
  exact ⟨visits, shown, htraverse, hlength, hshown, hone⟩

/-- Two rows of a day that no double holds. -/
def farRows : NotesTable where
  entries := [rowOf 1 9007199254740993, rowOf 2 9007199254740993]
  nodup_keys := by decide

/-- Nothing changes between two pages of one row each, and the second one is empty: the cursor is
read as the day before, and the row with the lower key is on no page. -/
theorem not_paged_farRows : ∃ visits shown,
    traverse 1 false farRows none [[]] = .ok (visits, none) ∧ visits.length = 2 ∧
    (∀ visit ∈ visits, visit.table = farRows) ∧ decodeRow (rowOf 1 9007199254740993) = .ok shown ∧
    visits.countP (fun visit ↦ shown ∈ visit.page.rows) = 0 := by
  let low : EncryptedNoteRow :=
    ⟨"040G2081040G2081040G208104", 9007199254740993, false, [], [1], [], []⟩
  have hview : (traverse 1 false farRows none [[]]).map (fun result ↦
      (result.1.length, result.1.countP fun visit ↦ low ∈ visit.page.rows, result.2)) =
      .ok (2, 0, none) := by decide +kernel
  have hshown : decodeRow (rowOf 1 9007199254740993) = .ok low := by decide +kernel
  cases htraverse : traverse 1 false farRows none [[]] with
  | error error =>
    rw [htraverse] at hview
    cases hview
  | ok result =>
    obtain ⟨visits, left⟩ := result
    rw [htraverse] at hview
    obtain ⟨hlength, hnone⟩ := Prod.mk.inj (Except.ok.inj hview)
    obtain ⟨hnone, rfl⟩ := Prod.mk.inj hnone
    refine ⟨visits, low, rfl, hlength, ?_, hshown, hnone⟩
    exact forall_visits (fun table ↦ table = farRows) htraverse rfl
      fun writes hwrites table htable ↦ by
        obtain rfl := List.mem_singleton.mp hwrites
        exact htable

end OpfsWebauthn.Storage.NoteRepositorySql
