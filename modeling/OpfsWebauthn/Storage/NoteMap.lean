import OpfsWebauthn.Crypto.Tabulated
import OpfsWebauthn.Storage.ListPages

/-!
# The notes as a plaintext map

What the encrypted storage is for: a map from ids to notes. `NoteMap.perform` says what each call of
a `Repo` does to the map and replies, and `RepoCall.perform` what the code does, through the field
encryption, the worker and the decryption. The Repos that share a vault and a worker have no state
of their own, so their calls are one sequence, in the order in which the worker handles them.

The worker's rows hold the entries of the map one by one (`perform_spec`). A note that is read back
is the entry up to lone surrogates, which the encoder replaces, and a byte order mark, which the
decoder drops. `agrees_iff` says what follows for a whole run.
-/

set_option autoImplicit false
set_option relaxedAutoImplicit false

namespace OpfsWebauthn.Storage

open Foundation Crypto

/-! ### Calls -/

/-- A cursor that a page returned: the day and the id of its last note. -/
structure NoteCursor where
  updatedDay : ℤ
  id : String
  exactDay : NoteRepositorySql.ExactDay updatedDay
deriving DecidableEq, Repr

/-- A call of a `Repo`. -/
inductive RepoCall
  | upsertNote (draw : UpsertDraw) (input : NoteInput)
  | archiveNote (id : String)
  | deleteNote (id : String)
  | getNote (id : String)
  | listNotes (limit : Option ℤ) (cursor : Option NoteCursor) (includeArchived : Option Bool)
deriving DecidableEq, Repr

/-- What the promise of a call is resolved with. -/
inductive RepoReply
  | saved (note : Note)
  | done
  | found (note : Option Note)
  | listed (page : ListPage)
deriving DecidableEq, Repr

/-- The text of a cursor after a note. -/
def cursorText (updatedDay : ℤ) (id : String) : String :=
  toString updatedDay ++ ":" ++ id

/-- The text of a cursor. -/
def NoteCursor.text (cursor : NoteCursor) : String :=
  cursorText cursor.updatedDay cursor.id

namespace RepoCall

/-- The ids that a call is given. -/
def ids : RepoCall → List String
  | .upsertNote _ input => input.id.toList
  | .archiveNote id => [id]
  | .deleteNote id => [id]
  | .getNote id => [id]
  | .listNotes _ cursor _ => (cursor.map NoteCursor.id).toList

/-- The worker's table after a call, and how its promise is settled. -/
def perform (primitives : Primitives) (vault : CryptoVault) (table : NotesTable) :
    RepoCall → NotesTable × Except String RepoReply
  | .upsertNote draw input =>
    let sent := Repo.upsertNote primitives vault table draw input
    (sent.1, sent.2.map .saved)
  | .archiveNote id =>
    let sent := Repo.archiveNote table id
    (sent.1, sent.2.map fun _ ↦ .done)
  | .deleteNote id =>
    let sent := Repo.deleteNote table id
    (sent.1, sent.2.map fun _ ↦ .done)
  | .getNote id => (table, (Repo.getNote primitives vault table id).map .found)
  | .listNotes limit cursor includeArchived =>
    (table, (Repo.listNotes primitives vault table
      ⟨limit, cursor.map NoteCursor.text, includeArchived⟩).map .listed)

end RepoCall

/-! ### The map -/

/-- An entry of the map. -/
structure NoteEntry where
  title : JsString
  body : JsString
  updatedDay : ℤ
  archived : Bool
deriving DecidableEq, Repr

/-- The notes by their ids. -/
abbrev NoteMap := OrderedMap String NoteEntry

namespace NoteMap

/-- The note of an entry. -/
def note (entry : String × NoteEntry) : Note where
  id := entry.1
  title := entry.2.title
  body := entry.2.body
  updatedDay := entry.2.updatedDay
  archived := entry.2.archived

/-- What a listing is ordered by: the day, then the bytes of the id. -/
def listKey (updatedDay : ℤ) (id : String) : ℤ ×ₗ List ℕ :=
  toLex (updatedDay, RowId.octets ((RowId.decode id).toOption.getD []))

/-- The entries that a listing shows past its cursor. -/
def listed (map : NoteMap) (cursor : Option NoteCursor) (includeArchived : Bool) :
    List (String × NoteEntry) :=
  itemsPast (fun entry : String × NoteEntry ↦ listKey entry.2.updatedDay entry.1)
    (cursor.map fun last ↦ listKey last.updatedDay last.id)
    (map.entries.filter fun entry ↦ includeArchived || !entry.2.archived)

/-- A page of at most `limit` notes, highest key first. -/
def page (map : NoteMap) (limit : ℕ) (cursor : Option NoteCursor) (includeArchived : Bool) :
    ListPage :=
  let shown := (map.listed cursor includeArchived).take limit
  { notes := shown.map note
    nextCursor := if limit < (map.listed cursor includeArchived).length then
        shown.getLast?.map fun last ↦ cursorText last.2.updatedDay last.1
      else none }

/-- The map after a call, and what the call replies. -/
def perform (map : NoteMap) : RepoCall → NoteMap × RepoReply
  | .upsertNote draw input =>
    match Repo.noteId draw input with
    | .ok id =>
      let entry : NoteEntry := ⟨input.title, input.body, todayDayBucket draw.now, false⟩
      (map.set id entry, .saved (note (id, entry)))
    -- sixteen bytes always have an id
    | .error _ => (map, .done)
  | .archiveNote id =>
    match map.get? id with
    | none => (map, .done)
    | some entry => (map.set id { entry with archived := true }, .done)
  | .deleteNote id => (map.erase id, .done)
  | .getNote id => (map, .found ((map.get? id).map fun entry ↦ note (id, entry)))
  | .listNotes limit cursor includeArchived =>
    (map, .listed (map.page (NoteRepositorySql.pageLimit (limit.getD 50)) cursor
      (includeArchived.getD false)))

end NoteMap

/-! ### Rows that hold entries -/

variable (primitives : Primitives) (vault : CryptoVault)

/-- A row of the worker holds an entry: its key is encoded as the id, and its fields are encrypted
for it. -/
structure RowHolds (row : Bytes × NoteColumns) (entry : String × NoteEntry) : Prop where
  id : RowId.encode row.1 = .ok entry.1
  updatedDay : row.2.updatedDay = entry.2.updatedDay
  exactDay : NoteRepositorySql.ExactDay entry.2.updatedDay
  archived : row.2.archived = if entry.2.archived then 1 else 0
  title : ∃ nonce, RowCodec.encryptField primitives vault nonce entry.1 "title" entry.2.title =
    .ok ⟨row.2.titleNonce, row.2.titleCiphertext⟩
  body : ∃ nonce, RowCodec.encryptField primitives vault nonce entry.1 "body" entry.2.body =
    .ok ⟨row.2.bodyNonce, row.2.bodyCiphertext⟩

variable {primitives vault} {row : Bytes × NoteColumns} {entry : String × NoteEntry}

/-- The note that is read back from an entry. -/
def readBack (note : Note) : Note :=
  { note with title := readText note.title, body := readText note.body }

/-- What the page shows for a row that holds an entry. -/
theorem RowHolds.showNote (hcorrect : primitives.CorrectAead)
    (hholds : RowHolds primitives vault row entry) :
    Repo.showNote primitives vault row = .ok (readBack (NoteMap.note entry)) := by
  obtain ⟨titleNonce, htitle⟩ := hholds.title
  obtain ⟨bodyNonce, hbody⟩ := hholds.body
  have harchived : decide (row.2.archived = 1) = entry.2.archived := by
    rw [hholds.archived]
    cases entry.2.archived with
    | true => rfl
    | false => rfl
  refine bind_eq_ok_iff.mpr ⟨_, NoteRepositorySql.decodeRow_eq_ok_iff.mpr ⟨_, hholds.id, rfl⟩, ?_⟩
  refine bind_eq_ok_iff.mpr ⟨_, RowCodec.decryptField_of_encryptField hcorrect htitle, ?_⟩
  refine bind_eq_ok_iff.mpr ⟨_, RowCodec.decryptField_of_encryptField hcorrect hbody, ?_⟩
  dsimp only
  rw [hholds.updatedDay, harchived]
  rfl

/-- A key belongs to the id that it is encoded as. -/
theorem keysMatch_of_encode {key : Bytes} {id : String} (hencode : RowId.encode key = .ok id) :
    OrderedMap.KeysMatch (RowHolds primitives vault) key id := by
  intro row entry hholds
  constructor
  · intro hkey
    have hid := hholds.id
    rw [hkey] at hid
    exact Except.ok.inj (hid.symm.trans hencode)
  · intro hid
    have hrow := hholds.id
    rw [hid] at hrow
    exact Except.ok.inj ((RowId.decode_encode hrow).symm.trans (RowId.decode_encode hencode))

/-- A row and its entry are at one place of the listing. -/
theorem RowHolds.listKey (hholds : RowHolds primitives vault row entry) :
    NoteRepositorySql.sortKey row = NoteMap.listKey entry.2.updatedDay entry.1 := by
  rw [NoteRepositorySql.sortKey, NoteMap.listKey, RowId.decode_encode hholds.id, hholds.updatedDay]
  rfl

/-- Archiving a row archives its entry. -/
theorem RowHolds.archive (hholds : RowHolds primitives vault row entry) :
    RowHolds primitives vault (row.1, { row.2 with archived := 1 })
      (entry.1, { entry.2 with archived := true }) :=
  ⟨hholds.id, hholds.updatedDay, hholds.exactDay, rfl, hholds.title, hholds.body⟩

/-! ### One call -/

/-- The worker's rows hold the entries of the map, in their order. -/
abbrev Holds (primitives : Primitives) (vault : CryptoVault) (table : NotesTable)
    (map : NoteMap) : Prop :=
  List.Forall₂ (RowHolds primitives vault) table.entries map.entries

variable {table : NotesTable} {map : NoteMap} {key : Bytes} {id : String}

/-- An upsert under an id of a row. -/
theorem perform_upsertNote {draw : UpsertDraw} {input : NoteInput} {row : EncryptedNoteRow}
    (hrow : Repo.upsertRow primitives vault draw input = .ok row)
    (hkey : RowId.decode row.id = .ok key) :
    (RepoCall.upsertNote draw input).perform primitives vault table =
      (table.set key (NoteRepositorySql.columns row), .ok (.saved
        ⟨row.id, input.title, input.body, row.updatedDay, false⟩)) := by
  simp only [RepoCall.perform, Repo.upsertNote, hrow, send, handle, NoteRepositorySql.upsert,
    NoteRepositorySql.decodeRowId, hkey, Except.mapError]
  rfl

theorem perform_archiveNote (hkey : RowId.decode id = .ok key) :
    (RepoCall.archiveNote id).perform primitives vault table =
      (match table.get? key with
        | none => table
        | some columns => table.set key { columns with archived := 1 }, .ok .done) := by
  simp only [RepoCall.perform, Repo.archiveNote, send, handle, NoteRepositorySql.archive,
    NoteRepositorySql.decodeRowId, hkey, Except.mapError]
  rfl

theorem perform_deleteNote (hkey : RowId.decode id = .ok key) :
    (RepoCall.deleteNote id).perform primitives vault table = (table.erase key, .ok .done) := by
  simp only [RepoCall.perform, Repo.deleteNote, send, handle, NoteRepositorySql.delete,
    NoteRepositorySql.decodeRowId, hkey, Except.mapError]
  rfl

/-- A lookup is a row of the worker, decrypted. -/
theorem getNote_of_get {found : Option EncryptedNoteRow}
    (hfound : NoteRepositorySql.get table id = .ok found) :
    Repo.getNote primitives vault table id =
      match found with
      | none => .ok none
      | some row => some <$> Repo.decryptRow primitives vault row := by
  unfold Repo.getNote send
  simp only [handle, Handled.ofRead, hfound]
  cases found with
  | none => rfl
  | some row => rfl

theorem getNote_of_absent (hkey : RowId.decode id = .ok key) (habsent : table.get? key = none) :
    Repo.getNote primitives vault table id = .ok none := by
  have hfound : NoteRepositorySql.get table id = .ok none := by
    simp only [NoteRepositorySql.get, NoteRepositorySql.decodeRowId, hkey, Except.mapError]
    exact bind_eq_ok_iff.mpr ⟨key, rfl, by rw [habsent]; rfl⟩
  exact getNote_of_get hfound

theorem getNote_of_present (hkey : RowId.decode id = .ok key) {columns : NoteColumns}
    (hpresent : table.get? key = some columns) {note : Note}
    (hnote : Repo.showNote primitives vault (key, columns) = .ok note) :
    Repo.getNote primitives vault table id = .ok (some note) := by
  obtain ⟨row, hrow, hnote⟩ := bind_eq_ok_iff.mp hnote
  have hfound : NoteRepositorySql.get table id = .ok (some row) := by
    simp only [NoteRepositorySql.get, NoteRepositorySql.decodeRowId, hkey, Except.mapError]
    refine bind_eq_ok_iff.mpr ⟨key, rfl, ?_⟩
    rw [hpresent]
    exact congrArg (Except.map some) hrow
  rw [getNote_of_get hfound]
  exact congrArg (Except.map some) hnote

/-! ### What a call does -/

/-- The ids that calls may use were issued. -/
def Issued (ids : List String) : Prop :=
  ∀ id ∈ ids, ∃ key, RowId.encode key = .ok id

/-- A reply whose notes are read back. -/
def RepoReply.readBack : RepoReply → RepoReply
  | .saved note => .saved note
  | .done => .done
  | .found note => .found (note.map Storage.readBack)
  | .listed page => .listed { page with notes := page.notes.map Storage.readBack }

/-- The parts of the row that an upsert sends. -/
theorem upsertRow_parts {draw : UpsertDraw} {input : NoteInput} {row : EncryptedNoteRow}
    (hrow : Repo.upsertRow primitives vault draw input = .ok row) :
    Repo.noteId draw input = .ok row.id ∧ row.updatedDay = todayDayBucket draw.now ∧
      row.archived = false ∧
      (∃ nonce, RowCodec.encryptField primitives vault nonce row.id "title" input.title =
        .ok ⟨row.titleNonce, row.titleCiphertext⟩) ∧
      ∃ nonce, RowCodec.encryptField primitives vault nonce row.id "body" input.body =
        .ok ⟨row.bodyNonce, row.bodyCiphertext⟩ := by
  obtain ⟨id, hid, hencrypt⟩ := bind_eq_ok_iff.mp hrow
  obtain ⟨title, htitle, hencrypt⟩ := bind_eq_ok_iff.mp hencrypt
  obtain ⟨body, hbody, hencrypt⟩ := bind_eq_ok_iff.mp hencrypt
  obtain rfl := Except.ok.inj hencrypt
  exact ⟨hid, rfl, rfl, ⟨_, htitle⟩, _, hbody⟩

/-- The id of an upsert is one that was issued, or it is fresh. -/
theorem exists_encode_noteId {draw : UpsertDraw} {input : NoteInput}
    (hid : Repo.noteId draw input = .ok id) (hissued : Issued input.id.toList) :
    ∃ key, RowId.encode key = .ok id := by
  unfold Repo.noteId at hid
  split at hid
  · next given hgiven =>
    apply hissued
    rw [hgiven, ← Except.ok.inj hid]
    exact List.mem_cons_self
  · exact ⟨_, mapError_eq_ok_iff.mp hid⟩

/-- What follows for each row that holds an entry follows for all. -/
theorem forall_of_holds {property : Bytes × NoteColumns → Prop}
    (hholds : Holds primitives vault table map)
    (hrow : ∀ row entry, RowHolds primitives vault row entry → property row) :
    ∀ row ∈ table.entries, property row :=
  ((List.forall₂_and_left _ _).mp
    (hholds.imp fun row entry hentry ↦ ⟨hrow row entry hentry, hentry⟩)).1

/-- The keys of rows that hold entries are row ids. -/
theorem length_of_holds (hholds : Holds primitives vault table map) :
    ∀ row ∈ table.entries, row.1.length = RowId.rowIdBytes :=
  forall_of_holds hholds fun _ _ hrow ↦ RowId.decode_length (RowId.decode_encode hrow.id)

/-- The days of rows that hold entries are exact. -/
theorem exactDays_of_holds (hholds : Holds primitives vault table map) :
    NoteRepositorySql.ExactDays table := by
  refine forall_of_holds hholds fun row entry hrow ↦ ?_
  rw [hrow.updatedDay]
  exact hrow.exactDay

/-- The rows that the filter keeps hold the entries that it keeps. -/
theorem forall₂_matching (hholds : Holds primitives vault table map) (includeArchived : Bool) :
    List.Forall₂ (RowHolds primitives vault) (NoteRepositorySql.matching includeArchived table)
      (map.entries.filter fun entry ↦ includeArchived || !entry.2.archived) := by
  refine List.rel_filter ?_ hholds
  intro row entry hrow
  dsimp only
  rw [hrow.archived]
  cases entry.2.archived with
  | true => cases includeArchived <;> simp
  | false => cases includeArchived <;> simp

/-- The cursor after the last note of a page. -/
theorem eq_cursorText {text : String} {row : Bytes × NoteColumns} {entry : String × NoteEntry}
    (hdenotes : NoteRepositorySql.CursorDenotes (some text) (some (NoteRepositorySql.sortKey row)))
    (hrow : RowHolds primitives vault row entry) :
    text = cursorText entry.2.updatedDay entry.1 := by
  generalize hkey : NoteRepositorySql.sortKey row = bound at hdenotes
  cases hdenotes with
  | @after day hexact bytes id hencode =>
    have hday : row.2.updatedDay = day := congrArg (fun key ↦ (ofLex key).1) hkey
    have hoctets : RowId.octets row.1 = RowId.octets bytes :=
      congrArg (fun key ↦ (ofLex key).2) hkey
    have hbytes := RowId.octets_injective hoctets
    have hid := hrow.id
    rw [hbytes] at hid
    rw [← Except.ok.inj (hid.symm.trans hencode), ← hday, hrow.updatedDay]
    rfl

/-- The text of a cursor stands for its place in the listing. -/
theorem denotes_text {cursor : Option NoteCursor}
    (hcursor : ∀ last ∈ cursor, ∃ key, RowId.encode key = .ok last.id) :
    NoteRepositorySql.CursorDenotes (cursor.map NoteCursor.text)
      (cursor.map fun last ↦ NoteMap.listKey last.updatedDay last.id) := by
  cases cursor with
  | none => exact .start
  | some last =>
    obtain ⟨key, hencode⟩ := hcursor last rfl
    have hplace : NoteMap.listKey last.updatedDay last.id =
        toLex (last.updatedDay, RowId.octets key) := by
      rw [NoteMap.listKey, RowId.decode_encode hencode]
      rfl
    rw [Option.map_some, Option.map_some, hplace]
    exact .after last.exactDay hencode

/-- A page of the worker's rows is the page of the map, read back. -/
theorem listNotes_of_holds (hcorrect : primitives.CorrectAead)
    (hholds : Holds primitives vault table map) (limit : Option ℤ) {cursor : Option NoteCursor}
    (hcursor : ∀ last ∈ cursor, ∃ key, RowId.encode key = .ok last.id)
    (includeArchived : Option Bool) :
    Repo.listNotes primitives vault table ⟨limit, cursor.map NoteCursor.text, includeArchived⟩ =
      .ok { map.page (NoteRepositorySql.pageLimit (limit.getD 50)) cursor
        (includeArchived.getD false) with
          notes := (map.page (NoteRepositorySql.pageLimit (limit.getD 50)) cursor
            (includeArchived.getD false)).notes.map readBack } := by
  have hdenotes := denotes_text hcursor
  obtain ⟨fetched, hfetched⟩ := NoteRepositorySql.list_isOk (length_of_holds hholds)
    (limit.getD 50) (includeArchived.getD false)
    (NoteRepositorySql.cursorWhere_of_denotes hdenotes)
  obtain ⟨hrows, hnext⟩ :=
    NoteRepositorySql.list_spec (exactDays_of_holds hholds) hdenotes hfetched
  have hpast := forall₂_itemsPast (fun _ _ hrow ↦ RowHolds.listKey hrow)
    (cursor.map fun last ↦ NoteMap.listKey last.updatedDay last.id)
    (forall₂_matching hholds (includeArchived.getD false))
  change List.Forall₂ _ _ (map.listed cursor (includeArchived.getD false)) at hpast
  rw [keysetPage] at hrows
  rw [keysetNext, keysetPage] at hnext
  generalize NoteRepositorySql.pageLimit (limit.getD 50) = limit at hrows hnext ⊢
  generalize itemsPast NoteRepositorySql.sortKey
    (cursor.map fun last ↦ NoteMap.listKey last.updatedDay last.id)
    (NoteRepositorySql.matching (includeArchived.getD false) table) = rows at hrows hnext hpast
  have hshown := List.forall₂_take limit hpast
  have hnotes : (rows.take limit).mapM (Repo.showNote primitives vault) =
      .ok (((map.listed cursor (includeArchived.getD false)).take limit).map fun entry ↦
        readBack (NoteMap.note entry)) := by
    rw [mapM_eq_ok_iff, List.forall₂_map_right_iff]
    exact hshown.imp fun _ _ hrow ↦ hrow.showNote hcorrect
  have hcursorNext : fetched.nextCursor =
      (map.page limit cursor (includeArchived.getD false)).nextCursor := by
    unfold NoteMap.page
    dsimp only
    rw [← hpast.length_eq]
    by_cases hmore : limit < rows.length
    · rw [if_pos hmore] at hnext ⊢
      cases hlast : (rows.take limit).getLast? with
      | none =>
        have hempty := hshown.length_eq
        rw [List.getLast?_eq_none_iff.mp hlast, List.length_nil] at hempty
        rw [List.eq_nil_of_length_eq_zero hempty.symm]
        rw [hlast] at hnext
        exact hnext.null
      | some row =>
        obtain ⟨entry, hentry, hrow⟩ := getLast?_of_forall₂ hshown hlast
        rw [hlast] at hnext
        rw [hentry]
        cases htext : fetched.nextCursor with
        | none =>
          rw [htext] at hnext
          cases hnext.eq_none
        | some text =>
          rw [htext] at hnext
          exact congrArg some (eq_cursorText hnext hrow)
    · rw [if_neg hmore] at hnext ⊢
      exact hnext.null
  rw [Repo.listNotes_eq]
  refine bind_eq_ok_iff.mpr ⟨fetched, hfetched, ?_⟩
  rw [mapM_of_comp hrows hnotes, hcursorNext]
  change Except.ok _ = Except.ok _
  rw [NoteMap.page, List.map_map]
  rfl

/-- The day of the clock is exact. -/
theorem exactDay_todayDayBucket (now : TimeValue) :
    NoteRepositorySql.ExactDay (todayDayBucket now) := by
  unfold NoteRepositorySql.ExactDay todayDayBucket
  have hrange := now.isLt
  omega

/-- What a call does to the worker's rows it does to the map, and its reply is the reply of the map,
read back. -/
theorem perform_spec (hcorrect : primitives.CorrectAead)
    (hholds : Holds primitives vault table map) {call : RepoCall} (hissued : Issued call.ids)
    (hencrypts : ∀ draw input, call = .upsertNote draw input →
      ∃ row, Repo.upsertRow primitives vault draw input = .ok row) :
    Holds primitives vault (call.perform primitives vault table).1 (map.perform call).1 ∧
      (call.perform primitives vault table).2 = .ok (map.perform call).2.readBack := by
  cases call with
  | upsertNote draw input =>
    obtain ⟨row, hrow⟩ := hencrypts draw input rfl
    obtain ⟨hid, hday, harchived, htitle, hbody⟩ := upsertRow_parts hrow
    obtain ⟨key, hencode⟩ := exists_encode_noteId hid hissued
    have hkeys := @keysMatch_of_encode primitives vault key row.id hencode
    have hnew : RowHolds primitives vault (key, NoteRepositorySql.columns row)
        (row.id, ⟨input.title, input.body, todayDayBucket draw.now, false⟩) :=
      ⟨hencode, hday, exactDay_todayDayBucket draw.now,
        by rw [NoteRepositorySql.columns, harchived], htitle, hbody⟩
    rw [perform_upsertNote hrow (RowId.decode_encode hencode)]
    simp only [NoteMap.perform, hid]
    refine ⟨OrderedMap.related_set hkeys hholds hnew, ?_⟩
    rw [hday]
    rfl
  | archiveNote id =>
    obtain ⟨key, hencode⟩ := hissued id List.mem_cons_self
    have hkeys := @keysMatch_of_encode primitives vault key id hencode
    rw [perform_archiveNote (RowId.decode_encode hencode)]
    rcases OrderedMap.get?_of_related hkeys hholds with
      ⟨habsent, habsentId⟩ | ⟨columns, entry, hpresent, hpresentId, hrow⟩
    · simp only [NoteMap.perform, habsent, habsentId]
      exact ⟨hholds, rfl⟩
    · simp only [NoteMap.perform, hpresent, hpresentId]
      exact ⟨OrderedMap.related_set hkeys hholds hrow.archive, rfl⟩
  | deleteNote id =>
    obtain ⟨key, hencode⟩ := hissued id List.mem_cons_self
    have hkeys := @keysMatch_of_encode primitives vault key id hencode
    rw [perform_deleteNote (RowId.decode_encode hencode)]
    exact ⟨OrderedMap.related_erase hkeys hholds, rfl⟩
  | getNote id =>
    obtain ⟨key, hencode⟩ := hissued id List.mem_cons_self
    have hkeys := @keysMatch_of_encode primitives vault key id hencode
    have hdecode := RowId.decode_encode hencode
    refine ⟨hholds, ?_⟩
    change (Repo.getNote primitives vault table id).map RepoReply.found = _
    rcases OrderedMap.get?_of_related hkeys hholds with
      ⟨habsent, habsentId⟩ | ⟨columns, entry, hpresent, hpresentId, hrow⟩
    · rw [getNote_of_absent hdecode habsent]
      simp only [NoteMap.perform, habsentId]
      rfl
    · rw [getNote_of_present hdecode hpresent (hrow.showNote hcorrect)]
      simp only [NoteMap.perform, hpresentId]
      rfl
  | listNotes limit cursor includeArchived =>
    refine ⟨hholds, ?_⟩
    change (Repo.listNotes primitives vault table
      ⟨limit, cursor.map NoteCursor.text, includeArchived⟩).map RepoReply.listed = _
    rw [listNotes_of_holds hcorrect hholds limit ?_ includeArchived]
    · rfl
    · intro last hlast
      apply hissued
      rw [RepoCall.ids, Option.mem_toList]
      exact Option.mem_map_of_mem _ hlast

/-! ### Runs -/

/-- The worker's table, the map that it stands for, and the ids that upserts have returned. -/
structure NoteSession where
  table : NotesTable
  map : NoteMap
  issued : List String

namespace NoteSession

/-- Before the first call. -/
def fresh : NoteSession :=
  ⟨.empty, .empty, []⟩

/-- One call, on both sides. -/
def step (primitives : Primitives) (vault : CryptoVault) (session : NoteSession)
    (call : RepoCall) : Option NoteSession :=
  let replied := call.perform primitives vault session.table
  some {
    table := replied.1
    map := (session.map.perform call).1
    issued := match replied.2 with
      | .ok (.saved note) => note.id :: session.issued
      | _ => session.issued }

/-- The calls of the Repos of one vault and one worker, in the order in which they are handled. -/
def automaton (primitives : Primitives) (vault : CryptoVault) : Automaton NoteSession RepoCall :=
  ⟨step primitives vault⟩

/-- The call uses ids that upserts have returned, and what it writes can be encrypted. -/
def Admissible (primitives : Primitives) (vault : CryptoVault) (session : NoteSession)
    (call : RepoCall) : Prop :=
  (∀ id ∈ call.ids, id ∈ session.issued) ∧
    match call with
    | .upsertNote draw input => (Repo.upsertRow primitives vault draw input).isOk = true
    | _ => True

instance (session : NoteSession) (call : RepoCall) :
    Decidable (Admissible primitives vault session call) := by
  unfold Admissible
  cases call <;> infer_instance

/-- The call is settled with the reply of the map. -/
def Agrees (primitives : Primitives) (vault : CryptoVault) (session : NoteSession)
    (call : RepoCall) : Prop :=
  (call.perform primitives vault session.table).2 = .ok (session.map.perform call).2

instance (session : NoteSession) (call : RepoCall) :
    Decidable (Agrees primitives vault session call) := by
  unfold Agrees
  infer_instance

/-- The notes that a reply read from the storage. -/
def notesRead : RepoReply → List Note
  | .saved _ => []
  | .done => []
  | .found note => note.toList
  | .listed page => page.notes

/-- Every entry that the call reads has a title and a body that are read as they were written. -/
def ReadsIntact (session : NoteSession) (call : RepoCall) : Prop :=
  ∀ note ∈ notesRead (session.map.perform call).2, Intact note.title ∧ Intact note.body

instance (session : NoteSession) (call : RepoCall) : Decidable (ReadsIntact session call) := by
  unfold ReadsIntact
  infer_instance

end NoteSession

/-- A note is read back as it was written when both fields are. -/
theorem readBack_eq_self_iff (note : Note) :
    readBack note = note ↔ Intact note.title ∧ Intact note.body := by
  rw [← readText_eq_self_iff, ← readText_eq_self_iff]
  constructor
  · intro hsame
    exact ⟨congrArg Note.title hsame, congrArg Note.body hsame⟩
  · rintro ⟨htitle, hbody⟩
    rw [readBack, htitle, hbody]

/-- A list of notes is read back as it was written when every note is. -/
theorem map_readBack_eq_self_iff (notes : List Note) :
    notes.map readBack = notes ↔ ∀ note ∈ notes, readBack note = note := by
  induction notes with
  | nil => simp
  | cons note rest ih => rw [List.map_cons, List.cons.injEq, ih, List.forall_mem_cons]

/-- A reply is read back as it is when every note that it read is. -/
theorem readBack_reply_eq_self_iff (reply : RepoReply) :
    reply.readBack = reply ↔ ∀ note ∈ NoteSession.notesRead reply,
      Intact note.title ∧ Intact note.body := by
  simp only [← readBack_eq_self_iff]
  cases reply with
  | saved note => simp [RepoReply.readBack, NoteSession.notesRead]
  | done => simp [RepoReply.readBack, NoteSession.notesRead]
  | found note => cases note <;> simp [RepoReply.readBack, NoteSession.notesRead]
  | listed page =>
    rw [RepoReply.readBack, RepoReply.listed.injEq, NoteSession.notesRead,
      ← map_readBack_eq_self_iff]
    constructor
    · exact congrArg ListPage.notes
    · intro hnotes
      rw [hnotes]

namespace NoteSession

/-- The worker's rows hold the entries of the map, and every issued id is one of a row. -/
structure Simulates (primitives : Primitives) (vault : CryptoVault) (session : NoteSession) :
    Prop where
  holds : Holds primitives vault session.table session.map
  issued : Issued session.issued

/-- The id that an upsert returns is the id of a row. -/
theorem exists_encode_saved {map : NoteMap} {call : RepoCall} (hissued : Issued call.ids)
    {note : Note} (hsaved : (map.perform call).2.readBack = .saved note) :
    ∃ key, RowId.encode key = .ok note.id := by
  cases call with
  | upsertNote draw input =>
    simp only [NoteMap.perform] at hsaved
    cases hid : Repo.noteId draw input with
    | error message =>
      rw [hid] at hsaved
      cases hsaved
    | ok id =>
      rw [hid] at hsaved
      rw [← RepoReply.saved.inj hsaved]
      exact exists_encode_noteId hid hissued
  | archiveNote id =>
    simp only [NoteMap.perform] at hsaved
    cases hentry : map.get? id with
    | none =>
      rw [hentry] at hsaved
      cases hsaved
    | some entry =>
      rw [hentry] at hsaved
      cases hsaved
  | _ => cases hsaved

theorem simulates_fresh : Simulates primitives vault fresh where
  holds := .nil
  issued := by
    intro id hid
    cases hid

/-- A call agrees with the map exactly when what it reads is intact, and keeps the simulation. -/
theorem Simulates.step (hcorrect : primitives.CorrectAead) {session : NoteSession}
    (hsimulates : Simulates primitives vault session) {call : RepoCall}
    (hadmissible : Admissible primitives vault session call) :
    (Agrees primitives vault session call ↔ ReadsIntact session call) ∧
      ∀ next, (automaton primitives vault).step session call = some next →
        Simulates primitives vault next := by
  have hissued : Issued call.ids := fun id hid ↦ hsimulates.issued id (hadmissible.1 id hid)
  obtain ⟨hholds, hreply⟩ := perform_spec hcorrect hsimulates.holds hissued (by
    rintro draw input rfl
    exact isOk_iff.mp hadmissible.2)
  refine ⟨?_, ?_⟩
  · unfold Agrees ReadsIntact
    rw [hreply, Except.ok.injEq]
    exact readBack_reply_eq_self_iff _
  · intro next hnext
    obtain rfl := Option.some.inj hnext
    refine ⟨hholds, ?_⟩
    change Issued (match (call.perform primitives vault session.table).2 with
      | .ok (.saved note) => note.id :: session.issued
      | _ => session.issued)
    split
    · next note hnote =>
      have hsaved := Except.ok.inj (hreply.symm.trans hnote)
      exact List.forall_mem_cons.mpr ⟨exists_encode_saved hissued hsaved, hsimulates.issued⟩
    · exact hsimulates.issued

/-- For every sequence of calls that use ids returned by upserts: every reply is the reply of the
map, if and only if no call reads a title or a body that was written with a lone surrogate, or with
a byte order mark at its front. -/
theorem agrees_iff (hcorrect : primitives.CorrectAead) (calls : List RepoCall)
    (hadmissible : (automaton primitives vault).RunMeets (Admissible primitives vault) fresh
      calls) :
    (automaton primitives vault).RunMeets (Agrees primitives vault) fresh calls ↔
      (automaton primitives vault).RunMeets ReadsIntact fresh calls :=
  Automaton.RunMeets.congr (Simulates primitives vault)
    (fun _ _ hsimulates hadmits ↦ hsimulates.step hcorrect hadmits) simulates_fresh hadmissible

end NoteSession

/-! ### A sample -/

/-- An array of equal bytes. -/
def repeated (length : ℕ) (byte : UInt8) : ByteArrayN length :=
  ⟨List.replicate length byte, List.length_replicate⟩

/-- A reading of the clock. -/
def sampleNow : TimeValue := ⟨1700000000000, by decide⟩

/-- The vault whose key is `33..`. -/
def sampleVault : CryptoVault := ⟨repeated 32 0x33⟩

/-- The ids of the keys `99..` and `55..`. -/
def firstId : String := "K6CSK6CSK6CSK6CSK6CSK6CSK4"

def secondId : String := "ANANANANANANANANANANANANAM"

/-- The fields of three notes under the key of the vault. -/
def sampleEntries : List AeadEntry :=
  [⟨repeated 32 0x33, repeated 12 0xa1, aadFor firstId "title", utf8 "Hi",
      bytesOf 18 0x3dcb3c5b29e058f223114e5082ab961c936e⟩,
    ⟨repeated 32 0x33, repeated 12 0xa2, aadFor firstId "body", utf8 "Yo",
      bytesOf 18 0x026d5877d20f80ccb4ea954a7cd68d466aee⟩,
    ⟨repeated 32 0x33, repeated 12 0xa3, aadFor secondId "title", utf8 "Plan",
      bytesOf 20 0x6f5430a3951d1a160c453cb4a34736e101e35783⟩,
    ⟨repeated 32 0x33, repeated 12 0xa4, aadFor secondId "body", utf8 "",
      bytesOf 16 0x4c284605783479c6b547f5ec6498a176⟩,
    ⟨repeated 32 0x33, repeated 12 0xa5, aadFor firstId "title", utf8 "\uFEFFHi",
      bytesOf 21 0xa457ad35d3f26ac8366c590dd03c6bfef8afdcad6f⟩,
    ⟨repeated 32 0x33, repeated 12 0xa6, aadFor firstId "body", utf8 "Yo",
      bytesOf 18 0x8d229ebc758bd00def4129d88950cb93a4ce⟩]

/-- The encryption at the values of these notes. The storage uses no other primitive. -/
def sampleNotes : Primitives where
  blake3 := fun _ ↦ repeated 32 0
  base32Encode := fun _ ↦ ""
  publicKey := fun secret ↦ secret
  diffieHellman := fun secret _ ↦ secret
  hkdf := fun _ _ _ ↦ none
  aeadEncrypt := tableEncrypt sampleEntries
  aeadDecrypt := tableDecrypt sampleEntries

/-- The table is correct. -/
theorem correctAead_sampleNotes : sampleNotes.CorrectAead :=
  @correctAead_of_table sampleNotes sampleEntries rfl rfl (by decide +kernel)

/-- The first note is saved, under a fresh id or again. -/
def saveFirst (given : Option String) : RepoCall :=
  .upsertNote ⟨repeated 16 0x99, repeated 12 0xa1, repeated 12 0xa2, sampleNow⟩
    ⟨given, jsString "Hi", jsString "Yo"⟩

/-- The second note is saved. -/
def saveSecond : RepoCall :=
  .upsertNote ⟨repeated 16 0x55, repeated 12 0xa3, repeated 12 0xa4, sampleNow⟩
    ⟨none, jsString "Plan", []⟩

namespace NoteSession

/-- Two notes are saved, one is archived, saved again and deleted, with lookups and pages
between. -/
def twoNotes : List RepoCall :=
  [saveFirst none, saveSecond, .archiveNote firstId, .listNotes none none none,
    .listNotes (some 1) none (some true),
    .listNotes (some 1) (some ⟨19675, firstId, by decide⟩) (some true),
    .getNote firstId, saveFirst (some firstId), .getNote firstId, .deleteNote secondId,
    .getNote secondId, .listNotes none none (some true)]

/-- Every reply of this run is the reply of the map. -/
theorem agrees_iff_twoNotes :
    (automaton sampleNotes sampleVault).RunMeets (Agrees sampleNotes sampleVault) fresh twoNotes :=
  (agrees_iff correctAead_sampleNotes twoNotes (by decide +kernel)).mpr (by decide +kernel)

/-- A title with a byte order mark at its front is saved and read. -/
def saveMarked : List RepoCall :=
  [.upsertNote ⟨repeated 16 0x99, repeated 12 0xa5, repeated 12 0xa6, sampleNow⟩
      ⟨none, jsString "\uFEFFHi", jsString "Yo"⟩, .getNote firstId]

/-- The lookup returns the title without its mark. -/
theorem not_agrees_saveMarked :
    (((automaton sampleNotes sampleVault).run fresh (saveMarked.take 1)).map fun session ↦
      Repo.getNote sampleNotes sampleVault session.table firstId) =
        some (.ok (some ⟨firstId, jsString "Hi", jsString "Yo", 19675, false⟩)) ∧
    (automaton sampleNotes sampleVault).RunMeets (Admissible sampleNotes sampleVault) fresh
      saveMarked ∧
    ¬ (automaton sampleNotes sampleVault).RunMeets (Agrees sampleNotes sampleVault) fresh
      saveMarked := by
  have hadmissible : (automaton sampleNotes sampleVault).RunMeets
      (Admissible sampleNotes sampleVault) fresh saveMarked := by decide +kernel
  refine ⟨by decide +kernel, hadmissible, fun hagrees ↦ ?_⟩
  revert hagrees
  decide +kernel

end NoteSession

end OpfsWebauthn.Storage
