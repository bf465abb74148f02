import OpfsWebauthn.Storage.Cursors
import OpfsWebauthn.Storage.Repo

/-!
# Listing the notes

When `Repo.listNotes` succeeds. A row `Reads` under a vault when the page can decode it and decrypt
both of its fields, and a listing of rows that all read succeeds for every well-formed cursor.
-/

set_option autoImplicit false
set_option relaxedAutoImplicit false

namespace OpfsWebauthn.Storage

open Foundation Crypto

/-! ### Rows that read -/

namespace Repo

variable (primitives : Primitives) (vault : CryptoVault)

/-- The page can decode the row and decrypt its fields. -/
def Reads (row : Bytes × NoteColumns) : Prop :=
  ∃ shown note, NoteRepositorySql.decodeRow row = .ok shown ∧
    decryptRow primitives vault shown = .ok note

/-- Every row of the table reads. -/
def TableReads (table : NotesTable) : Prop :=
  ∀ row ∈ table.entries, Reads primitives vault row

/-- The title of the row was encrypted under a key. -/
def MadeUnder (history : List AeadEntry) (key : ByteArrayN keyLen) (row : Bytes × NoteColumns) :
    Prop :=
  ∃ made ∈ history, made.key = key ∧ made.ciphertext = row.2.titleCiphertext

/-- The encryptions of an upsert that sends its row. -/
def encryptions (draw : UpsertDraw) (input : NoteInput) : List AeadEntry :=
  match upsertRow primitives vault draw input with
  | .error _ => []
  | .ok row =>
    [⟨vault.dek, draw.titleNonce, aadFor row.id "title", utf8 (usvString input.title),
        row.titleCiphertext⟩,
      ⟨vault.dek, draw.bodyNonce, aadFor row.id "body", utf8 (usvString input.body),
        row.bodyCiphertext⟩]

variable {primitives} {vault}

/-- The note that the page shows for a row. -/
def showNote (primitives : Primitives) (vault : CryptoVault) (row : Bytes × NoteColumns) :
    Except String Note :=
  NoteRepositorySql.decodeRow row >>= decryptRow primitives vault

/-- The id of the note is what the key of the row is encoded as. -/
theorem encode_of_showNote {row : Bytes × NoteColumns} {note : Note}
    (hnote : showNote primitives vault row = .ok note) : RowId.encode row.1 = .ok note.id := by
  obtain ⟨shown, hshown, hnote⟩ := bind_eq_ok_iff.mp hnote
  obtain ⟨id, hid, rfl⟩ := NoteRepositorySql.decodeRow_eq_ok_iff.mp hshown
  obtain ⟨title, -, hnote⟩ := bind_eq_ok_iff.mp hnote
  obtain ⟨body, -, hnote⟩ := bind_eq_ok_iff.mp hnote
  obtain rfl := Except.ok.inj hnote
  exact hid

/-- A listing is a page of the worker, decrypted. -/
theorem listNotes_eq (primitives : Primitives) (vault : CryptoVault) (table : NotesTable)
    (opts : ListOptions) : listNotes primitives vault table opts =
      NoteRepositorySql.list table
        ⟨opts.limit.getD 50, opts.cursor, opts.includeArchived.getD false⟩ >>= fun page ↦
          (page.rows.mapM (decryptRow primitives vault)).map fun notes ↦
            ⟨notes, page.nextCursor⟩ := by
  unfold listNotes send
  simp only [handle, Handled.ofRead]
  cases NoteRepositorySql.list table
    ⟨opts.limit.getD 50, opts.cursor, opts.includeArchived.getD false⟩ with
  | error message => rfl
  | ok page =>
    cases hnotes : page.rows.mapM (decryptRow primitives vault) with
    | error message =>
      change (page.rows.mapM (decryptRow primitives vault) >>= _) = _
      rw [hnotes]
      change _ = (page.rows.mapM (decryptRow primitives vault)).map _
      rw [hnotes]
      rfl
    | ok notes =>
      change (page.rows.mapM (decryptRow primitives vault) >>= _) = _
      rw [hnotes]
      change _ = (page.rows.mapM (decryptRow primitives vault)).map _
      rw [hnotes]
      rfl

/-- A listing succeeds on rows that read, for every well-formed cursor. -/
theorem listNotes_ok {table : NotesTable} (hreads : TableReads primitives vault table)
    {opts : ListOptions} {condition : Bytes × NoteColumns → Bool}
    (hcursor : NoteRepositorySql.cursorWhere opts.cursor = .ok condition) :
    ∃ page, listNotes primitives vault table opts = .ok page := by
  let input : ListPageInput :=
    ⟨opts.limit.getD 50, opts.cursor, opts.includeArchived.getD false⟩
  let limit := (max NoteRepositorySql.listLimitMin
    (min input.limit NoteRepositorySql.listLimitMax)).toNat
  let raw := (NoteRepositorySql.listQuery table input.includeArchived condition
    (limit + 1)).take limit
  have hraw : ∀ row ∈ raw, Reads primitives vault row := fun row hrow ↦
    hreads row (NoteRepositorySql.mem_of_mem_listQuery (List.mem_of_mem_take hrow))
  have hdecoded : ∃ rows, raw.mapM NoteRepositorySql.decodeRow = .ok rows := by
    apply mapM_isOk_iff.mpr
    intro row hrow
    obtain ⟨shown, -, hshown, -⟩ := hraw row hrow
    exact ⟨shown, hshown⟩
  obtain ⟨rows, hrows⟩ := hdecoded
  have hlist : ∃ nextCursor, NoteRepositorySql.list table input = .ok ⟨rows, nextCursor⟩ := by
    unfold NoteRepositorySql.list
    rw [show input.cursor = opts.cursor from rfl, hcursor]
    exact ⟨_, bind_eq_ok_iff.mpr ⟨condition, rfl, bind_eq_ok_iff.mpr ⟨rows, hrows, rfl⟩⟩⟩
  obtain ⟨nextCursor, hlist⟩ := hlist
  have hnotes : ∃ notes, rows.mapM (decryptRow primitives vault) = .ok notes := by
    apply mapM_isOk_iff.mpr
    intro shown hshown
    obtain ⟨row, hrow, hdecode⟩ := exists_of_mem_mapM hrows hshown
    obtain ⟨other, note, hother, hnote⟩ := hraw row hrow
    obtain rfl : other = shown := Except.ok.inj (hother.symm.trans hdecode)
    exact ⟨note, hnote⟩
  obtain ⟨notes, hnotes⟩ := hnotes
  refine ⟨⟨notes, nextCursor⟩, ?_⟩
  rw [listNotes_eq]
  refine bind_eq_ok_iff.mpr ⟨_, hlist, ?_⟩
  change (rows.mapM (decryptRow primitives vault)).map _ = _
  rw [hnotes]
  rfl

/-- A listing of exact days is a page of the matching rows past the cursor, each shown as its
note. -/
theorem listNotes_spec {table : NotesTable} {limit : ℤ} {cursor : Option String}
    {includeArchived : Bool} {last : Option (ℤ ×ₗ List ℕ)}
    (hdays : NoteRepositorySql.ExactDays table)
    (hdenotes : NoteRepositorySql.CursorDenotes cursor last) {page : ListPage}
    (hpage : listNotes primitives vault table ⟨some limit, cursor, some includeArchived⟩ =
      .ok page) :
    (keysetPage NoteRepositorySql.sortKey (NoteRepositorySql.pageLimit limit) last
      (NoteRepositorySql.matching includeArchived table)).mapM (showNote primitives vault) =
        .ok page.notes ∧
    NoteRepositorySql.CursorDenotes page.nextCursor (keysetNext NoteRepositorySql.sortKey
      (NoteRepositorySql.pageLimit limit) last
        (NoteRepositorySql.matching includeArchived table)) := by
  rw [listNotes_eq] at hpage
  obtain ⟨fetched, hfetched, hpage⟩ := bind_eq_ok_iff.mp hpage
  obtain ⟨hrows, hnext⟩ := NoteRepositorySql.list_spec hdays hdenotes hfetched
  cases hnotes : fetched.rows.mapM (decryptRow primitives vault) with
  | error message =>
    rw [hnotes] at hpage
    cases hpage
  | ok notes =>
    rw [hnotes] at hpage
    obtain rfl := Except.ok.inj hpage
    exact ⟨mapM_comp hrows hnotes, hnext⟩

/-- A row reads when its key is encoded as an id under which both fields decrypt. -/
theorem reads_iff {row : Bytes × NoteColumns} :
    Reads primitives vault row ↔ ∃ id, RowId.encode row.1 = .ok id ∧
      (∃ title, RowCodec.decryptField primitives vault id "title"
        ⟨row.2.titleNonce, row.2.titleCiphertext⟩ = .ok title) ∧
      ∃ body, RowCodec.decryptField primitives vault id "body"
        ⟨row.2.bodyNonce, row.2.bodyCiphertext⟩ = .ok body := by
  constructor
  · rintro ⟨shown, note, hshown, hnote⟩
    obtain ⟨id, hid, rfl⟩ := NoteRepositorySql.decodeRow_eq_ok_iff.mp hshown
    obtain ⟨title, htitle, hnote⟩ := bind_eq_ok_iff.mp hnote
    obtain ⟨body, hbody, -⟩ := bind_eq_ok_iff.mp hnote
    exact ⟨id, hid, ⟨title, htitle⟩, body, hbody⟩
  · rintro ⟨id, hid, ⟨title, htitle⟩, body, hbody⟩
    refine ⟨_, ⟨id, title, body, row.2.updatedDay, row.2.archived = 1⟩,
      NoteRepositorySql.decodeRow_eq_ok_iff.mpr ⟨id, hid, rfl⟩, ?_⟩
    exact bind_eq_ok_iff.mpr ⟨title, htitle, bind_eq_ok_iff.mpr ⟨body, hbody, rfl⟩⟩

/-- A row that reads does so after a longer history. -/
theorem Reads.mono {history later : List AeadEntry} (hlater : ∀ entry ∈ history, entry ∈ later)
    {row : Bytes × NoteColumns} (hreads : Reads (primitives.after history) vault row) :
    Reads (primitives.after later) vault row := by
  obtain ⟨id, hid, ⟨title, htitle⟩, body, hbody⟩ := reads_iff.mp hreads
  exact reads_iff.mpr ⟨id, hid, ⟨title, RowCodec.decryptField_mono hlater htitle⟩,
    body, RowCodec.decryptField_mono hlater hbody⟩

/-- A row reads only under the key that its title was encrypted under. -/
theorem dek_of_reads {history : List AeadEntry} (hdistinct : DistinctCiphertexts history)
    {key : ByteArrayN keyLen} {row : Bytes × NoteColumns} (hmade : MadeUnder history key row)
    (hreads : Reads (primitives.after history) vault row) : vault.dek = key := by
  obtain ⟨made, hmade, rfl, hciphertext⟩ := hmade
  obtain ⟨id, -, ⟨title, htitle⟩, -⟩ := reads_iff.mp hreads
  exact (RowCodec.of_decryptField hdistinct hmade hciphertext htitle).1

/-- The id of the row that `encryptNote` makes. -/
theorem id_of_encryptNote {draw : UpsertDraw} {id : String} {updatedDay : ℤ} {input : NoteInput}
    {row : EncryptedNoteRow}
    (hrow : encryptNote primitives vault draw id updatedDay input = .ok row) : row.id = id := by
  obtain ⟨title, -, hrow⟩ := bind_eq_ok_iff.mp hrow
  obtain ⟨body, -, hrow⟩ := bind_eq_ok_iff.mp hrow
  rw [← Except.ok.inj hrow]

/-- The row that `upsertRow` makes carries both fields, encrypted for its id. -/
theorem upsertRow_spec {draw : UpsertDraw} {input : NoteInput} {row : EncryptedNoteRow}
    (hrow : upsertRow primitives vault draw input = .ok row) :
    (input.id = some row.id ∨ RowId.encode draw.rowId = .ok row.id) ∧
      RowCodec.encryptField primitives vault draw.titleNonce row.id "title" input.title =
        .ok ⟨row.titleNonce, row.titleCiphertext⟩ ∧
      RowCodec.encryptField primitives vault draw.bodyNonce row.id "body" input.body =
        .ok ⟨row.bodyNonce, row.bodyCiphertext⟩ := by
  obtain ⟨id, hid, hencrypt⟩ := bind_eq_ok_iff.mp hrow
  obtain ⟨title, htitle, hencrypt⟩ := bind_eq_ok_iff.mp hencrypt
  obtain ⟨body, hbody, hencrypt⟩ := bind_eq_ok_iff.mp hencrypt
  obtain rfl := Except.ok.inj hencrypt
  refine ⟨?_, htitle, hbody⟩
  unfold noteId at hid
  split at hid
  · next given hgiven =>
    rw [hgiven]
    exact Or.inl (congrArg some (Except.ok.inj hid))
  · exact Or.inr (mapError_eq_ok_iff.mp hid)

/-- The encryptions of the row that an upsert sends. -/
theorem encryptions_of_row {draw : UpsertDraw} {input : NoteInput} {row : EncryptedNoteRow}
    (hrow : upsertRow primitives vault draw input = .ok row) :
    encryptions primitives vault draw input =
      [⟨vault.dek, draw.titleNonce, aadFor row.id "title", utf8 (usvString input.title),
          row.titleCiphertext⟩,
        ⟨vault.dek, draw.bodyNonce, aadFor row.id "body", utf8 (usvString input.body),
          row.bodyCiphertext⟩] := by
  rw [encryptions, hrow]

/-- The row of an upsert is under the key of the vault. -/
theorem madeUnder_upsertRow {draw : UpsertDraw} {input : NoteInput} {row : EncryptedNoteRow}
    (hrow : upsertRow primitives vault draw input = .ok row) {history : List AeadEntry}
    (hmade : ∀ entry ∈ encryptions primitives vault draw input, entry ∈ history) (key : Bytes) :
    MadeUnder history vault.dek (key, NoteRepositorySql.columns row) := by
  rw [encryptions_of_row hrow] at hmade
  exact ⟨_, hmade _ List.mem_cons_self, rfl, rfl⟩

/-- The fields of the row that an upsert sends are read under its id. -/
theorem decryptField_upsertRow (hcorrect : primitives.CorrectAead) {draw : UpsertDraw}
    {input : NoteInput} {row : EncryptedNoteRow}
    (hrow : upsertRow primitives vault draw input = .ok row) {history : List AeadEntry}
    (hmade : ∀ entry ∈ encryptions primitives vault draw input, entry ∈ history) :
    RowCodec.decryptField (primitives.after history) vault row.id "title"
        ⟨row.titleNonce, row.titleCiphertext⟩ = .ok (readText input.title) ∧
      RowCodec.decryptField (primitives.after history) vault row.id "body"
        ⟨row.bodyNonce, row.bodyCiphertext⟩ = .ok (readText input.body) := by
  obtain ⟨-, htitle, hbody⟩ := upsertRow_spec hrow
  rw [encryptions_of_row hrow] at hmade
  refine ⟨RowCodec.decryptField_after hcorrect htitle ?_,
    RowCodec.decryptField_after hcorrect hbody ?_⟩
  · exact ⟨_, hmade _ List.mem_cons_self, rfl, rfl, rfl, rfl⟩
  · exact ⟨_, hmade _ (List.mem_cons_of_mem _ List.mem_cons_self), rfl, rfl, rfl, rfl⟩

/-- The row of an upsert reads exactly when its id is what its key is encoded as. -/
theorem reads_upsertRow_iff (hcorrect : primitives.CorrectAead) {draw : UpsertDraw}
    {input : NoteInput} {row : EncryptedNoteRow}
    (hrow : upsertRow primitives vault draw input = .ok row) {history : List AeadEntry}
    (hdistinct : DistinctCiphertexts history)
    (hmade : ∀ entry ∈ encryptions primitives vault draw input, entry ∈ history)
    {key : Bytes} (hkey : RowId.decode row.id = .ok key) :
    Reads (primitives.after history) vault (key, NoteRepositorySql.columns row) ↔
      RowId.Canonical row.id := by
  have hfields := decryptField_upsertRow hcorrect hrow hmade
  rw [encryptions_of_row hrow] at hmade
  rw [reads_iff]
  constructor
  · rintro ⟨id, hid, ⟨text, htext⟩, -⟩
    have haad := (RowCodec.of_decryptField hdistinct (hmade _ List.mem_cons_self) rfl htext).2
    obtain rfl := aadFor_inj haad
    exact ⟨key, hkey, hid⟩
  · rintro ⟨bytes, hbytes, hencode⟩
    obtain rfl : bytes = key := Except.ok.inj (hbytes.symm.trans hkey)
    exact ⟨row.id, hencode, ⟨_, hfields.1⟩, _, hfields.2⟩

/-- Reading does not depend on the archive flag. -/
theorem reads_archived {row : Bytes × NoteColumns} (hreads : Reads primitives vault row)
    (archived : ℤ) : Reads primitives vault (row.1, { row.2 with archived := archived }) := by
  rw [reads_iff] at hreads ⊢
  exact hreads

/-! ### What the writes do to the table -/

/-- An upsert that sends a row under a key sets it. -/
theorem upsertNote_of_decode {table : NotesTable} {draw : UpsertDraw} {input : NoteInput}
    {row : EncryptedNoteRow} (hrow : upsertRow primitives vault draw input = .ok row) {key : Bytes}
    (hkey : RowId.decode row.id = .ok key) :
    (upsertNote primitives vault table draw input).1 =
      table.set key (NoteRepositorySql.columns row) := by
  simp only [upsertNote, hrow, send, handle, NoteRepositorySql.upsert,
    NoteRepositorySql.decodeRowId, hkey, Except.mapError]
  rfl

/-- Any other upsert changes nothing. -/
theorem upsertNote_cases (primitives : Primitives) (vault : CryptoVault) (table : NotesTable)
    (draw : UpsertDraw) (input : NoteInput) :
    (upsertNote primitives vault table draw input).1 = table ∨
      ∃ row key, upsertRow primitives vault draw input = .ok row ∧
        RowId.decode row.id = .ok key ∧ (upsertNote primitives vault table draw input).1 =
          table.set key (NoteRepositorySql.columns row) := by
  cases hrow : upsertRow primitives vault draw input with
  | error message =>
    left
    rw [upsertNote, hrow]
  | ok row =>
    cases hkey : RowId.decode row.id with
    | error error =>
      left
      simp only [upsertNote, hrow, send, handle, NoteRepositorySql.upsert,
        NoteRepositorySql.decodeRowId, hkey, Except.mapError]
      rfl
    | ok key => exact Or.inr ⟨row, key, rfl, hkey, upsertNote_of_decode hrow hkey⟩

/-- The rows after an upsert are the new row and old rows. -/
theorem mem_set {table : NotesTable} {key : Bytes} {columns : NoteColumns}
    {row : Bytes × NoteColumns} (hrow : row ∈ (table.set key columns).entries) :
    row = (key, columns) ∨ row ∈ table.entries := by
  obtain ⟨other, stored⟩ := row
  rw [OrderedMap.mem_entries_iff, OrderedMap.get?_set] at hrow
  split_ifs at hrow with hkey
  · left
    rw [hkey, Option.some.inj hrow]
  · right
    exact (OrderedMap.mem_entries_iff _ _ _).mpr hrow

/-- The rows after archiving are old rows, up to the flag. -/
theorem mem_archiveNote {table : NotesTable} {id : String} {row : Bytes × NoteColumns}
    (hrow : row ∈ (archiveNote table id).1.entries) :
    row ∈ table.entries ∨
      ∃ old ∈ table.entries, row = (old.1, { old.2 with archived := 1 }) := by
  simp only [archiveNote, send, handle, NoteRepositorySql.archive] at hrow
  cases hkey : NoteRepositorySql.decodeRowId id with
  | error message =>
    rw [hkey] at hrow
    exact Or.inl hrow
  | ok key =>
    rw [hkey] at hrow
    cases hfound : table.get? key with
    | none =>
      simp only [hfound, bind, Except.bind] at hrow
      exact Or.inl hrow
    | some columns =>
      simp only [hfound, bind, Except.bind] at hrow
      rcases mem_set hrow with hnew | hold
      · exact Or.inr ⟨(key, columns), (OrderedMap.mem_entries_iff _ _ _).mpr hfound, hnew⟩
      · exact Or.inl hold

/-- The rows after a deletion are old rows. -/
theorem mem_deleteNote {table : NotesTable} {id : String} {row : Bytes × NoteColumns}
    (hrow : row ∈ (deleteNote table id).1.entries) : row ∈ table.entries := by
  simp only [deleteNote, send, handle, NoteRepositorySql.delete] at hrow
  cases hkey : NoteRepositorySql.decodeRowId id with
  | error message =>
    rw [hkey] at hrow
    exact hrow
  | ok key =>
    rw [hkey] at hrow
    exact List.mem_of_mem_filter hrow

end Repo

end OpfsWebauthn.Storage
