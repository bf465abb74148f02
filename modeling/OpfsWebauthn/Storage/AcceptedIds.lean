import OpfsWebauthn.Storage.NoteMap

/-!
# Ids that are accepted

The codec accepts several spellings of an id, and the worker stores the bytes. A note is encrypted
for the spelling that the caller gave and decrypted for the one that the bytes are encoded as. So a
saved note can be read back exactly when its id is canonical, and its texts are returned exactly
when they have no lone surrogate, and no byte order mark at their front. Reading is after a history
in which the note was encrypted, and in which ciphertexts are distinct.
-/

set_option autoImplicit false
set_option relaxedAutoImplicit false

namespace OpfsWebauthn.Storage.Repo

open Foundation Crypto

variable (primitives : Primitives) (vault : CryptoVault)

/-- Two spellings of the id of one row. -/
def SameRow (id other : String) : Prop :=
  RowId.decode id = RowId.decode other

/-- The worker's answer to `listNotes(opts)`. -/
def workerPage (table : NotesTable) (opts : ListOptions) : Except String ListPageOutput :=
  NoteRepositorySql.list table ⟨opts.limit.getD 50, opts.cursor, opts.includeArchived.getD false⟩

/-- A note is returned with its title and its body, by `getNote` and in every page that holds its
row. -/
def Returned (table : NotesTable) (id : String) (title body : JsString) : Prop :=
  (∃ note, getNote primitives vault table id = .ok (some note) ∧ note.title = title ∧
    note.body = body) ∧
  ∀ opts page, workerPage table opts = .ok page → (∃ row ∈ page.rows, SameRow row.id id) →
    ∃ shown, listNotes primitives vault table opts = .ok shown ∧
      ∃ note ∈ shown.notes, SameRow note.id id ∧ note.title = title ∧ note.body = body

/-- The other rows of every page that holds the row can be decrypted. -/
def OthersRead (table : NotesTable) (id : String) : Prop :=
  ∀ opts page, workerPage table opts = .ok page → (∃ row ∈ page.rows, SameRow row.id id) →
    ∀ row ∈ page.rows, ¬ SameRow row.id id → ∃ note, decryptRow primitives vault row = .ok note

variable {primitives} {vault}

/-! ### The stored row -/

/-- What an upsert that succeeds has stored: the encrypted row under the bytes of the id. -/
theorem stored_of_upsertNote {table : NotesTable} {draw : UpsertDraw} {id : String}
    {title body : JsString} {note : Note}
    (hupsert : (upsertNote primitives vault table draw ⟨some id, title, body⟩).2 = .ok note) :
    ∃ row key, upsertRow primitives vault draw ⟨some id, title, body⟩ = .ok row ∧ row.id = id ∧
      RowId.decode id = .ok key ∧
      (upsertNote primitives vault table draw ⟨some id, title, body⟩).1 =
        table.set key (NoteRepositorySql.columns row) := by
  cases hrow : upsertRow primitives vault draw ⟨some id, title, body⟩ with
  | error message =>
    rw [upsertNote, hrow] at hupsert
    cases hupsert
  | ok row =>
    obtain ⟨given, hgiven, hencrypt⟩ := bind_eq_ok_iff.mp hrow
    obtain rfl : id = given := Except.ok.inj hgiven
    have hid : row.id = id := id_of_encryptNote hencrypt
    cases hkey : RowId.decode id with
    | error error =>
      rw [← hid] at hkey
      simp only [upsertNote, hrow, send, handle, NoteRepositorySql.upsert,
        NoteRepositorySql.decodeRowId, hkey, Except.mapError] at hupsert
      cases hupsert
    | ok key =>
      refine ⟨row, key, rfl, hid, rfl, ?_⟩
      rw [← hid] at hkey
      exact upsertNote_of_decode hrow hkey

/-- The stored row decrypts to the texts exactly when the id is canonical and both texts are
intact. -/
theorem decryptRow_stored_iff (hcorrect : primitives.CorrectAead) {history : List AeadEntry}
    (hdistinct : DistinctCiphertexts history) {draw : UpsertDraw} {id : String}
    {title body : JsString} {row stored : EncryptedNoteRow} {key : Bytes}
    (hrow : upsertRow primitives vault draw ⟨some id, title, body⟩ = .ok row)
    (hmade : ∀ entry ∈ encryptions primitives vault draw ⟨some id, title, body⟩, entry ∈ history)
    (hid : row.id = id) (hkey : RowId.decode id = .ok key)
    (hstored : NoteRepositorySql.decodeRow (key, NoteRepositorySql.columns row) = .ok stored) :
    (∃ note, decryptRow (primitives.after history) vault stored = .ok note ∧ note.title = title ∧
      note.body = body) ↔ RowId.Canonical id ∧ Intact title ∧ Intact body := by
  obtain rfl := hid
  obtain ⟨htitle, hbody⟩ := decryptField_upsertRow hcorrect hrow hmade
  have hdecrypted : RowId.Canonical row.id → decryptRow (primitives.after history) vault stored =
      .ok ⟨row.id, readText title, readText body, stored.updatedDay, stored.archived⟩ := by
    rintro ⟨bytes, hbytes, hencode⟩
    obtain rfl : bytes = key := Except.ok.inj (hbytes.symm.trans hkey)
    obtain ⟨other, hother, rfl⟩ := NoteRepositorySql.decodeRow_eq_ok_iff.mp hstored
    obtain rfl : other = row.id := Except.ok.inj (hother.symm.trans hencode)
    exact bind_eq_ok_iff.mpr ⟨_, htitle, bind_eq_ok_iff.mpr ⟨_, hbody, rfl⟩⟩
  constructor
  · rintro ⟨note, hnote, htitleSame, hbodySame⟩
    have hcanonical := (reads_upsertRow_iff hcorrect hrow hdistinct hmade hkey).mp
      ⟨stored, note, hstored, hnote⟩
    rw [hdecrypted hcanonical] at hnote
    rw [← Except.ok.inj hnote] at htitleSame hbodySame
    exact ⟨hcanonical, (readText_eq_self_iff title).mp htitleSame,
      (readText_eq_self_iff body).mp hbodySame⟩
  · rintro ⟨hcanonical, htitleIntact, hbodyIntact⟩
    refine ⟨_, hdecrypted hcanonical, ?_, ?_⟩
    · exact (readText_eq_self_iff title).mpr htitleIntact
    · exact (readText_eq_self_iff body).mpr hbodyIntact

/-! ### Where the row is read -/

/-- The row of a page is the row of a table entry. -/
theorem entry_of_workerPage {table : NotesTable} {opts : ListOptions} {page : ListPageOutput}
    (hpage : workerPage table opts = .ok page) {row : EncryptedNoteRow} (hrow : row ∈ page.rows) :
    ∃ entry ∈ table.entries, NoteRepositorySql.decodeRow entry = .ok row := by
  obtain ⟨condition, -, hpage⟩ := bind_eq_ok_iff.mp hpage
  obtain ⟨rows, hrows, hpage⟩ := bind_eq_ok_iff.mp hpage
  obtain rfl := Except.ok.inj hpage
  obtain ⟨entry, hentry, hdecode⟩ := exists_of_mem_mapM hrows hrow
  exact ⟨entry, NoteRepositorySql.mem_of_mem_listQuery (List.mem_of_mem_take hentry), hdecode⟩

/-- The id of a decoded row decodes to its key. -/
theorem decode_of_decodeRow {entry : Bytes × NoteColumns} {row : EncryptedNoteRow}
    (hrow : NoteRepositorySql.decodeRow entry = .ok row) : RowId.decode row.id = .ok entry.1 := by
  obtain ⟨id, hid, rfl⟩ := NoteRepositorySql.decodeRow_eq_ok_iff.mp hrow
  exact RowId.decode_encode hid

section Stored

variable {table : NotesTable} {id : String} {title body : JsString} {key : Bytes}
  {columns : NoteColumns} {stored : EncryptedNoteRow}

/-- The row of a page under the id is the stored row. -/
theorem eq_stored (hkey : RowId.decode id = .ok key) (hfound : table.get? key = some columns)
    (hstored : NoteRepositorySql.decodeRow (key, columns) = .ok stored) {opts : ListOptions}
    {page : ListPageOutput} (hpage : workerPage table opts = .ok page) {row : EncryptedNoteRow}
    (hrow : row ∈ page.rows) (hsame : SameRow row.id id) : row = stored := by
  obtain ⟨⟨other, held⟩, hentry, hdecode⟩ := entry_of_workerPage hpage hrow
  have hother : other = key := by
    have hdecoded := decode_of_decodeRow hdecode
    unfold SameRow at hsame
    rw [hsame, hkey] at hdecoded
    exact (Except.ok.inj hdecoded).symm
  subst hother
  rw [OrderedMap.mem_entries_iff, hfound] at hentry
  obtain rfl := Option.some.inj hentry
  exact Except.ok.inj (hdecode.symm.trans hstored)

/-- A lookup decrypts the stored row. -/
theorem getNote_eq_some_iff (hkey : RowId.decode id = .ok key)
    (hfound : table.get? key = some columns)
    (hstored : NoteRepositorySql.decodeRow (key, columns) = .ok stored) {note : Note} :
    getNote primitives vault table id = .ok (some note) ↔
      decryptRow primitives vault stored = .ok note := by
  have hget : NoteRepositorySql.get table id = .ok (some stored) := by
    simp only [NoteRepositorySql.get, NoteRepositorySql.decodeRowId, hkey, Except.mapError]
    refine bind_eq_ok_iff.mpr ⟨key, rfl, ?_⟩
    rw [hfound]
    exact congrArg (Except.map some) hstored
  rw [getNote_of_get hget]
  change (decryptRow primitives vault stored).map some = _ ↔ _
  cases decryptRow primitives vault stored with
  | error message => simp [Except.map]
  | ok other => simp [Except.map]

/-- A listing decrypts every row of its page. -/
theorem listNotes_eq_ok_iff {opts : ListOptions} {page : ListPageOutput}
    (hpage : workerPage table opts = .ok page) {shown : ListPage} :
    listNotes primitives vault table opts = .ok shown ↔
      page.rows.mapM (decryptRow primitives vault) = .ok shown.notes ∧
        shown.nextCursor = page.nextCursor := by
  obtain ⟨notes, nextCursor⟩ := shown
  unfold workerPage at hpage
  rw [listNotes_eq, hpage, ok_bind]
  cases page.rows.mapM (decryptRow primitives vault) with
  | error message => simp [Except.map]
  | ok others => simp [Except.map, eq_comm]

/-- The texts are returned exactly when the stored row decrypts to them and the other rows of its
pages can be decrypted. -/
theorem returned_iff_stored (hkey : RowId.decode id = .ok key)
    (hfound : table.get? key = some columns)
    (hstored : NoteRepositorySql.decodeRow (key, columns) = .ok stored) :
    Returned primitives vault table id title body ↔
      (∃ note, decryptRow primitives vault stored = .ok note ∧ note.title = title ∧
        note.body = body) ∧ OthersRead primitives vault table id := by
  constructor
  · rintro ⟨⟨note, hget, htexts⟩, hlisted⟩
    refine ⟨⟨note, (getNote_eq_some_iff hkey hfound hstored).mp hget, htexts⟩, ?_⟩
    intro opts page hpage hholds row hrow _
    obtain ⟨shown, hshown, -⟩ := hlisted opts page hpage hholds
    obtain ⟨hnotes, -⟩ := (listNotes_eq_ok_iff hpage).mp hshown
    exact mapM_isOk_iff.mp ⟨_, hnotes⟩ row hrow
  · rintro ⟨⟨note, hnote, htexts⟩, hothers⟩
    refine ⟨⟨note, (getNote_eq_some_iff hkey hfound hstored).mpr hnote, htexts⟩, ?_⟩
    intro opts page hpage hholds
    have hall : ∀ row ∈ page.rows, ∃ note, decryptRow primitives vault row = .ok note := by
      intro row hrow
      by_cases hsame : SameRow row.id id
      · rw [eq_stored hkey hfound hstored hpage hrow hsame]
        exact ⟨note, hnote⟩
      · exact hothers opts page hpage hholds row hrow hsame
    obtain ⟨notes, hnotes⟩ := mapM_isOk_iff.mpr hall
    refine ⟨⟨notes, page.nextCursor⟩, (listNotes_eq_ok_iff hpage).mpr ⟨hnotes, rfl⟩, ?_⟩
    obtain ⟨row, hrow, hsame⟩ := hholds
    obtain ⟨shown, hshown, hdecrypt⟩ := mem_of_mapM hnotes hrow
    rw [eq_stored hkey hfound hstored hpage hrow hsame] at hdecrypt
    obtain rfl : note = shown := Except.ok.inj (hnote.symm.trans hdecrypt)
    refine ⟨note, hshown, ?_, htexts⟩
    have hid : RowId.encode key = .ok note.id :=
      encode_of_showNote (bind_eq_ok_iff.mpr ⟨stored, hstored, hnote⟩)
    exact (RowId.decode_encode hid).trans hkey.symm

/-- The other rows of a page can be decrypted when all other rows of the table can. -/
theorem othersRead_of_reads (hkey : RowId.decode id = .ok key)
    (hothers : ∀ entry ∈ table.entries, entry.1 ≠ key → Reads primitives vault entry) :
    OthersRead primitives vault table id := by
  intro opts page hpage _ row hrow hdifferent
  obtain ⟨entry, hentry, hdecode⟩ := entry_of_workerPage hpage hrow
  have hother : entry.1 ≠ key := by
    intro hsame
    apply hdifferent
    rw [SameRow, decode_of_decodeRow hdecode, hkey, hsame]
  obtain ⟨shown, note, hshown, hnote⟩ := hothers entry hentry hother
  obtain rfl : shown = row := Except.ok.inj (hshown.symm.trans hdecode)
  exact ⟨note, hnote⟩

end Stored

/-- After any history, a saved note is returned with its texts exactly when its id is canonical,
both texts are intact, and the other rows of the pages that hold it can be decrypted. The last is so
when the other rows of the table could be decrypted before. -/
theorem returned_iff (hcorrect : primitives.CorrectAead) {table written : NotesTable}
    {draw : UpsertDraw} {id : String} {title body : JsString} {note : Note}
    {history earlier : List AeadEntry}
    (hhistory : history = encryptions primitives vault draw ⟨some id, title, body⟩ ++ earlier)
    (hdistinct : DistinctCiphertexts history)
    (hupsert : upsertNote primitives vault table draw ⟨some id, title, body⟩ =
      (written, .ok note)) :
    (Returned (primitives.after history) vault written id title body ↔
      (RowId.Canonical id ∧ Intact title ∧ Intact body) ∧
        OthersRead (primitives.after history) vault written id) ∧
    ((∀ entry ∈ table.entries, RowId.decode id ≠ .ok entry.1 →
        Reads (primitives.after earlier) vault entry) →
      OthersRead (primitives.after history) vault written id) := by
  obtain ⟨row, key, hrow, hid, hkey, htable⟩ :=
    stored_of_upsertNote (congrArg Prod.snd hupsert)
  rw [hupsert] at htable
  have hfound : (table.set key (NoteRepositorySql.columns row)).get? key =
      some (NoteRepositorySql.columns row) := OrderedMap.get?_set_self _ _ _
  obtain ⟨canonical, hcanonical⟩ := RowId.encode_total (RowId.decode_length hkey)
  obtain ⟨stored, hstored⟩ : ∃ stored,
      NoteRepositorySql.decodeRow (key, NoteRepositorySql.columns row) = .ok stored :=
    ⟨_, NoteRepositorySql.decodeRow_eq_ok_iff.mpr ⟨canonical, hcanonical, rfl⟩⟩
  obtain rfl := htable
  subst hhistory
  constructor
  · rw [returned_iff_stored hkey hfound hstored, decryptRow_stored_iff hcorrect hdistinct hrow
      (fun entry hentry ↦ List.mem_append_left _ hentry) hid hkey hstored]
  · intro hothers
    apply othersRead_of_reads hkey
    intro entry hentry hdifferent
    rcases mem_set hentry with rfl | hold
    · exact absurd rfl hdifferent
    · have hreads := hothers entry hold fun hsame ↦ hdifferent (by
        rw [hkey] at hsame
        exact (Except.ok.inj hsame).symm)
      exact hreads.mono fun made hmade ↦ List.mem_append_right _ hmade

/-! ### Two spellings -/

/-- A spelling in small letters of the id of the key `99..`, with a low bit of the last character
set. -/
def spelledId : String := "k6csk6csk6csk6csk6csk6csk7"

/-- The fields of a note with this id under the key of the vault. -/
def spelledEntries : List AeadEntry :=
  [⟨repeated 32 0x33, repeated 12 0xa7, aadFor spelledId "title", utf8 "Hi",
      bytesOf 18 0x2fb6fb758e82c580d3604eba55a1401052d8⟩,
    ⟨repeated 32 0x33, repeated 12 0xa8, aadFor spelledId "body", utf8 "Yo",
      bytesOf 18 0x997ae38beaf0543b3cdec6081635d23e6a31⟩]

/-- The encryption at the values of this note. -/
def spelledNotes : Primitives :=
  { sampleNotes with
    aeadEncrypt := tableEncrypt spelledEntries
    aeadDecrypt := tableDecrypt spelledEntries }

/-- What is drawn for the first note, and for its other spelling. -/
def firstDraw : UpsertDraw :=
  ⟨repeated 16 0, repeated 12 0xa1, repeated 12 0xa2, sampleNow⟩

def spelledDraw : UpsertDraw :=
  ⟨repeated 16 0, repeated 12 0xa7, repeated 12 0xa8, sampleNow⟩

/-- The note under an id that is given. -/
def givenId (id : String) : NoteInput :=
  ⟨some id, jsString "Hi", jsString "Yo"⟩

/-- A note with a canonical id is returned. -/
theorem returned_iff_firstId :
    Returned (sampleNotes.after (encryptions sampleNotes sampleVault firstDraw (givenId firstId)))
      sampleVault (upsertNote sampleNotes sampleVault .empty firstDraw (givenId firstId)).1
      firstId (jsString "Hi") (jsString "Yo") := by
  have hsaved : (upsertNote sampleNotes sampleVault .empty firstDraw (givenId firstId)).2 =
      .ok ⟨firstId, jsString "Hi", jsString "Yo", 19675, false⟩ := by decide +kernel
  have hdistinct : DistinctCiphertexts
      (encryptions sampleNotes sampleVault firstDraw (givenId firstId)) := by decide +kernel
  obtain ⟨hiff, hothers⟩ := @returned_iff sampleNotes sampleVault correctAead_sampleNotes .empty _
    firstDraw firstId (jsString "Hi") (jsString "Yo") _ _ [] (List.append_nil _).symm hdistinct
    (Prod.ext rfl hsaved)
  refine hiff.mpr ⟨by decide +kernel, hothers fun entry hentry ↦ ?_⟩
  cases hentry

/-- A note with the other spelling is saved, and neither found nor listed. -/
theorem not_returned_spelledId :
    (upsertNote spelledNotes sampleVault .empty spelledDraw (givenId spelledId)).2 =
      .ok ⟨spelledId, jsString "Hi", jsString "Yo", 19675, false⟩ ∧
    getNote spelledNotes sampleVault
      (upsertNote spelledNotes sampleVault .empty spelledDraw (givenId spelledId)).1 spelledId =
      .error (VaultError.text .aeadDecrypt) ∧
    ¬ Returned spelledNotes sampleVault
      (upsertNote spelledNotes sampleVault .empty spelledDraw (givenId spelledId)).1 spelledId
      (jsString "Hi") (jsString "Yo") := by
  have hget : getNote spelledNotes sampleVault
      (upsertNote spelledNotes sampleVault .empty spelledDraw (givenId spelledId)).1 spelledId =
      .error (VaultError.text .aeadDecrypt) := by
    decide +kernel
  refine ⟨by decide +kernel, hget, fun hreturned ↦ ?_⟩
  obtain ⟨⟨note, hnote, -⟩, -⟩ := hreturned
  rw [hget] at hnote
  cases hnote

end OpfsWebauthn.Storage.Repo
