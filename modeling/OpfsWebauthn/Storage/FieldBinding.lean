import Mathlib.Data.Fintype.Basic
import OpfsWebauthn.Storage.NoteMap

/-!
# Ciphertexts are bound to their row and field

The storage of a `NoteSession` next to an adversary who may replace the whole table between calls.
The history keeps every row that was encrypted and every note that was saved. Decryption is ideal
relative to it: what the table holds decrypts only under the nonce, the associated data and the
ciphertext of an encryption of the history (`Unforged`).

The associated data names the field and the id, and `aadFor` is injective in both, so a note that is
read has the title and the body that were saved under its own id: `read_was_saved`. That holds up to
lone surrogates, which the encoder replaces, and a byte order mark, which the decoder drops.
-/

set_option autoImplicit false
set_option relaxedAutoImplicit false

namespace OpfsWebauthn.Storage

open Foundation Crypto

/-! ### Associated data -/

/-- The associated data of a title is never that of a body. -/
theorem aadFor_title_ne_body (first second : String) :
    aadFor first "title" ≠ aadFor second "body" := by
  intro haad
  unfold aadFor at haad
  simp only [List.append_assoc] at haad
  have hfields := List.append_cancel_left (List.append_cancel_left haad)
  rw [show utf8 "title" = [116, 105, 116, 108, 101] by decide,
    show utf8 "body" = [98, 111, 100, 121] by decide] at hfields
  cases hfields

/-! ### Histories -/

/-- The table, the rows that were encrypted with what was written in them, and the notes saved. -/
structure NoteHistory where
  table : NotesTable
  encrypted : List (EncryptedNoteRow × NoteInput)
  saved : List Note

/-- What happens: a call of a `Repo`, or the adversary replaces the table. -/
inductive NoteHistoryEvent
  | call (call : RepoCall)
  | tamper (table : NotesTable)

namespace NoteHistory

variable (primitives : Primitives) (vault : CryptoVault)

/-- Before the first event. -/
def fresh : NoteHistory :=
  ⟨.empty, [], []⟩

/-- The rows that a call encrypts. -/
def encryptedBy : RepoCall → List (EncryptedNoteRow × NoteInput)
  | .upsertNote draw input =>
    match Repo.upsertRow primitives vault draw input with
    | .ok row => [(row, input)]
    | .error _ => []
  | _ => []

/-- The notes that a reply says are saved. -/
def savedBy : Except String RepoReply → List Note
  | .ok (.saved note) => [note]
  | _ => []

/-- One event. -/
def step (history : NoteHistory) : NoteHistoryEvent → Option NoteHistory
  | .call call =>
    let replied := call.perform primitives vault history.table
    some {
      table := replied.1
      encrypted := encryptedBy primitives vault call ++ history.encrypted
      saved := savedBy replied.2 ++ history.saved }
  | .tamper table => some { history with table := table }

/-- The storage with the adversary as a system. -/
def automaton : Automaton NoteHistory NoteHistoryEvent :=
  ⟨step primitives vault⟩

/-- The nonce, the associated data and the ciphertext of every encryption of the history. -/
def produced (history : NoteHistory) : List (Bytes × Bytes × Bytes) :=
  history.encrypted.flatMap fun entry ↦
    [(entry.1.titleNonce, aadFor entry.1.id "title", entry.1.titleCiphertext),
      (entry.1.bodyNonce, aadFor entry.1.id "body", entry.1.bodyCiphertext)]

/-- Decryption is ideal: a pair of the table decrypts only as one of the encryptions. -/
def Unforged (history : NoteHistory) : Prop :=
  ∀ row ∈ history.table.entries, ∀ aad plaintext,
    (vault.decrypt primitives row.2.titleNonce aad row.2.titleCiphertext = .ok plaintext →
      (row.2.titleNonce, aad, row.2.titleCiphertext) ∈ history.produced) ∧
    (vault.decrypt primitives row.2.bodyNonce aad row.2.bodyCiphertext = .ok plaintext →
      (row.2.bodyNonce, aad, row.2.bodyCiphertext) ∈ history.produced)

/-- The title of the note was saved as the title of its id, and its body as the body of its id. -/
def WasSaved (history : NoteHistory) (note : Note) : Prop :=
  (∃ saved ∈ history.saved, saved.id = note.id ∧ saved.title = note.title) ∧
    ∃ saved ∈ history.saved, saved.id = note.id ∧ saved.body = note.body

/-- The event writes no title or body with a lone surrogate or a byte order mark at its front. -/
def WritesIntact : NoteHistoryEvent → Prop
  | .call (.upsertNote _ input) => Intact input.title ∧ Intact input.body
  | _ => True

instance (event : NoteHistoryEvent) : Decidable (WritesIntact event) := by
  unfold WritesIntact
  split <;> infer_instance

variable {primitives vault}

/-! ### What the history records -/

/-- A row that was encrypted holds what was written, and is saved when its id is one of a row. -/
structure Recorded (primitives : Primitives) (vault : CryptoVault) (history : NoteHistory)
    (row : EncryptedNoteRow) (input : NoteInput) : Prop where
  title : ∃ nonce, RowCodec.encryptField primitives vault nonce row.id "title" input.title =
    .ok ⟨row.titleNonce, row.titleCiphertext⟩
  body : ∃ nonce, RowCodec.encryptField primitives vault nonce row.id "body" input.body =
    .ok ⟨row.bodyNonce, row.bodyCiphertext⟩
  intact : Intact input.title ∧ Intact input.body
  saved : ∀ key, RowId.encode key = .ok row.id → ∃ note ∈ history.saved, note.id = row.id ∧
    note.title = input.title ∧ note.body = input.body

/-- Saving more keeps what is recorded. -/
theorem Recorded.mono {history next : NoteHistory} {row : EncryptedNoteRow} {input : NoteInput}
    (hrecorded : Recorded primitives vault history row input)
    (hsaved : ∀ note ∈ history.saved, note ∈ next.saved) :
    Recorded primitives vault next row input := by
  refine ⟨hrecorded.title, hrecorded.body, hrecorded.intact, ?_⟩
  intro key hencode
  obtain ⟨note, hnote, hsame⟩ := hrecorded.saved key hencode
  exact ⟨note, hsaved note hnote, hsame⟩

/-- Every encryption of the history is recorded. -/
def AllRecorded (primitives : Primitives) (vault : CryptoVault) (history : NoteHistory) : Prop :=
  ∀ entry ∈ history.encrypted, Recorded primitives vault history entry.1 entry.2

/-- The row that a call encrypts is recorded. -/
theorem recorded_encryptedBy {history : NoteHistory} {call : RepoCall}
    (hintact : WritesIntact (.call call)) {entry : EncryptedNoteRow × NoteInput}
    (hentry : entry ∈ encryptedBy primitives vault call) {next : NoteHistory}
    (hnext : next.saved = savedBy (call.perform primitives vault history.table).2 ++
      history.saved) : Recorded primitives vault next entry.1 entry.2 := by
  cases call with
  | upsertNote draw input =>
    cases hrow : Repo.upsertRow primitives vault draw input with
    | error message =>
      simp only [encryptedBy, hrow] at hentry
      cases hentry
    | ok row =>
      simp only [encryptedBy, hrow] at hentry
      rw [List.mem_singleton.mp hentry]
      obtain ⟨-, -, -, htitle, hbody⟩ := upsertRow_parts hrow
      refine ⟨htitle, hbody, hintact, ?_⟩
      intro key hencode
      rw [hnext, perform_upsertNote hrow (RowId.decode_encode hencode)]
      exact ⟨_, List.mem_cons_self, rfl, rfl, rfl⟩
  | _ => cases hentry

theorem AllRecorded.step {history next : NoteHistory} {event : NoteHistoryEvent}
    (hrecorded : AllRecorded primitives vault history) (hintact : WritesIntact event)
    (hstep : (automaton primitives vault).step history event = some next) :
    AllRecorded primitives vault next := by
  cases event with
  | call call =>
    obtain rfl := Option.some.inj hstep
    intro entry hentry
    rcases List.mem_append.mp hentry with hnew | hold
    · exact @recorded_encryptedBy primitives vault history call hintact entry hnew _ rfl
    · exact (hrecorded entry hold).mono fun note hnote ↦ List.mem_append_right _ hnote
  | tamper table =>
    obtain rfl := Option.some.inj hstep
    exact fun entry hentry ↦ (hrecorded entry hentry).mono fun _ hnote ↦ hnote

/-! ### What is read -/

variable {history : NoteHistory} {row : Bytes × NoteColumns}

/-- The parts of a produced triple. -/
theorem mem_produced_iff {nonce aad ciphertext : Bytes} :
    (nonce, aad, ciphertext) ∈ history.produced ↔ ∃ entry ∈ history.encrypted,
      (nonce = entry.1.titleNonce ∧ aad = aadFor entry.1.id "title" ∧
        ciphertext = entry.1.titleCiphertext) ∨
      (nonce = entry.1.bodyNonce ∧ aad = aadFor entry.1.id "body" ∧
        ciphertext = entry.1.bodyCiphertext) := by
  simp [produced]

/-- A title that decrypts for an id was saved as the title of that id. -/
theorem title_was_saved (hcorrect : primitives.CorrectAead)
    (hrecorded : AllRecorded primitives vault history)
    (hunforged : Unforged primitives vault history) (hrow : row ∈ history.table.entries)
    {key : Bytes} {id : String} {text : JsString} (hencode : RowId.encode key = .ok id)
    (htext : RowCodec.decryptField primitives vault id "title"
      ⟨row.2.titleNonce, row.2.titleCiphertext⟩ = .ok text) :
    ∃ saved ∈ history.saved, saved.id = id ∧ saved.title = text := by
  obtain ⟨plaintext, hplaintext, -⟩ := bind_eq_ok_iff.mp htext
  have hproduced := (hunforged row hrow _ plaintext).1 (mapError_eq_ok_iff.mp hplaintext)
  obtain ⟨⟨made, input⟩, hmade, htitle | hbody⟩ := mem_produced_iff.mp hproduced
  · obtain ⟨hnonce, haad, hciphertext⟩ := htitle
    obtain rfl := aadFor_inj haad
    have hmadeRecorded := hrecorded _ hmade
    obtain ⟨nonce, hencrypt⟩ := hmadeRecorded.title
    rw [hnonce, hciphertext, RowCodec.decryptField_of_encryptField hcorrect hencrypt,
      (readText_eq_self_iff _).mpr hmadeRecorded.intact.1, Except.ok.injEq] at htext
    obtain ⟨note, hnote, hid, hsame, -⟩ := hmadeRecorded.saved key hencode
    exact ⟨note, hnote, hid, hsame.trans htext⟩
  · exact absurd hbody.2.1 (aadFor_title_ne_body _ _)

/-- A body that decrypts for an id was saved as the body of that id. -/
theorem body_was_saved (hcorrect : primitives.CorrectAead)
    (hrecorded : AllRecorded primitives vault history)
    (hunforged : Unforged primitives vault history) (hrow : row ∈ history.table.entries)
    {key : Bytes} {id : String} {text : JsString} (hencode : RowId.encode key = .ok id)
    (htext : RowCodec.decryptField primitives vault id "body"
      ⟨row.2.bodyNonce, row.2.bodyCiphertext⟩ = .ok text) :
    ∃ saved ∈ history.saved, saved.id = id ∧ saved.body = text := by
  obtain ⟨plaintext, hplaintext, -⟩ := bind_eq_ok_iff.mp htext
  have hproduced := (hunforged row hrow _ plaintext).2 (mapError_eq_ok_iff.mp hplaintext)
  obtain ⟨⟨made, input⟩, hmade, htitle | hbody⟩ := mem_produced_iff.mp hproduced
  · exact absurd htitle.2.1.symm (aadFor_title_ne_body _ _)
  · obtain ⟨hnonce, haad, hciphertext⟩ := hbody
    obtain rfl := aadFor_inj haad
    have hmadeRecorded := hrecorded _ hmade
    obtain ⟨nonce, hencrypt⟩ := hmadeRecorded.body
    rw [hnonce, hciphertext, RowCodec.decryptField_of_encryptField hcorrect hencrypt,
      (readText_eq_self_iff _).mpr hmadeRecorded.intact.2, Except.ok.injEq] at htext
    obtain ⟨note, hnote, hid, -, hsame⟩ := hmadeRecorded.saved key hencode
    exact ⟨note, hnote, hid, hsame.trans htext⟩

/-- A note that is shown for a row was saved. -/
theorem wasSaved_of_showNote (hcorrect : primitives.CorrectAead)
    (hrecorded : AllRecorded primitives vault history)
    (hunforged : Unforged primitives vault history) (hrow : row ∈ history.table.entries)
    {note : Note} (hnote : Repo.showNote primitives vault row = .ok note) :
    WasSaved history note := by
  obtain ⟨shown, hshown, hnote⟩ := bind_eq_ok_iff.mp hnote
  obtain ⟨id, hid, rfl⟩ := NoteRepositorySql.decodeRow_eq_ok_iff.mp hshown
  obtain ⟨title, htitle, hnote⟩ := bind_eq_ok_iff.mp hnote
  obtain ⟨body, hbody, hnote⟩ := bind_eq_ok_iff.mp hnote
  obtain rfl := Except.ok.inj hnote
  exact ⟨title_was_saved hcorrect hrecorded hunforged hrow hid htitle,
    body_was_saved hcorrect hrecorded hunforged hrow hid hbody⟩

/-- A row that the worker looks up is a row of the table. -/
theorem exists_row_of_get {table : NotesTable} {id : String} {shown : EncryptedNoteRow}
    (hshown : NoteRepositorySql.get table id = .ok (some shown)) :
    ∃ row ∈ table.entries, NoteRepositorySql.decodeRow row = .ok shown := by
  obtain ⟨key, -, hshown⟩ := bind_eq_ok_iff.mp hshown
  cases hcolumns : table.get? key with
  | none =>
    rw [hcolumns] at hshown
    cases hshown
  | some columns =>
    rw [hcolumns] at hshown
    refine ⟨(key, columns), (OrderedMap.mem_entries_iff _ _ _).mpr hcolumns, ?_⟩
    cases hdecode : NoteRepositorySql.decodeRow (key, columns) with
    | error message =>
      simp only [hdecode] at hshown
      cases hshown
    | ok other =>
      simp only [hdecode] at hshown
      rw [Option.some.inj (Except.ok.inj hshown)]

/-- A note that a lookup returns is shown for a row of the table. -/
theorem exists_row_of_getNote {table : NotesTable} {id : String} {note : Note}
    (hnote : Repo.getNote primitives vault table id = .ok (some note)) :
    ∃ row ∈ table.entries, Repo.showNote primitives vault row = .ok note := by
  cases hfound : NoteRepositorySql.get table id with
  | error message =>
    unfold Repo.getNote send at hnote
    simp only [handle, Handled.ofRead, hfound] at hnote
    cases hnote
  | ok found =>
    rw [getNote_of_get hfound] at hnote
    cases found with
    | none => cases hnote
    | some shown =>
      obtain ⟨row, hrow, hshown⟩ := exists_row_of_get hfound
      refine ⟨row, hrow, bind_eq_ok_iff.mpr ⟨shown, hshown, ?_⟩⟩
      cases hdecrypt : Repo.decryptRow primitives vault shown with
      | error message =>
        simp only [hdecrypt] at hnote
        cases hnote
      | ok other =>
        simp only [hdecrypt] at hnote
        rw [Option.some.inj (Except.ok.inj hnote)]

/-- A note that a listing returns is shown for a row of the table. -/
theorem exists_row_of_listNotes {table : NotesTable} {opts : ListOptions} {page : ListPage}
    (hpage : Repo.listNotes primitives vault table opts = .ok page) {note : Note}
    (hnote : note ∈ page.notes) :
    ∃ row ∈ table.entries, Repo.showNote primitives vault row = .ok note := by
  rw [Repo.listNotes_eq] at hpage
  obtain ⟨fetched, hfetched, hpage⟩ := bind_eq_ok_iff.mp hpage
  cases hnotes : fetched.rows.mapM (Repo.decryptRow primitives vault) with
  | error message =>
    rw [hnotes] at hpage
    cases hpage
  | ok notes =>
    rw [hnotes] at hpage
    obtain rfl := Except.ok.inj hpage
    obtain ⟨shown, hshown, hdecrypt⟩ := exists_of_mem_mapM hnotes hnote
    obtain ⟨row, hrow, hdecode⟩ := NoteRepositorySql.exists_row_of_list hfetched hshown
    exact ⟨row, hrow, bind_eq_ok_iff.mpr ⟨shown, hdecode, hdecrypt⟩⟩

/-- In every run in which no title or body is written with a lone surrogate or a byte order mark at
its front, whatever the adversary puts in the table: every note that a lookup or a listing returns
has a title that was saved as the title of its id, and a body that was saved as the body of its
id. -/
theorem read_was_saved (hcorrect : primitives.CorrectAead)
    (hreaches : (automaton primitives vault).ReachesWhere (fun _ event ↦ WritesIntact event) fresh
      history)
    (hunforged : Unforged primitives vault history) :
    (∀ id note, Repo.getNote primitives vault history.table id = .ok (some note) →
      WasSaved history note) ∧
    ∀ opts page, Repo.listNotes primitives vault history.table opts = .ok page →
      ∀ note ∈ page.notes, WasSaved history note := by
  have hrecorded : AllRecorded primitives vault history := by
    refine hreaches.invariant (AllRecorded primitives vault) ?_ ?_
    · intro entry hentry
      cases hentry
    · intro state event next hstate hintact hnext
      exact hstate.step hintact hnext
  refine ⟨?_, ?_⟩
  · intro id note hnote
    obtain ⟨row, hrow, hshown⟩ := exists_row_of_getNote hnote
    exact wasSaved_of_showNote hcorrect hrecorded hunforged hrow hshown
  · intro opts page hpage note hnote
    obtain ⟨row, hrow, hshown⟩ := exists_row_of_listNotes hpage hnote
    exact wasSaved_of_showNote hcorrect hrecorded hunforged hrow hshown

/-! ### Two runs -/

/-- Every entry of the sample with this nonce and ciphertext was produced. -/
def PairProduced (history : NoteHistory) (nonce ciphertext : Bytes) : Prop :=
  ∀ entry ∈ sampleEntries, nonce = entry.nonce.val → ciphertext = entry.ciphertext →
    (nonce, entry.aad, ciphertext) ∈ history.produced

instance (history : NoteHistory) (nonce ciphertext : Bytes) :
    Decidable (PairProduced history nonce ciphertext) := by
  unfold PairProduced
  infer_instance

/-- So it is for every pair of the table. -/
def SampleProduced (history : NoteHistory) : Prop :=
  ∀ row ∈ history.table.entries, PairProduced history row.2.titleNonce row.2.titleCiphertext ∧
    PairProduced history row.2.bodyNonce row.2.bodyCiphertext

instance (history : NoteHistory) : Decidable (SampleProduced history) := by
  unfold SampleProduced
  infer_instance

/-- Decryption of the sample is ideal then. -/
theorem unforged_sampleNotes {history : NoteHistory} (hproduced : SampleProduced history) :
    Unforged sampleNotes sampleVault history := by
  have hentry : ∀ nonce aad ciphertext plaintext,
      sampleVault.decrypt sampleNotes nonce aad ciphertext = .ok plaintext →
        ∃ entry ∈ sampleEntries, nonce = entry.nonce.val ∧ ciphertext = entry.ciphertext ∧
          entry.aad = aad := by
    intro nonce aad ciphertext plaintext hdecrypt
    unfold CryptoVault.decrypt at hdecrypt
    split at hdecrypt
    · cases hdecrypt
    · next array harray =>
      split at hdecrypt
      · cases hdecrypt
      · next recovered hrecovered =>
        exact ⟨_, entry_of_tableDecrypt hrecovered, (val_of_toArray? harray).symm, rfl, rfl⟩
  intro row hrow aad plaintext
  constructor
  · intro hdecrypt
    obtain ⟨entry, hmem, hnonce, hciphertext, rfl⟩ := hentry _ _ _ _ hdecrypt
    exact (hproduced row hrow).1 entry hmem hnonce hciphertext
  · intro hdecrypt
    obtain ⟨entry, hmem, hnonce, hciphertext, rfl⟩ := hentry _ _ _ _ hdecrypt
    exact (hproduced row hrow).2 entry hmem hnonce hciphertext

/-- The table after two notes were saved, with the title of the first copied over that of the
second, and the first archived. -/
def copiedTitle : NotesTable where
  entries := [((repeated 16 0x99).val, ⟨19675, 1, (repeated 12 0xa1).val,
      bytesOf 18 0x3dcb3c5b29e058f223114e5082ab961c936e, (repeated 12 0xa2).val,
      bytesOf 18 0x026d5877d20f80ccb4ea954a7cd68d466aee⟩),
    ((repeated 16 0x55).val, ⟨19675, 0, (repeated 12 0xa1).val,
      bytesOf 18 0x3dcb3c5b29e058f223114e5082ab961c936e, (repeated 12 0xa4).val,
      bytesOf 16 0x4c284605783479c6b547f5ec6498a176⟩)]
  nodup_keys := by decide

/-- Two notes are saved, and the adversary replaces the table. -/
def saveAndCopy : List NoteHistoryEvent :=
  [.call (saveFirst none), .call saveSecond, .tamper copiedTitle]

/-- The first note is still read, with the fields that were saved for it; the second is not. -/
theorem read_was_saved_saveAndCopy : ∃ history,
    (automaton sampleNotes sampleVault).run fresh saveAndCopy = some history ∧
    Repo.getNote sampleNotes sampleVault history.table secondId = .error
      "AEAD operation failed: decryption failed (tag mismatch or truncated ciphertext)" ∧
    Repo.getNote sampleNotes sampleVault history.table firstId =
      .ok (some ⟨firstId, jsString "Hi", jsString "Yo", 19675, true⟩) ∧
    WasSaved history ⟨firstId, jsString "Hi", jsString "Yo", 19675, true⟩ := by
  have hend : (((automaton sampleNotes sampleVault).run fresh saveAndCopy).map fun history ↦
      (decide (SampleProduced history),
        Repo.getNote sampleNotes sampleVault history.table secondId,
        Repo.getNote sampleNotes sampleVault history.table firstId)) =
      some (true,
        .error "AEAD operation failed: decryption failed (tag mismatch or truncated ciphertext)",
        .ok (some ⟨firstId, jsString "Hi", jsString "Yo", 19675, true⟩)) := by decide +kernel
  obtain ⟨history, hrun, hend⟩ := Option.map_eq_some_iff.mp hend
  obtain ⟨hproduced, hend⟩ := Prod.mk.inj hend
  obtain ⟨hsecond, hfirst⟩ := Prod.mk.inj hend
  have hintact : (automaton sampleNotes sampleVault).RunMeets
      (fun _ event ↦ WritesIntact event) fresh saveAndCopy := by decide +kernel
  have hread := (read_was_saved correctAead_sampleNotes
    (Automaton.reachesWhere_of_run hrun hintact)
    (unforged_sampleNotes (of_decide_eq_true hproduced))).1
  exact ⟨history, hrun, hsecond, hfirst, hread _ _ hfirst⟩

/-- The title of a note is saved with a byte order mark at its front. -/
def markedTitle : List NoteHistoryEvent :=
  [.call (.upsertNote ⟨repeated 16 0x99, repeated 12 0xa5, repeated 12 0xa6, sampleNow⟩
    ⟨none, jsString "\uFEFFHi", jsString "Yo"⟩)]

/-- The title that is read was never saved. -/
theorem not_wasSaved_markedTitle : ∃ history,
    (automaton sampleNotes sampleVault).run fresh markedTitle = some history ∧
    Unforged sampleNotes sampleVault history ∧
    Repo.getNote sampleNotes sampleVault history.table firstId =
      .ok (some ⟨firstId, jsString "Hi", jsString "Yo", 19675, false⟩) ∧
    ¬ WasSaved history ⟨firstId, jsString "Hi", jsString "Yo", 19675, false⟩ := by
  have hend : (((automaton sampleNotes sampleVault).run fresh markedTitle).map fun history ↦
      (decide (SampleProduced history), history.saved,
        Repo.getNote sampleNotes sampleVault history.table firstId)) =
      some (true, [⟨firstId, jsString "\uFEFFHi", jsString "Yo", 19675, false⟩],
        .ok (some ⟨firstId, jsString "Hi", jsString "Yo", 19675, false⟩)) := by decide +kernel
  obtain ⟨history, hrun, hend⟩ := Option.map_eq_some_iff.mp hend
  obtain ⟨hproduced, hend⟩ := Prod.mk.inj hend
  obtain ⟨hsaved, hread⟩ := Prod.mk.inj hend
  refine ⟨history, hrun, unforged_sampleNotes (of_decide_eq_true hproduced), hread, ?_⟩
  intro hwas
  obtain ⟨note, hnote, -, htitle⟩ := hwas.1
  rw [hsaved] at hnote
  rw [List.mem_singleton.mp hnote] at htitle
  revert htitle
  decide

end NoteHistory

end OpfsWebauthn.Storage
