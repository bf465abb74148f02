import OpfsWebauthn.Crypto.CryptoVault
import OpfsWebauthn.Crypto.History
import OpfsWebauthn.Foundation.JsStrings
import OpfsWebauthn.Foundation.Outcome
import OpfsWebauthn.Storage.Dispatcher
import OpfsWebauthn.Storage.RowIdCodec

/-!
# The plaintext-facing repository

`row-codec.ts` and `repo.ts`, over a worker whose database is one `notes` table. Each field of a
note is encrypted under the key of the vault with associated data made from the row id and the name
of the field. Writing uses the id that the caller gave, reading the id that the worker encodes from
the primary key. Titles and bodies are JavaScript strings: the encoder replaces a lone surrogate,
and the decoder drops a byte order mark (`readText_eq_self_iff`).
-/

set_option autoImplicit false
set_option relaxedAutoImplicit false

namespace OpfsWebauthn.Storage

open Foundation Crypto

/-- The bytes of a text: `TextEncoder` on the page, `as_bytes` in the crates. -/
def utf8 (text : String) : Bytes :=
  text.toByteArray.data.toList

/-- The bytes of a text are those of its characters. -/
theorem utf8_ofList (chars : List Char) :
    utf8 (String.ofList chars) = chars.flatMap String.utf8EncodeChar := by
  rw [utf8, String.toByteArray_ofList, List.utf8Encode]
  simp

/-- Texts with the same bytes are the same. -/
theorem utf8_injective : Function.Injective utf8 := by
  intro first second hbytes
  have harrays : first.toByteArray.data.toList = second.toByteArray.data.toList := hbytes
  exact String.toByteArray_inj.mp (ByteArray.ext (Array.toList_inj.mp harrays))

/-- `TextDecoder("utf-8", { fatal: true })`, which drops a byte order mark at the front. -/
def decodeUtf8 (bytes : Bytes) : Except String String :=
  match String.fromUTF8? ⟨bytes.toArray⟩ with
  | none => .error "The encoded data was not valid for encoding utf-8"
  | some text =>
    match text.toList with
    | '\uFEFF' :: rest => .ok (String.ofList rest)
    | _ => .ok text

/-- `ROW_AAD`. -/
def rowAad : String := "opfs-webauthn/v1/note-row"

/-- `aad_for(row_id, field)`. -/
def aadFor (rowId field : String) : Bytes :=
  utf8 rowAad ++ utf8 "/" ++ utf8 field ++ utf8 "/" ++ utf8 rowId

/-- `EncryptedField`. -/
structure EncryptedField where
  nonce : Bytes
  ciphertext : Bytes
deriving DecidableEq, Repr

namespace RowCodec

variable (primitives : Primitives) (vault : CryptoVault)

/-- `encryptField(rowId, field, plaintext)`, with the nonce that was drawn. -/
def encryptField (nonce : ByteArrayN nonceLen) (rowId field : String) (plaintext : JsString) :
    Except String EncryptedField :=
  ((vault.encrypt primitives nonce (aadFor rowId field) (utf8 (usvString plaintext))).mapError
    VaultError.text).map fun ciphertext ↦ ⟨nonce, ciphertext⟩

/-- `decryptField(rowId, field, encrypted)`. -/
def decryptField (rowId field : String) (encrypted : EncryptedField) : Except String JsString := do
  let bytes ← (vault.decrypt primitives encrypted.nonce (aadFor rowId field)
    encrypted.ciphertext).mapError VaultError.text
  let text ← decodeUtf8 bytes
  return jsString text

end RowCodec

/-- `Note`. -/
structure Note where
  id : String
  title : JsString
  body : JsString
  updatedDay : ℤ
  archived : Bool
deriving DecidableEq, Repr

/-- `NoteInput`. -/
structure NoteInput where
  id : Option String
  title : JsString
  body : JsString
deriving DecidableEq, Repr

/-- `ListPage`. -/
structure ListPage where
  notes : List Note
  nextCursor : Option String
deriving DecidableEq, Repr

/-- `ListOptions`. -/
structure ListOptions where
  limit : Option ℤ
  cursor : Option String
  includeArchived : Option Bool
deriving DecidableEq, Repr

/-- The milliseconds that `Date.now()` returns from the epoch on, up to the end of its range. -/
abbrev TimeValue := Fin (8640000000000000 + 1)

/-- What an upsert draws: the bytes of a fresh id, the two nonces, and the clock. -/
structure UpsertDraw where
  rowId : ByteArrayN RowId.rowIdBytes
  titleNonce : ByteArrayN nonceLen
  bodyNonce : ByteArrayN nonceLen
  now : TimeValue
deriving DecidableEq, Repr

/-- `todayDayBucket()`. -/
def todayDayBucket (now : ℕ) : ℤ :=
  (now / 1000 / 86400 : ℕ)

/-- `generateRowId()`. -/
def generateRowId (draw : UpsertDraw) : Except String String :=
  NoteRepositorySql.encodeRowId draw.rowId

/-- The round trip of a request through the client and the worker: the table afterwards, and how the
promise of `send` is settled. -/
def send (table : NotesTable) (request : WorkerRequest) :
    NotesTable × Except String WorkerResponse :=
  let handled := handle table request
  (handled.table, handled.result.bind fun response ↦
    match WorkerClient.settlementFor request.kind response with
    | .resolved response => .ok response
    | .rejected reason => .error reason)

namespace Repo

variable (primitives : Primitives) (vault : CryptoVault)

/-- `#encryptNote(input)`. -/
def encryptNote (draw : UpsertDraw) (id : String) (updatedDay : ℤ) (input : NoteInput) :
    Except String EncryptedNoteRow := do
  let title ← RowCodec.encryptField primitives vault draw.titleNonce id "title" input.title
  let body ← RowCodec.encryptField primitives vault draw.bodyNonce id "body" input.body
  return {
    id := id
    updatedDay := updatedDay
    archived := false
    titleNonce := title.nonce
    titleCiphertext := title.ciphertext
    bodyNonce := body.nonce
    bodyCiphertext := body.ciphertext }

/-- `#decryptRow(row)`. -/
def decryptRow (row : EncryptedNoteRow) : Except String Note := do
  let title ← RowCodec.decryptField primitives vault row.id "title"
    ⟨row.titleNonce, row.titleCiphertext⟩
  let body ← RowCodec.decryptField primitives vault row.id "body"
    ⟨row.bodyNonce, row.bodyCiphertext⟩
  return {
    id := row.id
    title := title
    body := body
    updatedDay := row.updatedDay
    archived := row.archived }

/-- `listNotes(opts)`. -/
def listNotes (table : NotesTable) (opts : ListOptions) : Except String ListPage := do
  match ← (send table (.listNotes (opts.limit.getD 50) opts.cursor
    (opts.includeArchived.getD false))).2 with
  | .listNotes rows nextCursor =>
    let notes ← rows.mapM (decryptRow primitives vault)
    return ⟨notes, nextCursor⟩
  -- `send` rejects a response of another kind
  | _ => throw "unreachable"

/-- `input.id ?? generateRowId()`. -/
def noteId (draw : UpsertDraw) (input : NoteInput) : Except String String :=
  match input.id with
  | some id => .ok id
  | none => generateRowId draw

/-- The row that `upsertNote(input)` sends. -/
def upsertRow (draw : UpsertDraw) (input : NoteInput) : Except String EncryptedNoteRow := do
  let id ← noteId draw input
  encryptNote primitives vault draw id (todayDayBucket draw.now) input

/-- `upsertNote(input)`: the table afterwards, and the outcome of the promise. -/
def upsertNote (table : NotesTable) (draw : UpsertDraw) (input : NoteInput) :
    NotesTable × Except String Note :=
  match upsertRow primitives vault draw input with
  | .error message => (table, .error message)
  | .ok row =>
    let sent := send table (.upsertNote row)
    (sent.1, sent.2.map fun _ ↦
      { id := row.id
        title := input.title
        body := input.body
        updatedDay := row.updatedDay
        archived := false })

/-- `getNote(id)`. -/
def getNote (table : NotesTable) (id : String) : Except String (Option Note) := do
  match ← (send table (.getNote id)).2 with
  | .getNote none => return none
  | .getNote (some row) => some <$> decryptRow primitives vault row
  -- `send` rejects a response of another kind
  | _ => throw "unreachable"

/-- `archiveNote(id)`. -/
def archiveNote (table : NotesTable) (id : String) : NotesTable × Except String Unit :=
  let sent := send table (.archiveNote id)
  (sent.1, sent.2.map fun _ ↦ ())

/-- `deleteNote(id)`. -/
def deleteNote (table : NotesTable) (id : String) : NotesTable × Except String Unit :=
  let sent := send table (.deleteNote id)
  (sent.1, sent.2.map fun _ ↦ ())

end Repo

/-! ### Texts -/

/-- A text without the byte order mark at its front. -/
def dropMark (text : String) : String :=
  match text.toList with
  | '\uFEFF' :: rest => String.ofList rest
  | _ => text

/-- A text has a byte order mark at its front. -/
def StartsWithMark (text : String) : Prop :=
  text.toList.head? = some '\uFEFF'

instance (text : String) : Decidable (StartsWithMark text) := by
  unfold StartsWithMark
  infer_instance

/-- The bytes of a text decode to the text without its mark. -/
theorem decodeUtf8_utf8 (text : String) : decodeUtf8 (utf8 text) = .ok (dropMark text) := by
  have hbytes : (⟨(utf8 text).toArray⟩ : ByteArray) = text.toByteArray := rfl
  have hvalid : String.fromUTF8? text.toByteArray = some text := by
    rw [String.fromUTF8?, dif_pos text.isValidUTF8]
    rfl
  unfold decodeUtf8 dropMark
  rw [hbytes, hvalid]
  dsimp only
  split
  · rfl
  · rfl

/-- Dropping the mark changes exactly the texts that have one. -/
theorem dropMark_eq_self_iff (text : String) : dropMark text = text ↔ ¬ StartsWithMark text := by
  unfold dropMark StartsWithMark
  split
  · next rest htext =>
    refine iff_of_false ?_ (not_not_intro (by rw [htext]; rfl))
    intro hsame
    have hlist := congrArg String.toList hsame
    rw [String.toList_ofList, htext] at hlist
    exact absurd (congrArg List.length hlist) (by simp)
  · next hother =>
    refine iff_of_true rfl ?_
    intro hmark
    cases hlist : text.toList with
    | nil =>
      rw [hlist] at hmark
      cases hmark
    | cons ch rest =>
      rw [hlist, List.head?_cons, Option.some.injEq] at hmark
      exact hother rest (hmark ▸ hlist)

/-- The mark is one code unit. -/
theorem length_jsString_dropMark {text : String} (hmark : StartsWithMark text) :
    (jsString (dropMark text)).length + 1 = (jsString text).length := by
  unfold StartsWithMark at hmark
  cases htext : text.toList with
  | nil =>
    rw [htext] at hmark
    cases hmark
  | cons ch rest =>
    rw [htext, List.head?_cons, Option.some.injEq] at hmark
    subst hmark
    have hdrop : dropMark text = String.ofList rest := by
      unfold dropMark
      rw [htext]
      rfl
    rw [hdrop, jsString, jsString, String.toList_ofList, htext, List.flatMap_cons,
      List.length_append, Nat.add_comm]
    rfl

/-- What is read back of a text that was written. -/
def readText (text : JsString) : JsString :=
  jsString (dropMark (usvString text))

/-- A text without a lone surrogate, and without a byte order mark at its front. -/
def Intact (text : JsString) : Prop :=
  isWellFormed text = true ∧ text.head? ≠ some 0xfeff

instance (text : JsString) : Decidable (Intact text) := by
  unfold Intact
  infer_instance

/-- The texts that are read back as they were written. -/
theorem readText_eq_self_iff (text : JsString) : readText text = text ↔ Intact text := by
  have hmark : StartsWithMark (usvString text) ↔ text.head? = some 0xfeff := by
    rw [StartsWithMark, usvString, String.toList_ofList]
    exact head?_scalarValues_iff (by decide) (by decide) text
  rw [Intact, ne_eq, ← hmark, ← dropMark_eq_self_iff, ← jsString_usvString_eq_self_iff, readText]
  constructor
  · intro hsame
    -- without its mark the text is shorter
    have hdrop : dropMark (usvString text) = usvString text := by
      by_contra hother
      have hstarts := not_not.mp ((dropMark_eq_self_iff _).not.mp hother)
      have hlength := (congrArg List.length hsame).trans (length_jsString_usvString text).symm
      have hshorter := length_jsString_dropMark hstarts
      omega
    rw [hdrop] at hsame
    exact ⟨hsame, hdrop⟩
  · rintro ⟨hsame, hdrop⟩
    rw [hdrop]
    exact hsame

example : readText [0xd800, 0x61] = [0xfffd, 0x61] := by decide

namespace RowCodec

variable {primitives : Primitives} {vault : CryptoVault}

/-- The field that `encryptField` makes. -/
theorem encryptField_eq_ok_iff {nonce : ByteArrayN nonceLen} {rowId field : String}
    {plaintext : JsString} {encrypted : EncryptedField} :
    encryptField primitives vault nonce rowId field plaintext = .ok encrypted ↔
      encrypted.nonce = nonce ∧ primitives.aeadEncrypt vault.dek nonce (aadFor rowId field)
        (utf8 (usvString plaintext)) = some encrypted.ciphertext := by
  obtain ⟨otherNonce, ciphertext⟩ := encrypted
  unfold encryptField CryptoVault.encrypt
  rw [toArray?_coe]
  cases hencrypt : primitives.aeadEncrypt vault.dek nonce (aadFor rowId field)
      (utf8 (usvString plaintext)) with
  | none => simp [hencrypt, Except.mapError, Except.map]
  | some made => simp [hencrypt, Except.mapError, Except.map, eq_comm]

/-- A field that decrypts to the bytes of a text is read as this text. -/
theorem decryptField_of_decrypt {nonce : ByteArrayN nonceLen} {rowId field : String}
    {plaintext : JsString} {encrypted : EncryptedField} (hnonce : encrypted.nonce = nonce)
    (hdecrypt : primitives.aeadDecrypt vault.dek nonce (aadFor rowId field) encrypted.ciphertext =
      some (utf8 (usvString plaintext))) :
    decryptField primitives vault rowId field encrypted = .ok (readText plaintext) := by
  refine bind_eq_ok_iff.mpr ⟨utf8 (usvString plaintext), ?_, ?_⟩
  · rw [mapError_eq_ok_iff, CryptoVault.decrypt, hnonce, toArray?_coe]
    dsimp only
    rw [hdecrypt]
  · exact bind_eq_ok_iff.mpr ⟨_, decodeUtf8_utf8 _, rfl⟩

/-- What was encrypted for a row and a field decrypts there to what is read back of it. -/
theorem decryptField_of_encryptField (hcorrect : primitives.CorrectAead)
    {nonce : ByteArrayN nonceLen} {rowId field : String} {plaintext : JsString}
    {encrypted : EncryptedField}
    (hencrypt : encryptField primitives vault nonce rowId field plaintext = .ok encrypted) :
    decryptField primitives vault rowId field encrypted = .ok (readText plaintext) := by
  obtain ⟨hnonce, hciphertext⟩ := encryptField_eq_ok_iff.mp hencrypt
  exact decryptField_of_decrypt hnonce (hcorrect _ _ _ _ _ hciphertext)

/-- So it does after a history that has the encryption. -/
theorem decryptField_after (hcorrect : primitives.CorrectAead) {history : List AeadEntry}
    {nonce : ByteArrayN nonceLen} {rowId field : String} {plaintext : JsString}
    {encrypted : EncryptedField}
    (hencrypt : encryptField primitives vault nonce rowId field plaintext = .ok encrypted)
    (hproduced : Produced history vault.dek nonce (aadFor rowId field) encrypted.ciphertext) :
    decryptField (primitives.after history) vault rowId field encrypted =
      .ok (readText plaintext) := by
  obtain ⟨hnonce, hciphertext⟩ := encryptField_eq_ok_iff.mp hencrypt
  exact decryptField_of_decrypt hnonce
    (aeadDecrypt_after.mpr ⟨hproduced, hcorrect _ _ _ _ _ hciphertext⟩)

/-- A field that is read was decrypted. -/
theorem decrypt_of_decryptField {rowId field : String} {encrypted : EncryptedField}
    {text : JsString}
    (hdecrypt : decryptField primitives vault rowId field encrypted = .ok text) :
    ∃ nonce plaintext, toArray? nonceLen encrypted.nonce = some nonce ∧
      primitives.aeadDecrypt vault.dek nonce (aadFor rowId field) encrypted.ciphertext =
        some plaintext ∧ (decodeUtf8 plaintext).map jsString = .ok text := by
  obtain ⟨bytes, hbytes, htext⟩ := bind_eq_ok_iff.mp hdecrypt
  rw [mapError_eq_ok_iff, CryptoVault.decrypt] at hbytes
  split at hbytes
  · cases hbytes
  · next nonce hnonce =>
    split at hbytes
    · cases hbytes
    · next plaintext hplaintext =>
      obtain rfl := Except.ok.inj hbytes
      refine ⟨nonce, plaintext, hnonce, hplaintext, ?_⟩
      obtain ⟨decoded, hdecoded, hsame⟩ := bind_eq_ok_iff.mp htext
      rw [hdecoded]
      exact hsame

/-- A ciphertext of the history is read only under the key and for the row and the field it was made
for. -/
theorem of_decryptField {history : List AeadEntry} (hdistinct : DistinctCiphertexts history)
    {made : AeadEntry} (hmade : made ∈ history) {rowId field : String} {text : JsString}
    {encrypted : EncryptedField} (hciphertext : made.ciphertext = encrypted.ciphertext)
    (hdecrypt : decryptField (primitives.after history) vault rowId field encrypted = .ok text) :
    vault.dek = made.key ∧ aadFor rowId field = made.aad := by
  obtain ⟨nonce, plaintext, -, hplaintext, -⟩ := decrypt_of_decryptField hdecrypt
  rw [← hciphertext] at hplaintext
  obtain ⟨hkey, -, haad⟩ := hdistinct.of_decrypt hmade hplaintext
  exact ⟨hkey, haad⟩

/-- What is read is read after a longer history. -/
theorem decryptField_mono {history later : List AeadEntry}
    (hlater : ∀ entry ∈ history, entry ∈ later) {rowId field : String} {text : JsString}
    {encrypted : EncryptedField}
    (hdecrypt : decryptField (primitives.after history) vault rowId field encrypted = .ok text) :
    decryptField (primitives.after later) vault rowId field encrypted = .ok text := by
  obtain ⟨nonce, plaintext, hnonce, hplaintext, htext⟩ := decrypt_of_decryptField hdecrypt
  obtain ⟨hproduced, hplain⟩ := aeadDecrypt_after.mp hplaintext
  have hafter : (primitives.after later).aeadDecrypt vault.dek nonce (aadFor rowId field)
      encrypted.ciphertext = some plaintext := aeadDecrypt_after.mpr ⟨hproduced.mono hlater, hplain⟩
  refine bind_eq_ok_iff.mpr ⟨plaintext, ?_, ?_⟩
  · rw [mapError_eq_ok_iff, CryptoVault.decrypt, hnonce]
    dsimp only
    rw [hafter]
  · cases hdecoded : decodeUtf8 plaintext with
    | error message =>
      rw [hdecoded] at htext
      cases htext
    | ok decoded =>
      rw [hdecoded] at htext
      exact bind_eq_ok_iff.mpr ⟨decoded, rfl, htext⟩

end RowCodec

/-- Associated data of one field determines the row id. -/
theorem aadFor_inj {field first second : String} (haad : aadFor first field = aadFor second field) :
    first = second := by
  have hbytes : utf8 first = utf8 second := List.append_cancel_left haad
  apply String.toByteArray_inj.mp
  apply ByteArray.ext
  exact Array.toList_inj.mp hbytes

end OpfsWebauthn.Storage
