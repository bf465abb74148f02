import Mathlib.Data.List.Sort
import OpfsWebauthn.Foundation.Numbers
import OpfsWebauthn.Storage.RowId

/-!
# The encrypted-row repository of the worker

`note-repository.ts` over the `notes` table. The table is a map from the 16-byte primary key to the
other columns, so that two rows with one key cannot be built. The functions are the statements of
the source with their parameters bound: `upsert` inserts or overwrites the row of its key,
`archive` and `delete` change at most one row, `get` looks up a key, and `list` filters, orders by
day and key, newest first, and cuts one page.

An id that does not decode is an error of the function that binds it, with the text of the codec. A
day in a cursor is read as a double, and compared with the integers of the column.
-/

set_option autoImplicit false
set_option relaxedAutoImplicit false

namespace OpfsWebauthn.Storage

open Foundation

/-- The columns of a `notes` row besides its primary key. -/
structure NoteColumns where
  updatedDay : ℤ
  archived : ℤ
  titleNonce : Bytes
  titleCiphertext : Bytes
  bodyNonce : Bytes
  bodyCiphertext : Bytes
deriving DecidableEq, Repr

/-- The `notes` table, by primary key. -/
abbrev NotesTable := OrderedMap Bytes NoteColumns

/-- `ListPageInput`. -/
structure ListPageInput where
  limit : ℤ
  cursor : Option String
  includeArchived : Bool
deriving DecidableEq, Repr

/-- `ListPageOutput`. -/
structure ListPageOutput where
  rows : List EncryptedNoteRow
  nextCursor : Option String
deriving DecidableEq, Repr

namespace NoteRepositorySql

/-- `decodeRowId`: the codec behind the wasm boundary, which throws the text of its error. -/
def decodeRowId (id : String) : Except String Bytes :=
  (RowId.decode id).mapError RowId.Error.text

/-- `encodeRowId`. -/
def encodeRowId (bytes : Bytes) : Except String String :=
  (RowId.encode bytes).mapError RowId.Error.text

/-- `decodeRow(values)`. -/
def decodeRow (row : Bytes × NoteColumns) : Except String EncryptedNoteRow :=
  (encodeRowId row.1).map fun id ↦
    { id := id
      updatedDay := row.2.updatedDay
      archived := row.2.archived = 1
      titleNonce := row.2.titleNonce
      titleCiphertext := row.2.titleCiphertext
      bodyNonce := row.2.bodyNonce
      bodyCiphertext := row.2.bodyCiphertext }

/-- The digits at the front of a text, as a decimal number. -/
def leadingDigits (chars : List Char) : Option ℕ :=
  match chars.takeWhile Char.isDigit with
  | [] => none
  | digits => some (digits.foldl (fun number ch ↦ 10 * number + (ch.toNat - '0'.toNat)) 0)

/-- The white space and the line terminators of the language. -/
def isStrWhiteSpace (ch : Char) : Bool :=
  ch.toNat ∈ [0x09, 0x0A, 0x0B, 0x0C, 0x0D, 0x20, 0xA0, 0x1680, 0x2028, 0x2029, 0x202F, 0x205F,
    0x3000, 0xFEFF] || (0x2000 ≤ ch.toNat && ch.toNat ≤ 0x200A)

/-- The number of the digits at the front of a text, rounded to a double. -/
def leadingNumber (chars : List Char) : Number :=
  match leadingDigits chars with
  | none => .nan
  | some number => .ofNat number

/-- `Number.parseInt(text, 10)`: leading white space, a sign, and the digits that follow. -/
def parseInt (text : List Char) : Number :=
  match text.dropWhile isStrWhiteSpace with
  | '-' :: rest => (leadingNumber rest).neg
  | '+' :: rest => leadingNumber rest
  | rest => leadingNumber rest

/-- `updated_day < ?`, for a number that was bound. `NaN` is bound as `NULL`, which no day compares
with. -/
def dayLess (day : ℤ) : Number → Bool
  | .nan => false
  | .infinity negative => !negative
  | .finite value => day < value

/-- `updated_day = ?`. -/
def dayEquals (day : ℤ) (number : Number) : Bool :=
  number = .finite day

/-- `cursorWhere(cursor)`: the condition that a row comes after the cursor. -/
def cursorWhere (cursor : Option String) : Except String (Bytes × NoteColumns → Bool) :=
  match cursor with
  | none => .ok fun _ ↦ true
  | some "" => .ok fun _ ↦ true
  | some text =>
    match text.toList.splitOn ':' with
    | dayStr :: lastId :: _ =>
      if dayStr = [] ∨ lastId = [] then .error ("malformed cursor: " ++ text)
      else
        let day := parseInt dayStr
        (decodeRowId (String.ofList lastId)).map fun last row ↦
          dayLess row.2.updatedDay day || (dayEquals row.2.updatedDay day && row.1 < last)
    | _ => .error ("malformed cursor: " ++ text)

/-- `ORDER BY updated_day DESC, id DESC`. -/
def Precedes (row later : Bytes × NoteColumns) : Prop :=
  later.2.updatedDay < row.2.updatedDay ∨
    (later.2.updatedDay = row.2.updatedDay ∧ later.1 ≤ row.1)

instance : DecidableRel Precedes := fun row later ↦ by
  unfold Precedes
  infer_instance

/-- `LIST_LIMIT_MIN`. -/
def listLimitMin : ℤ := 1

/-- `LIST_LIMIT_MAX`. -/
def listLimitMax : ℤ := 200

/-- The rows that the query of `list` returns. -/
def listQuery (table : NotesTable) (includeArchived : Bool)
    (cursor : Bytes × NoteColumns → Bool) (limit : ℕ) : List (Bytes × NoteColumns) :=
  ((table.entries.filter fun row ↦ (includeArchived || row.2.archived = 0) && cursor row)
    |>.insertionSort Precedes).take limit

/-- `list(input)`. -/
def list (table : NotesTable) (input : ListPageInput) : Except String ListPageOutput := do
  let limit := (max listLimitMin (min input.limit listLimitMax)).toNat
  let cursor ← cursorWhere input.cursor
  let raw := listQuery table input.includeArchived cursor (limit + 1)
  let rows ← (raw.take limit).mapM decodeRow
  return {
    rows := rows
    nextCursor := if raw.length > limit then
        rows.getLast?.map fun last ↦ toString last.updatedDay ++ ":" ++ last.id
      else none }

/-- The columns that `upsert` binds. -/
def columns (input : EncryptedNoteRow) : NoteColumns where
  updatedDay := input.updatedDay
  archived := if input.archived then 1 else 0
  titleNonce := input.titleNonce
  titleCiphertext := input.titleCiphertext
  bodyNonce := input.bodyNonce
  bodyCiphertext := input.bodyCiphertext

/-- `upsert(input)`. -/
def upsert (table : NotesTable) (input : EncryptedNoteRow) :
    Except String (NotesTable × EncryptedNoteRow) := do
  let id ← decodeRowId input.id
  return (table.set id (columns input), input)

/-- `archive(id)`: an `UPDATE`, which changes nothing when no row has the key. -/
def archive (table : NotesTable) (id : String) : Except String NotesTable := do
  let id ← decodeRowId id
  return match table.get? id with
    | none => table
    | some row => table.set id { row with archived := 1 }

/-- `delete(id)`. -/
def delete (table : NotesTable) (id : String) : Except String NotesTable := do
  let id ← decodeRowId id
  return table.erase id

/-- `get(id)`. -/
def get (table : NotesTable) (id : String) : Except String (Option EncryptedNoteRow) := do
  let id ← decodeRowId id
  match table.get? id with
  | none => return none
  | some row => some <$> decodeRow (id, row)

/-- The rows of the query of `list` are rows of the table. -/
theorem mem_of_mem_listQuery {table : NotesTable} {includeArchived : Bool}
    {cursor : Bytes × NoteColumns → Bool} {limit : ℕ} {row : Bytes × NoteColumns}
    (hrow : row ∈ listQuery table includeArchived cursor limit) : row ∈ table.entries := by
  have hsorted := List.mem_of_mem_take hrow
  rw [List.mem_insertionSort] at hsorted
  exact List.mem_of_mem_filter hsorted

end NoteRepositorySql

end OpfsWebauthn.Storage
