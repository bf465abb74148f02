import OpfsWebauthn.Foundation.JsonText
import OpfsWebauthn.Storage.Repo

/-!
# The codec of shared notes

`note-codec.ts`: a note is sent as the UTF-8 bytes of a JSON object with its title and its body.
The two are JavaScript strings, so they may hold lone surrogates; `JSON.stringify` escapes these,
and the text that is encoded is well formed. `decodeSharedNote_encodeSharedNote` is the round trip,
for every title and body.
-/

set_option autoImplicit false
set_option relaxedAutoImplicit false

namespace OpfsWebauthn.Share

open Foundation Storage

/-- `SharedNote`. -/
structure SharedNote where
  title : JsString
  body : JsString
deriving DecidableEq, Repr

/-- `encodeSharedNote(note)`. -/
def encodeSharedNote (note : SharedNote) : Bytes :=
  utf8 (String.ofList
    (stringifyStrings [(jsString "title", note.title), (jsString "body", note.body)]))

/-- What `decodeSharedNote` throws. -/
inductive DecodeFailure
  /-- The decoder refused the bytes. -/
  | notText (message : String)
  /-- `JSON.parse` refused the text. -/
  | notJson
  /-- The value is `null`, which has no properties. -/
  | nullValue
  /-- A property is missing or no string. -/
  | missing (message : String)
deriving DecidableEq, Repr

/-- `decodeSharedNote(bytes)`. A value that is no object has neither property. -/
def decodeSharedNote (bytes : Bytes) : Except DecodeFailure SharedNote :=
  match decodeUtf8 bytes with
  | .error message => .error (.notText message)
  | .ok text =>
    match parseJson text.toList with
    | none => .error .notJson
    | some .null => .error .nullValue
    | some (.object members) =>
      match member? members (jsString "title"), member? members (jsString "body") with
      | some (.string title), some (.string body) => .ok ⟨title, body⟩
      | _, _ => .error (.missing "shared note missing `title` or `body`")
    | some _ => .error (.missing "shared note missing `title` or `body`")

/-- The text of an object does not start with a byte order mark. -/
theorem dropMark_stringifyStrings (members : List (JsString × JsString)) :
    dropMark (String.ofList (stringifyStrings members)) =
      String.ofList (stringifyStrings members) := by
  rw [dropMark_eq_self_iff]
  intro hmark
  rw [StartsWithMark, String.toList_ofList] at hmark
  exact absurd (Option.some.inj hmark) (by decide)

/-- A note that was encoded is decoded to the same title and body. -/
theorem decodeSharedNote_encodeSharedNote (note : SharedNote) :
    decodeSharedNote (encodeSharedNote note) = .ok note := by
  have hbytes := decodeUtf8_utf8 (String.ofList
    (stringifyStrings [(jsString "title", note.title), (jsString "body", note.body)]))
  rw [dropMark_stringifyStrings] at hbytes
  unfold decodeSharedNote encodeSharedNote
  rw [hbytes]
  dsimp only
  rw [String.toList_ofList, parse_stringifyStrings]
  rfl

/-- A lone surrogate between ordinary characters, an escape and a pair. -/
example : decodeSharedNote (encodeSharedNote ⟨[0x61, 0xd83d, 0x0a], [0xd83d, 0xde00, 0x22]⟩) =
    .ok ⟨[0x61, 0xd83d, 0x0a], [0xd83d, 0xde00, 0x22]⟩ := by
  decide +kernel

end OpfsWebauthn.Share
