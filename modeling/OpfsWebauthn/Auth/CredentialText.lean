import OpfsWebauthn.Auth.Ceremony
import OpfsWebauthn.Foundation.Base64
import OpfsWebauthn.Foundation.Decimals
import OpfsWebauthn.Foundation.Outcome

/-!
# The text of a credential

`codec.ts`, and `serialize` and `deserialize` of `credential-store.ts`. A credential is stored as a
JSON object: its byte arrays in base64url without padding, its relying party as a string, and the
time of its creation as a number. `StoredCredential` has these values as JavaScript has them, so the
string may hold lone surrogates and the number may be any double.

`deserialize_stringify` is the round trip of a credential whose time is finite. A text that is no
such object deserializes to nothing, with two exceptions (`readsAsAbsent_iff`): the properties of
the value `null` are read outside every `try`, and a number literal that overflows passes the type
check as an infinity, which `JSON.stringify` writes as `null`.
-/

set_option autoImplicit false
set_option relaxedAutoImplicit false

namespace OpfsWebauthn.Auth.CredentialStore

open Foundation Storage Crypto

/-! ### The codec -/

/-- `URL_SAFE_ALPHABET` at one code unit. -/
def isUrlSafe (unit : UInt16) : Bool :=
  let code := unit.toNat
  (0x41 ≤ code && code ≤ 0x5a) || (0x61 ≤ code && code ≤ 0x7a) || (0x30 ≤ code && code ≤ 0x39) ||
    code = 0x5f || code = 0x2d

/-- `text.replaceAll(old, new)` for single code units. -/
def replaceUnit (text : JsString) (old new : UInt16) : JsString :=
  text.map fun unit ↦ if unit = old then new else unit

/-- `bytesToBase64Url(bytes)`. -/
def bytesToBase64Url (bytes : Bytes) : JsString :=
  (replaceUnit (replaceUnit (btoa bytes) 0x2b 0x2d) 0x2f 0x5f).filter fun unit ↦ unit ≠ padUnit

/-- What `base64UrlToBytes` throws. -/
inductive CodecError
  /-- `new Error("invalid base64url input")`. -/
  | invalidInput
  /-- The exception of `atob`. -/
  | invalidCharacter
deriving DecidableEq, Repr

/-- `base64UrlToBytes(s)`. -/
def base64UrlToBytes (text : JsString) : Except CodecError Bytes :=
  if text.all isUrlSafe then
    let padded := replaceUnit (replaceUnit text 0x2d 0x2b) 0x5f 0x2f ++
      List.replicate (padCount text.length) padUnit
    match atob padded with
    | none => .error .invalidCharacter
    | some bytes => .ok bytes
  else .error .invalidInput

/-! ### The text -/

/-- `VaultCredential`, with any JavaScript string and number. -/
structure StoredCredential where
  credentialId : Bytes
  prfSalt : Bytes
  wrappedDek : Bytes
  wrapNonce : Bytes
  rpId : JsString
  createdAt : JsNumber

/-- `Serialized`. -/
structure Serialized where
  credentialId : JsString
  prfSalt : JsString
  wrappedDek : JsString
  wrapNonce : JsString
  rpId : JsString
  createdAt : JsNumber

/-- `serialize(c)`. -/
def serialize (credential : StoredCredential) : Serialized where
  credentialId := bytesToBase64Url credential.credentialId
  prfSalt := bytesToBase64Url credential.prfSalt
  wrappedDek := bytesToBase64Url credential.wrappedDek
  wrapNonce := bytesToBase64Url credential.wrapNonce
  rpId := credential.rpId
  createdAt := credential.createdAt

/-- `JSON.stringify(serialized)`. -/
def stringify (serialized : Serialized) : List Char :=
  writeObject [(jsString "credentialId", quote serialized.credentialId),
    (jsString "prfSalt", quote serialized.prfSalt),
    (jsString "wrappedDek", quote serialized.wrappedDek),
    (jsString "wrapNonce", quote serialized.wrapNonce), (jsString "rpId", quote serialized.rpId),
    (jsString "createdAt", stringifyNumber serialized.createdAt.val)]

/-- A property of type `string`. -/
def stringMember? (members : List (JsString × Json)) (key : String) : Option JsString :=
  match member? members (jsString key) with
  | some (.string value) => some value
  | _ => none

/-- A property of type `number`. -/
def numberMember? (members : List (JsString × Json)) (key : String) : Option JsNumber :=
  match member? members (jsString key) with
  | some (.number literal) => some (.round (literalValue literal))
  | _ => none

/-- The six type checks of `deserialize`. -/
def serialized? (members : List (JsString × Json)) : Option Serialized := do
  let credentialId ← stringMember? members "credentialId"
  let prfSalt ← stringMember? members "prfSalt"
  let wrappedDek ← stringMember? members "wrappedDek"
  let wrapNonce ← stringMember? members "wrapNonce"
  let rpId ← stringMember? members "rpId"
  let createdAt ← numberMember? members "createdAt"
  return ⟨credentialId, prfSalt, wrappedDek, wrapNonce, rpId, createdAt⟩

/-- The credential that `deserialize` makes of properties that passed the checks. -/
def credentialOf (serialized : Serialized) : Except CodecError StoredCredential := do
  let credentialId ← base64UrlToBytes serialized.credentialId
  let prfSalt ← base64UrlToBytes serialized.prfSalt
  let wrappedDek ← base64UrlToBytes serialized.wrappedDek
  let wrapNonce ← base64UrlToBytes serialized.wrapNonce
  return ⟨credentialId, prfSalt, wrappedDek, wrapNonce, serialized.rpId, serialized.createdAt⟩

/-- What a call of the store is rejected with. -/
inductive StoreError
  /-- The `TypeError` of reading a property of `null`. -/
  | nullValue
  /-- `CredentialStoreUnavailableError`. -/
  | unavailable
  /-- Any other error, with its message. -/
  | failed (message : String)
deriving DecidableEq, Repr

/-- `deserialize(raw)`. A value other than `null` that is no object has none of the properties. -/
def deserialize (raw : List Char) : Except StoreError (Option StoredCredential) :=
  match parseJson raw with
  | none => .ok none
  | some .null => .error .nullValue
  | some (.object members) =>
    match serialized? members with
    | none => .ok none
    | some serialized =>
      match credentialOf serialized with
      | .error _ => .ok none
      | .ok credential => .ok (some credential)
  | some _ => .ok none

/-! ### The codec reads what it writes -/

/-- A digit of base64 in the safe alphabet. -/
def toUrlSafe (unit : UInt16) : UInt16 :=
  let replaced := if unit = 0x2b then 0x2d else unit
  if replaced = 0x2f then 0x5f else replaced

/-- A unit of the safe alphabet as a digit of base64. -/
def ofUrlSafe (unit : UInt16) : UInt16 :=
  let replaced := if unit = 0x2d then 0x2b else unit
  if replaced = 0x5f then 0x2f else replaced

theorem replaceUnit_toUrlSafe (text : JsString) :
    replaceUnit (replaceUnit text 0x2b 0x2d) 0x2f 0x5f = text.map toUrlSafe :=
  List.map_map

theorem replaceUnit_ofUrlSafe (text : JsString) :
    replaceUnit (replaceUnit text 0x2d 0x2b) 0x5f 0x2f = text.map ofUrlSafe :=
  List.map_map

/-- The padding goes, and every digit stays. -/
theorem bytesToBase64Url_eq (bytes : Bytes) :
    bytesToBase64Url bytes = (base64Digits bytes).map toUrlSafe := by
  have hdigits : ∀ unit ∈ base64Digits bytes, toUrlSafe unit ≠ padUnit := by
    apply forall_mem_base64Digits
    decide +kernel
  have hpadding : ∀ count : ℕ, ((List.replicate count padUnit).map toUrlSafe).filter
      (fun unit ↦ unit ≠ padUnit) = [] := by
    intro count
    apply List.filter_eq_nil_iff.mpr
    intro unit hunit
    obtain ⟨before, hbefore, hsafe⟩ := List.mem_map.mp hunit
    rw [← hsafe, List.eq_of_mem_replicate hbefore]
    decide
  unfold bytesToBase64Url btoa
  dsimp only
  rw [replaceUnit_toUrlSafe, List.map_append, List.filter_append, hpadding, List.append_nil]
  apply List.filter_eq_self.mpr
  intro unit hunit
  obtain ⟨digit, hdigit, hsafe⟩ := List.mem_map.mp hunit
  rw [← hsafe]
  exact decide_eq_true (hdigits digit hdigit)

/-- The codec reads back what it wrote, for byte arrays of every length. -/
theorem base64UrlToBytes_bytesToBase64Url (bytes : Bytes) :
    base64UrlToBytes (bytesToBase64Url bytes) = .ok bytes := by
  have hsafe : ∀ unit ∈ base64Digits bytes, isUrlSafe (toUrlSafe unit) = true := by
    apply forall_mem_base64Digits
    decide +kernel
  have hback : ∀ unit ∈ base64Digits bytes, ofUrlSafe (toUrlSafe unit) = unit := by
    apply forall_mem_base64Digits
    decide +kernel
  have hall : ((base64Digits bytes).map toUrlSafe).all isUrlSafe = true := by
    rw [List.all_map, List.all_eq_true]
    exact hsafe
  have hdigits : ((base64Digits bytes).map toUrlSafe).map ofUrlSafe = base64Digits bytes := by
    rw [List.map_map]
    exact (List.map_congr_left hback).trans (List.map_id' _)
  have hread : atob (base64Digits bytes ++
      List.replicate (padCount (base64Digits bytes).length) padUnit) = some bytes :=
    atob_btoa bytes
  unfold base64UrlToBytes
  dsimp only
  rw [bytesToBase64Url_eq, if_pos hall, replaceUnit_ofUrlSafe, hdigits, List.length_map, hread]

/-- A text that the codec decodes: safe units, and not one more than a multiple of four. -/
def IsBase64Url (text : JsString) : Prop :=
  (∀ unit ∈ text, isUrlSafe unit = true) ∧ text.length % 4 ≠ 1

/-- Which texts the codec decodes; the bits that do not fill a byte may be anything. -/
theorem base64UrlToBytes_isOk_iff (text : JsString) :
    (∃ bytes, base64UrlToBytes text = .ok bytes) ↔ IsBase64Url text := by
  have hbelow : ∀ unit : Fin 128, isUrlSafe (UInt16.ofNat unit) = true →
      ofUrlSafe (UInt16.ofNat unit) ∈ base64Alphabet := by
    decide +kernel
  have halphabet : ∀ unit, isUrlSafe unit = true → ofUrlSafe unit ∈ base64Alphabet := by
    intro unit hunit
    have hlt : unit.toNat < 128 := by
      unfold isUrlSafe at hunit
      simp only [Bool.or_eq_true, Bool.and_eq_true, decide_eq_true_eq] at hunit
      omega
    have hnumber : UInt16.ofNat unit.toNat = unit := UInt16.ofNat_toNat
    have hdigit := hbelow ⟨unit.toNat, hlt⟩
    rw [hnumber] at hdigit
    exact hdigit hunit
  unfold base64UrlToBytes IsBase64Url
  by_cases hall : text.all isUrlSafe
  · have hsafe : ∀ unit ∈ text, isUrlSafe unit = true := List.all_eq_true.mp hall
    have hdigits : ∀ unit ∈ text.map ofUrlSafe, unit ∈ base64Alphabet := by
      intro unit hunit
      obtain ⟨before, hbefore, hdigit⟩ := List.mem_map.mp hunit
      rw [← hdigit]
      exact halphabet before (hsafe before hbefore)
    have hread := atob_padded hdigits
    rw [List.length_map] at hread
    dsimp only
    rw [if_pos hall, replaceUnit_ofUrlSafe, hread]
    by_cases hone : text.length % 4 = 1
    · rw [if_pos hone]
      constructor
      · rintro ⟨bytes, hbytes⟩
        cases hbytes
      · exact fun hformed ↦ absurd hone hformed.2
    · rw [if_neg hone]
      exact iff_of_true ⟨_, rfl⟩ ⟨hsafe, hone⟩
  · rw [if_neg hall]
    constructor
    · rintro ⟨bytes, hbytes⟩
      cases hbytes
    · exact fun hformed ↦ absurd (List.all_eq_true.mpr hformed.1) hall

/-! ### The round trip of a credential -/

/-- A number is finite. -/
def IsFinite (number : JsNumber) : Prop :=
  ∃ value, number.val = .finite value

/-- The properties of the text of a credential: how the values are written, and as what they are
read. -/
def writtenMembers (serialized : Serialized) (createdAt : Json) :
    List (JsString × List Char × Json) :=
  [(jsString "credentialId", quote serialized.credentialId, .string serialized.credentialId),
    (jsString "prfSalt", quote serialized.prfSalt, .string serialized.prfSalt),
    (jsString "wrappedDek", quote serialized.wrappedDek, .string serialized.wrappedDek),
    (jsString "wrapNonce", quote serialized.wrapNonce, .string serialized.wrapNonce),
    (jsString "rpId", quote serialized.rpId, .string serialized.rpId),
    (jsString "createdAt", stringifyNumber serialized.createdAt.val, createdAt)]

/-- The text of a credential, read as JSON. -/
theorem parseJson_stringify (serialized : Serialized) {createdAt : Json}
    (hreads : Reads (stringifyNumber serialized.createdAt.val) createdAt) :
    parseJson (stringify serialized) = some (.object
      ((writtenMembers serialized createdAt).map fun (key, _, value) ↦ (key, value))) := by
  have hmembers : ∀ member ∈ writtenMembers serialized createdAt,
      Reads member.2.1 member.2.2 := by
    unfold writtenMembers
    simp only [List.forall_mem_cons]
    exact ⟨reads_quote _, reads_quote _, reads_quote _, reads_quote _, reads_quote _, hreads,
      List.forall_mem_nil _⟩
  rw [← parse_writeObject hmembers]
  rfl

/-- The type checks on the text of a credential; only the one of the time can fail. -/
theorem serialized?_writtenMembers (serialized : Serialized) (createdAt : Json) :
    serialized? ((writtenMembers serialized createdAt).map fun (key, _, value) ↦ (key, value)) =
      match createdAt with
      | .number literal => some { serialized with createdAt := .round (literalValue literal) }
      | _ => none := by
  cases createdAt with
  | number literal => rfl
  | null => rfl
  | bool value => rfl
  | string value => rfl
  | array items => rfl
  | object members => rfl

theorem credentialOf_serialize (credential : StoredCredential) :
    credentialOf (serialize credential) = .ok credential := by
  unfold credentialOf serialize
  simp only [base64UrlToBytes_bytesToBase64Url, ok_bind]
  rfl

/-- A credential that was written with a finite time is read back. -/
theorem deserialize_stringify {credential : StoredCredential}
    (hfinite : IsFinite credential.createdAt) :
    deserialize (stringify (serialize credential)) = .ok (some credential) := by
  obtain ⟨value, hvalue⟩ := hfinite
  have hdouble : IsDouble value := credential.createdAt.property value hvalue
  have hreads : Reads (stringifyNumber (serialize credential).createdAt.val)
      (.number (decimalText value)) := by
    show Reads (stringifyNumber credential.createdAt.val) _
    rw [hvalue]
    exact reads_decimalText hdouble
  have hround : JsNumber.round (literalValue (decimalText value)) = credential.createdAt :=
    JsNumber.round_eq hvalue (round_decimalText hdouble)
  have hsame : { serialize credential with createdAt := credential.createdAt } =
      serialize credential := rfl
  unfold deserialize
  rw [parseJson_stringify _ hreads]
  dsimp only
  rw [serialized?_writtenMembers]
  dsimp only
  rw [hround, hsame, credentialOf_serialize]

/-- A credential that was written with any other time is not read back. -/
theorem deserialize_stringify_of_not {credential : StoredCredential}
    (hinfinite : ¬ IsFinite credential.createdAt) :
    deserialize (stringify (serialize credential)) = .ok none := by
  have hreads : Reads (stringifyNumber (serialize credential).createdAt.val) .null := by
    show Reads (stringifyNumber credential.createdAt.val) _
    cases hnumber : credential.createdAt.val with
    | finite value => exact absurd ⟨value, hnumber⟩ hinfinite
    | nan => exact reads_null
    | infinity negative => exact reads_null
  unfold deserialize
  rw [parseJson_stringify _ hreads]
  dsimp only
  rw [serialized?_writtenMembers]

/-! ### Texts of any content -/

/-- The four byte arrays of the properties can be decoded. -/
structure Serialized.Decodable (serialized : Serialized) : Prop where
  credentialId : IsBase64Url serialized.credentialId
  prfSalt : IsBase64Url serialized.prfSalt
  wrappedDek : IsBase64Url serialized.wrappedDek
  wrapNonce : IsBase64Url serialized.wrapNonce

theorem credentialOf_isOk_iff (serialized : Serialized) :
    (∃ credential, credentialOf serialized = .ok credential) ↔ serialized.Decodable := by
  constructor
  · rintro ⟨credential, hcredential⟩
    unfold credentialOf at hcredential
    simp only [bind_eq_ok_iff] at hcredential
    obtain ⟨_, hcredentialId, _, hprfSalt, _, hwrappedDek, _, hwrapNonce, -⟩ := hcredential
    constructor
    · exact (base64UrlToBytes_isOk_iff _).mp ⟨_, hcredentialId⟩
    · exact (base64UrlToBytes_isOk_iff _).mp ⟨_, hprfSalt⟩
    · exact (base64UrlToBytes_isOk_iff _).mp ⟨_, hwrappedDek⟩
    · exact (base64UrlToBytes_isOk_iff _).mp ⟨_, hwrapNonce⟩
  · intro hdecodable
    obtain ⟨_, hcredentialId⟩ := (base64UrlToBytes_isOk_iff _).mpr hdecodable.credentialId
    obtain ⟨_, hprfSalt⟩ := (base64UrlToBytes_isOk_iff _).mpr hdecodable.prfSalt
    obtain ⟨_, hwrappedDek⟩ := (base64UrlToBytes_isOk_iff _).mpr hdecodable.wrappedDek
    obtain ⟨_, hwrapNonce⟩ := (base64UrlToBytes_isOk_iff _).mpr hdecodable.wrapNonce
    unfold credentialOf
    rw [hcredentialId, ok_bind, hprfSalt, ok_bind, hwrappedDek, ok_bind, hwrapNonce, ok_bind]
    exact ⟨_, rfl⟩

theorem createdAt_of_credentialOf {serialized : Serialized} {credential : StoredCredential}
    (hcredential : credentialOf serialized = .ok credential) :
    credential.createdAt = serialized.createdAt := by
  unfold credentialOf at hcredential
  simp only [bind_eq_ok_iff] at hcredential
  obtain ⟨_, -, _, -, _, -, _, -, hcredential⟩ := hcredential
  rw [← Except.ok.inj hcredential]

/-- A text is reported as absent, or as a credential whose text is read as the same credential. -/
def DeserializesSoundly (raw : List Char) : Prop :=
  deserialize raw = .ok none ∨
    ∃ credential, deserialize raw = .ok (some credential) ∧
      deserialize (stringify (serialize credential)) = .ok (some credential)

/-- An object with all properties of a credential, whose time is too large for a double. -/
def Overflows (raw : List Char) : Prop :=
  ∃ members serialized, parseJson raw = some (.object members) ∧
    serialized? members = some serialized ∧ serialized.Decodable ∧ ¬ IsFinite serialized.createdAt

/-- An object deserializes as it should unless its time overflows. -/
theorem deserializesSoundly_object_iff {raw : List Char} {members : List (JsString × Json)}
    (hparse : parseJson raw = some (.object members)) :
    DeserializesSoundly raw ↔ ¬ Overflows raw := by
  have hdeserialize : deserialize raw = match serialized? members with
      | none => .ok none
      | some serialized =>
        match credentialOf serialized with
        | .error _ => .ok none
        | .ok credential => .ok (some credential) := by
    unfold deserialize
    rw [hparse]
  have hoverflows : Overflows raw ↔ ∃ serialized, serialized? members = some serialized ∧
      serialized.Decodable ∧ ¬ IsFinite serialized.createdAt := by
    constructor
    · rintro ⟨others, serialized, hothers, hchecked, hrest⟩
      rw [hparse, Option.some.injEq, Json.object.injEq] at hothers
      exact ⟨serialized, hothers ▸ hchecked, hrest⟩
    · rintro ⟨serialized, hchecked, hrest⟩
      exact ⟨members, serialized, hparse, hchecked, hrest⟩
  rw [hoverflows]
  cases hchecked : serialized? members with
  | none =>
    rw [hchecked] at hdeserialize
    refine iff_of_true (Or.inl hdeserialize) ?_
    rintro ⟨serialized, hsome, -⟩
    cases hsome
  | some serialized =>
    rw [hchecked] at hdeserialize
    dsimp only at hdeserialize
    cases hcredential : credentialOf serialized with
    | error cause =>
      rw [hcredential] at hdeserialize
      refine iff_of_true (Or.inl hdeserialize) ?_
      rintro ⟨other, hother, hdecodable, -⟩
      rw [Option.some.injEq] at hother
      rw [← hother] at hdecodable
      obtain ⟨credential, hok⟩ := (credentialOf_isOk_iff serialized).mpr hdecodable
      rw [hcredential] at hok
      cases hok
    | ok credential =>
      rw [hcredential] at hdeserialize
      dsimp only at hdeserialize
      have hdecodable : serialized.Decodable :=
        (credentialOf_isOk_iff serialized).mp ⟨credential, hcredential⟩
      have htime := createdAt_of_credentialOf hcredential
      by_cases hfinite : IsFinite serialized.createdAt
      · refine iff_of_true (Or.inr ⟨credential, hdeserialize, ?_⟩) ?_
        · apply deserialize_stringify
          rw [htime]
          exact hfinite
        · rintro ⟨other, hother, -, hinfinite⟩
          rw [Option.some.injEq] at hother
          exact hinfinite (hother ▸ hfinite)
      · refine iff_of_false ?_ (not_not_intro ⟨serialized, rfl, hdecodable, hfinite⟩)
        rintro (hnone | ⟨other, hother, hagain⟩)
        · rw [hdeserialize] at hnone
          cases hnone
        · rw [hdeserialize, Except.ok.injEq, Option.some.injEq] at hother
          rw [← hother, deserialize_stringify_of_not (htime ▸ hfinite)] at hagain
          cases hagain

/-- A text that is no JSON, or a value without properties, is reported as absent. -/
theorem deserialize_of_other {raw : List Char} (hnull : parseJson raw ≠ some .null)
    (hobject : ∀ members, parseJson raw ≠ some (.object members)) :
    deserialize raw = .ok none := by
  unfold deserialize
  split
  case h_1 => rfl
  case h_2 hparse => exact absurd hparse hnull
  case h_3 members hparse => exact absurd hparse (hobject members)
  case h_4 => rfl

theorem deserialize_of_null {raw : List Char} (hnull : parseJson raw = some .null) :
    deserialize raw = .error .nullValue := by
  unfold deserialize
  rw [hnull]

theorem not_deserializesSoundly_of_null {raw : List Char} (hnull : parseJson raw = some .null) :
    ¬ DeserializesSoundly raw := by
  have hthrows := deserialize_of_null hnull
  rintro (hnone | ⟨credential, hcredential, -⟩)
  · rw [hthrows] at hnone
    cases hnone
  · rw [hthrows] at hcredential
    cases hcredential

/-- Which texts deserialize as they should: all but the value `null`, on which the call throws, and
the objects with a time that overflows. -/
theorem deserializesSoundly_iff (raw : List Char) :
    DeserializesSoundly raw ↔ parseJson raw ≠ some .null ∧ ¬ Overflows raw := by
  by_cases hnull : parseJson raw = some .null
  · exact iff_of_false (not_deserializesSoundly_of_null hnull) fun hboth ↦ hboth.1 hnull
  by_cases hobject : ∃ members, parseJson raw = some (.object members)
  · obtain ⟨members, hparse⟩ := hobject
    rw [deserializesSoundly_object_iff hparse]
    exact (and_iff_right hnull).symm
  · have hother := not_exists.mp hobject
    refine iff_of_true (Or.inl (deserialize_of_other hnull hother)) ⟨hnull, ?_⟩
    rintro ⟨members, serialized, hparse, -⟩
    exact hother members hparse

/-- The text `null` makes the call throw. -/
theorem not_deserializesSoundly_text : ¬ DeserializesSoundly ['n', 'u', 'l', 'l'] :=
  not_deserializesSoundly_of_null rfl

end OpfsWebauthn.Auth.CredentialStore
