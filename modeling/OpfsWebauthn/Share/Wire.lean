import Mathlib.Algebra.GroupWithZero.Nat
import Mathlib.Data.String.Basic
import OpfsWebauthn.Storage.Rpc

/-!
# Errors, codes and wire formats of the share client

`errors.ts`, `code.ts`, `mint-response.ts` and the encoder of `blob.ts`. Every check of the source
throws a `ShareError` with its kind and its text, so the functions return `Except ShareError`.

`normalizeCode` is the only reader of what a human types. It upper-cases with the full mapping of
Unicode, under which some characters outside ASCII become ASCII letters. `upperCase` lists these;
every other character outside ASCII stays outside, and the pattern rejects it either way.
-/

set_option autoImplicit false
set_option relaxedAutoImplicit false

namespace OpfsWebauthn.Share

open Storage

/-! ### Errors -/

/-- `ShareErrorKind`. -/
inductive ShareErrorKind
  | network
  | rendezvousNotFound
  | rendezvousExpired
  | commitmentMismatch
  | blobAlreadyUploaded
  | blobUnavailable
  | rateLimited
  | originDenied
  | protocol
deriving DecidableEq, Repr

/-- `ShareError`. -/
structure ShareError where
  kind : ShareErrorKind
  message : String
  status : Option ℕ
deriving DecidableEq, Repr

/-- `new ShareError(kind, message)`. -/
def ShareError.of (kind : ShareErrorKind) (message : String) : ShareError :=
  ⟨kind, message, none⟩

/-- What the caller of `shareErrorForStatus` was doing. -/
inductive ErrorContext
  | fetchRendezvous
  | uploadBlob
  | downloadBlob
  | mint
deriving DecidableEq, Repr

/-- `shareErrorForStatus(status, context)`. -/
def shareErrorForStatus (status : ℕ) (context : ErrorContext) : ShareError :=
  match status with
  | 403 => ⟨.originDenied, "share backend rejected this origin", some status⟩
  | 404 =>
    if context = .downloadBlob then ⟨.blobUnavailable, "blob unavailable", some status⟩
    else ⟨.rendezvousNotFound, "no such rendezvous", some status⟩
  | 409 => ⟨.blobAlreadyUploaded, "a blob is already staged at this code", some status⟩
  | 410 => ⟨.rendezvousExpired, "rendezvous expired", some status⟩
  | 429 => ⟨.rateLimited, "share backend rate limit reached", some status⟩
  | _ => ⟨.protocol, "share backend returned " ++ toString status, some status⟩

/-! ### Lengths -/

/-- `PROTOCOL_VERSION`. -/
def protocolVersion : UInt8 := 1

/-- `CODE_LEN` and `COMMITMENT_CODE_LEN`. -/
def codeLen : ℕ := 12

/-- `X25519_PUBKEY_LEN`. -/
def x25519PubkeyLen : ℕ := 32

/-- `AES_GCM_NONCE_LEN`. -/
def aesGcmNonceLen : ℕ := 12

/-! ### Pickup codes -/

/-- The characters of the class `\s`. -/
def isSpace (ch : Char) : Bool :=
  (9 ≤ ch.toNat && ch.toNat ≤ 13) || ch.toNat = 0x20 || ch.toNat = 0xa0 || ch.toNat = 0x1680 ||
    (0x2000 ≤ ch.toNat && ch.toNat ≤ 0x200a) || ch.toNat = 0x2028 || ch.toNat = 0x2029 ||
    ch.toNat = 0x202f || ch.toNat = 0x205f || ch.toNat = 0x3000 || ch.toNat = 0xfeff

/-- The characters that `normalizeCode` drops. -/
def isSeparator (ch : Char) : Bool :=
  isSpace ch || ch = '-'

/-- `toUpperCase()` on one character, as far as the result is in ASCII. -/
def upperCase (ch : Char) : List Char :=
  match ch.toNat with
  | 0xdf => ['S', 'S']
  | 0x131 => ['I']
  | 0x17f => ['S']
  | 0xfb00 => ['F', 'F']
  | 0xfb01 => ['F', 'I']
  | 0xfb02 => ['F', 'L']
  | 0xfb03 => ['F', 'F', 'I']
  | 0xfb04 => ['F', 'F', 'L']
  | 0xfb05 => ['S', 'T']
  | 0xfb06 => ['S', 'T']
  | _ => [ch.toUpper]

/-- The characters that `CODE_PATTERN` admits. -/
def isCodeChar (ch : Char) : Bool :=
  ch.isDigit || ch.isUpper

/-- `normalizeCode(raw)`. -/
def normalizeCode (raw : String) : Option String :=
  let cleaned := (raw.toList.filter fun ch ↦ !isSeparator ch).flatMap upperCase
  if cleaned.length = codeLen ∧ cleaned.all isCodeChar then some (String.ofList cleaned) else none

/-- The groups of `size` characters that a text is cut into. -/
def groups (size : ℕ) : List Char → ℕ → List (List Char)
  | [], _ => []
  | _, 0 => []
  | chars, fuel + 1 => chars.take size :: groups size (chars.drop size) fuel

/-- `formatCodeForDisplay(code)` of `format-code.ts`. -/
def formatCodeForDisplay (code : String) : String :=
  String.ofList (List.intercalate ['-'] (groups 4 code.toList code.toList.length))

/-- What a person types for a text that is shown: its characters in their order, each in either
letter case, with separators left out and added anywhere. -/
inductive Transcribes : List Char → List Char → Prop
  | nil : Transcribes [] []
  | omitted {ch : Char} {shown typed : List Char} (hseparator : isSeparator ch = true)
      (hrest : Transcribes shown typed) : Transcribes (ch :: shown) typed
  | added {ch : Char} {shown typed : List Char} (hseparator : isSeparator ch = true)
      (hrest : Transcribes shown typed) : Transcribes shown (ch :: typed)
  | typed {ch other : Char} {shown typed : List Char}
      (hcase : other = ch ∨ other = ch.toLower ∨ other = ch.toUpper)
      (hrest : Transcribes shown typed) : Transcribes (ch :: shown) (other :: typed)

/-! ### The mint response -/

/-- `MINT_RESPONSE_LEN`. -/
def mintResponseLen : ℕ := 1 + 8 + codeLen

/-- `MintResponseParts`. -/
structure MintResponseParts where
  code : String
  expiresAt : ℕ
deriving DecidableEq, Repr

/-- A big-endian unsigned number. -/
def bigEndian (bytes : Bytes) : ℕ :=
  bytes.foldl (fun number byte ↦ 256 * number + byte.toNat) 0

/-- The first byte outside ASCII, with its offset. -/
def nonAscii? (bytes : Bytes) (offset : ℕ) : Option (ℕ × UInt8) :=
  match bytes with
  | [] => none
  | byte :: rest => if byte > 0x7f then some (offset, byte) else nonAscii? rest (offset + 1)

/-- `decodeMintResponse(bytes)`. -/
def decodeMintResponse (bytes : Bytes) : Except ShareError MintResponseParts :=
  if bytes.length ≠ mintResponseLen then
    .error (.of .protocol ("mint response must be exactly " ++ toString mintResponseLen ++
      " bytes, got " ++ toString bytes.length))
  else if bytes.getD 0 0 ≠ protocolVersion then
    .error (.of .protocol ("unknown mint-response version " ++ toString (bytes.getD 0 0) ++
      ", expected " ++ toString protocolVersion))
  else
    let hi := bigEndian ((bytes.drop 1).take 4)
    let lo := bigEndian ((bytes.drop 5).take 4)
    if hi > 0x1fffff then
      .error (.of .protocol "mint response expiresAt exceeds Number.MAX_SAFE_INTEGER")
    else
      match nonAscii? (bytes.drop 9) 9 with
      | some (offset, byte) =>
        .error (.of .protocol ("mint response code byte at offset " ++ toString offset ++
          " is non-ASCII: 0x" ++ String.ofList (Nat.toDigits 16 byte.toNat)))
      | none =>
        .ok ⟨String.ofList ((bytes.drop 9).map fun byte ↦ Char.ofNat byte.toNat),
          hi * 0x100000000 + lo⟩

/-! ### The share blob -/

/-- `ShareBlobParts`. -/
structure ShareBlobParts where
  senderPubkey : Bytes
  nonce : Bytes
  ciphertext : Bytes
deriving DecidableEq, Repr

/-- `encodeShareBlob(parts)`. -/
def encodeShareBlob (parts : ShareBlobParts) : Except ShareError Bytes :=
  if parts.senderPubkey.length ≠ x25519PubkeyLen then
    .error (.of .protocol ("senderPubkey must be " ++ toString x25519PubkeyLen ++ " bytes"))
  else if parts.nonce.length ≠ aesGcmNonceLen then
    .error (.of .protocol ("nonce must be " ++ toString aesGcmNonceLen ++ " bytes"))
  else .ok (protocolVersion :: (parts.senderPubkey ++ parts.nonce ++ parts.ciphertext))

/-! ### What normalization yields -/

/-- The length of a text in UTF-8, which is the `len()` of a Rust string. -/
def utf8Length (text : String) : ℕ :=
  (text.toList.map Char.utf8Size).sum

/-- The admitted characters are in ASCII. -/
theorem val_le_of_isCodeChar {ch : Char} (hchar : isCodeChar ch = true) : ch.val ≤ 0x7f := by
  rw [isCodeChar, Bool.or_eq_true] at hchar
  rcases hchar with hdigit | hupper
  · simp only [Char.isDigit, Bool.and_eq_true, decide_eq_true_eq] at hdigit
    exact Nat.le_trans hdigit.2 (by decide)
  · have hrange : ch.val ≥ 'A'.val ∧ ch.val ≤ 'Z'.val := of_decide_eq_true hupper
    exact Nat.le_trans hrange.2 (by decide)

/-- The admitted characters take one byte. -/
theorem utf8Size_of_isCodeChar {ch : Char} (hchar : isCodeChar ch = true) : ch.utf8Size = 1 := by
  rw [Char.utf8Size]
  exact if_pos (val_le_of_isCodeChar hchar)

/-- A text of admitted characters has as many bytes as characters. -/
theorem utf8Length_of_isCodeChar {chars : List Char} (hchars : chars.all isCodeChar = true) :
    utf8Length (String.ofList chars) = chars.length := by
  rw [utf8Length, String.toList_ofList]
  induction chars with
  | nil => rfl
  | cons ch rest ih =>
    rw [List.all_cons, Bool.and_eq_true] at hchars
    rw [List.map_cons, List.sum_cons, utf8Size_of_isCodeChar hchars.1, ih hchars.2,
      List.length_cons, Nat.add_comm]

/-- A normalized code has twelve bytes. -/
theorem utf8Length_of_normalizeCode {raw code : String} (hcode : normalizeCode raw = some code) :
    utf8Length code = codeLen := by
  unfold normalizeCode at hcode
  dsimp only at hcode
  split_ifs at hcode with hpattern
  obtain rfl := Option.some.inj hcode
  rw [utf8Length_of_isCodeChar hpattern.2, hpattern.1]

/-- Cutting a text into groups loses nothing. -/
theorem flatten_groups {size : ℕ} (hsize : 0 < size) (chars : List Char) {fuel : ℕ}
    (hfuel : chars.length ≤ fuel) : (groups size chars fuel).flatten = chars := by
  induction fuel generalizing chars with
  | zero =>
    obtain rfl := List.length_eq_zero_iff.mp (Nat.le_zero.mp hfuel)
    rfl
  | succ fuel ih =>
    cases chars with
    | nil => rfl
    | cons ch rest =>
      have hrest : ((ch :: rest).drop size).length ≤ fuel := by
        rw [List.length_cons] at hfuel
        rw [List.length_drop, List.length_cons]
        omega
      have hunfold : groups size (ch :: rest) (fuel + 1) =
          (ch :: rest).take size :: groups size ((ch :: rest).drop size) fuel := rfl
      rw [hunfold, List.flatten_cons, ih _ hrest, List.take_append_drop]

/-- A filter that drops the separator does not see it between the groups. -/
theorem filter_intercalate {keep : Char → Bool} {separator : Char}
    (hseparator : keep separator = false) (parts : List (List Char)) :
    (List.intercalate [separator] parts).filter keep = parts.flatten.filter keep := by
  induction parts with
  | nil => rfl
  | cons first rest ih =>
    cases rest with
    | nil => simp [List.intercalate]
    | cons second others =>
      have hunfold : List.intercalate [separator] (first :: second :: others) =
          first ++ separator :: List.intercalate [separator] (second :: others) := by
        simp [List.intercalate]
      have hskip : (separator :: List.intercalate [separator] (second :: others)).filter keep =
          (second :: others).flatten.filter keep := by
        rw [List.filter_cons_of_neg (by simp [hseparator]), ih]
      rw [hunfold, List.filter_append, hskip, ← List.filter_append]
      rfl

/-- Displaying a code does not change what it is normalized to. -/
theorem normalizeCode_formatCodeForDisplay (code : String) :
    normalizeCode (formatCodeForDisplay code) = normalizeCode code := by
  have hdash : (fun ch ↦ !isSeparator ch) '-' = false := by decide
  unfold normalizeCode formatCodeForDisplay
  rw [String.toList_ofList, filter_intercalate hdash, flatten_groups (by decide) _ (Nat.le_refl _)]

/-! ### What a person types -/

/-- Below 128 the letter case of a character changes neither its upper case nor whether it is a
separator, and an admitted character is its own upper case and no separator. -/
theorem letterCase_ascii : ∀ number < 128,
    (∀ other ∈ [(Char.ofNat number).toLower, (Char.ofNat number).toUpper],
      upperCase other = upperCase (Char.ofNat number) ∧
        isSeparator other = isSeparator (Char.ofNat number)) ∧
    (isCodeChar (Char.ofNat number) = true → isSeparator (Char.ofNat number) = false ∧
      upperCase (Char.ofNat number) = [Char.ofNat number]) := by
  -- only the two characters are left to check
  simp only [List.mem_cons, List.not_mem_nil, or_false, forall_eq_or_imp, forall_eq]
  decide +kernel

/-- From 128 on there is no letter case. -/
theorem toLower_toUpper_of_large {ch : Char} (hlarge : 128 ≤ ch.toNat) :
    ch.toLower = ch ∧ ch.toUpper = ch := by
  have hval : ch.val.toNat = ch.toNat := rfl
  have hupper : ¬ (ch.val ≥ 'A'.val ∧ ch.val ≤ 'Z'.val) := by
    rintro ⟨-, hle⟩
    have hnat : ch.val.toNat ≤ 90 := hle
    omega
  have hlower : ¬ (ch.val ≥ 'a'.val ∧ ch.val ≤ 'z'.val) := by
    rintro ⟨-, hle⟩
    have hnat : ch.val.toNat ≤ 122 := hle
    omega
  exact ⟨dif_neg hupper, dif_neg hlower⟩

/-- The letter case of a character does not matter to `normalizeCode`. -/
theorem upperCase_of_letterCase {ch other : Char}
    (hcase : other = ch ∨ other = ch.toLower ∨ other = ch.toUpper) :
    upperCase other = upperCase ch ∧ isSeparator other = isSeparator ch := by
  by_cases hsmall : ch.toNat < 128
  · have hall := (letterCase_ascii ch.toNat hsmall).1
    rw [Char.ofNat_toNat] at hall
    rcases hcase with rfl | hlower | hupper
    · exact ⟨rfl, rfl⟩
    · exact hall other (by simp [hlower])
    · exact hall other (by simp [hupper])
  · obtain ⟨hlower, hupper⟩ := toLower_toUpper_of_large (Nat.le_of_not_lt hsmall)
    rw [hlower, hupper, or_self, or_self] at hcase
    rw [hcase]
    exact ⟨rfl, rfl⟩

/-- What a person types is normalized to the same code as the text that is shown. -/
theorem normalizeCode_of_transcribes {shown typed : String}
    (htranscribes : Transcribes shown.toList typed.toList) :
    normalizeCode typed = normalizeCode shown := by
  have hcleaned : ∀ {shown typed : List Char}, Transcribes shown typed →
      (typed.filter fun ch ↦ !isSeparator ch).flatMap upperCase =
        (shown.filter fun ch ↦ !isSeparator ch).flatMap upperCase := by
    intro shown typed htranscribes
    induction htranscribes with
    | nil => rfl
    | omitted hseparator _ ih => rw [ih, List.filter_cons_of_neg (by simp [hseparator])]
    | added hseparator _ ih => rw [List.filter_cons_of_neg (by simp [hseparator]), ih]
    | @typed ch other shown typed hcase _ ih =>
      obtain ⟨hupper, hsame⟩ := upperCase_of_letterCase hcase
      by_cases hseparator : isSeparator ch = true
      · rw [List.filter_cons_of_neg (by simp [hsame, hseparator]), ih,
          List.filter_cons_of_neg (by simp [hseparator])]
      · rw [List.filter_cons_of_pos (by simp [hsame, hseparator]), List.flatMap_cons, hupper, ih,
          List.filter_cons_of_pos (by simp [hseparator]), List.flatMap_cons]
  unfold normalizeCode
  rw [hcleaned htranscribes]

/-- A code of twelve admitted characters is its own normal form. -/
theorem normalizeCode_eq_self {chars : List Char} (hlength : chars.length = codeLen)
    (hchars : chars.all isCodeChar = true) :
    normalizeCode (String.ofList chars) = some (String.ofList chars) := by
  have hown : ∀ ch ∈ chars, isSeparator ch = false ∧ upperCase ch = [ch] := by
    intro ch hch
    have hcode := List.all_eq_true.mp hchars ch hch
    have hsmall : ch.toNat ≤ 127 := val_le_of_isCodeChar hcode
    have hascii := (letterCase_ascii ch.toNat (Nat.lt_succ_of_le hsmall)).2
    rw [Char.ofNat_toNat] at hascii
    exact hascii hcode
  have hfilter : (chars.filter fun ch ↦ !isSeparator ch) = chars :=
    List.filter_eq_self.mpr fun ch hch ↦ by rw [(hown ch hch).1]; rfl
  have hupper : chars.flatMap upperCase = chars := by
    have hsingle : chars.flatMap upperCase = chars.flatMap fun ch ↦ [ch] :=
      List.flatMap_congr fun ch hch ↦ (hown ch hch).2
    rw [hsingle, List.flatMap_singleton']
  unfold normalizeCode
  rw [String.toList_ofList, hfilter, hupper]
  exact if_pos ⟨hlength, hchars⟩

end OpfsWebauthn.Share
