import OpfsWebauthn.Backend.Handlers
import OpfsWebauthn.Foundation.Numbers
import OpfsWebauthn.Share.Receive

/-!
# The two encoders of the mint response

`encodeMintResponse` of `mint-response.ts` next to the encoder of the backend. It writes a number in
two words of 32 bits: the floor of its quotient by `2 ^ 32`, and its low word. `setUint32` reduces
both modulo `2 ^ 32`, so the two words are the number modulo `2 ^ 64` (`encodeMintResponse_spec`),
as the eight bytes of the backend are. The decoder refuses what exceeds `Number.MAX_SAFE_INTEGER`;
it cannot see what the encoder has cut off.
-/

set_option autoImplicit false
set_option relaxedAutoImplicit false

namespace OpfsWebauthn.Share

open Foundation Storage Crypto

/-- `view.setUint32(offset, value, false)`: the four bytes that are written. -/
def setUint32 (value : Number) : Bytes :=
  bytesOf 4 value.toUint32

/-- The first code unit outside ASCII, with its index. -/
def nonAsciiUnit? (code : JsString) (index : ℕ) : Option (ℕ × UInt16) :=
  match code with
  | [] => none
  | unit :: rest => if unit > 0x7f then some (index, unit) else nonAsciiUnit? rest (index + 1)

/-- `encodeMintResponse(parts)`. The message about a number leaves out the number. -/
def encodeMintResponse (code : JsString) (expiresAt : Number) : Except ShareError Bytes :=
  if code.length ≠ codeLen then
    .error (.of .protocol ("code must be " ++ toString codeLen ++ " chars, got " ++
      toString code.length))
  else if !expiresAt.isInteger || !expiresAt.isNonNegative then
    .error (.of .protocol "expiresAt must be a non-negative integer")
  else
    match nonAsciiUnit? code 0 with
    | some (index, unit) =>
      .error (.of .protocol ("code must be ASCII; saw codepoint " ++ toString unit.toNat ++
        " at index " ++ toString index))
    | none =>
      .ok (protocolVersion :: (setUint32 (expiresAt.div (2 ^ 32)).floor ++ setUint32 expiresAt ++
        code.map UInt16.toUInt8))

/-! ### Words of a number -/

/-- The high bytes and the low bytes of a number. -/
theorem bytesOf_add (high low number : ℕ) :
    bytesOf (high + low) number = bytesOf high (number / 256 ^ low) ++ bytesOf low number := by
  induction high with
  | zero => simp [bytesOf]
  | succ high ih =>
    have hstep : ∀ length value, bytesOf (length + 1) value =
        UInt8.ofNat (value / 256 ^ length % 256) :: bytesOf length value := by
      intro length value
      simp [bytesOf, List.range_succ]
    have hfirst : number / 256 ^ (high + low) = number / 256 ^ low / 256 ^ high := by
      rw [Nat.div_div_eq_div_mul, ← Nat.pow_add, Nat.add_comm low high]
    rw [Nat.add_right_comm, hstep, hstep, ih, hfirst, List.cons_append]

/-- The low bytes of a number are those of its remainder. -/
theorem bytesOf_mod (length number : ℕ) :
    bytesOf length (number % 256 ^ length) = bytesOf length number := by
  unfold bytesOf
  refine List.map_congr_left fun position hposition ↦ ?_
  have hlt : position < length := List.mem_range.mp (List.mem_reverse.mp hposition)
  have hsplit : 256 ^ length = 256 ^ position * 256 ^ (length - position) := by
    rw [← Nat.pow_add, Nat.add_sub_cancel' (Nat.le_of_lt hlt)]
  have hdvd : 256 ∣ 256 ^ (length - position) := dvd_pow_self 256 (by omega)
  rw [hsplit, Nat.mod_mul_right_div_self, Nat.mod_mod_of_dvd _ hdvd]

/-- The two words of a natural number are its eight bytes. -/
theorem setUint32_words (number : ℕ) :
    setUint32 (Number.div (.finite number) (2 ^ 32)).floor ++ setUint32 (.finite number) =
      bytesOf 8 number := by
  have hfloor : (Number.div (.finite number) (2 ^ 32)).floor =
      .finite (number / 2 ^ 32 : ℕ) := by
    have hword := floor_div_natCast number (2 ^ 32)
    rwa [Nat.cast_pow, Nat.cast_ofNat] at hword
  have hmod : ∀ value : ℕ, bytesOf 4 (value % 2 ^ 32) = bytesOf 4 value := bytesOf_mod 4
  unfold setUint32
  rw [hfloor, toUint32_natCast, toUint32_natCast, hmod, hmod]
  exact (bytesOf_add 4 4 number).symm

/-! ### What the encoder of the page writes -/

/-- Code units in ASCII have none outside. -/
theorem nonAsciiUnit?_eq_none_iff {code : JsString} {index : ℕ} :
    nonAsciiUnit? code index = none ↔ ∀ unit ∈ code, unit.toNat ≤ 0x7f := by
  induction code generalizing index with
  | nil => exact ⟨fun _ unit hunit ↦ absurd hunit List.not_mem_nil, fun _ ↦ rfl⟩
  | cons unit rest ih =>
    rw [List.forall_mem_cons, nonAsciiUnit?]
    by_cases hlarge : unit > 0x7f
    · rw [if_pos hlarge]
      have hnat : 0x7f < unit.toNat := hlarge
      constructor
      · intro hnone
        cases hnone
      · intro hsmall
        exact absurd hsmall.1 (Nat.not_le.mpr hnat)
    · rw [if_neg hlarge, ih]
      have hnat : unit.toNat ≤ 0x7f := Nat.not_lt.mp hlarge
      exact ⟨fun hrest ↦ ⟨hnat, hrest⟩, And.right⟩

/-- What is accepted is a code of twelve code units in ASCII and a natural number, and the frame
holds the eight low bytes of the number. -/
theorem encodeMintResponse_eq_ok_iff {code : JsString} {expiresAt : Number} {bytes : Bytes} :
    encodeMintResponse code expiresAt = .ok bytes ↔
      code.length = codeLen ∧ (∀ unit ∈ code, unit.toNat ≤ 0x7f) ∧ ∃ number : ℕ,
        expiresAt = .finite number ∧
        bytes = protocolVersion :: (bytesOf 8 number ++ code.map UInt16.toUInt8) := by
  unfold encodeMintResponse
  constructor
  · intro hencode
    split_ifs at hencode with hlength hnumber
    split at hencode
    · cases hencode
    · next hascii =>
      rw [Bool.or_eq_true, not_or, Bool.not_eq_true', Bool.not_eq_true', Bool.not_eq_false,
        Bool.not_eq_false] at hnumber
      obtain ⟨number, rfl⟩ := exists_natCast hnumber.1 hnumber.2
      refine ⟨not_not.mp hlength, nonAsciiUnit?_eq_none_iff.mp hascii, number, rfl, ?_⟩
      rw [← Except.ok.inj hencode, setUint32_words]
  · rintro ⟨hlength, hascii, number, rfl, rfl⟩
    rw [if_neg (not_not.mpr hlength), isInteger_natCast, isNonNegative_natCast,
      nonAsciiUnit?_eq_none_iff.mpr hascii, ← setUint32_words]
    rfl

/-- The bytes of code units in ASCII are in ASCII, and are read as the code units. -/
theorem ascii_units {code : JsString} (hascii : ∀ unit ∈ code, unit.toNat ≤ 0x7f) :
    (∀ byte ∈ code.map UInt16.toUInt8, byte.toNat ≤ 0x7f) ∧
      jsString (String.ofList ((code.map UInt16.toUInt8).map fun byte ↦ Char.ofNat byte.toNat)) =
        code := by
  have hbyte : ∀ unit ∈ code, unit.toUInt8.toNat = unit.toNat := by
    intro unit hunit
    have hsmall := hascii unit hunit
    rw [UInt16.toNat_toUInt8]
    omega
  constructor
  · intro byte hmem
    obtain ⟨unit, hunit, rfl⟩ := List.mem_map.mp hmem
    rw [hbyte unit hunit]
    exact hascii unit hunit
  · have hunits : ∀ number ≤ 0x7f, codeUnits (Char.ofNat number) = [UInt16.ofNat number] := by
      decide +kernel
    unfold jsString
    rw [String.toList_ofList, List.map_map, List.flatMap_map]
    refine (List.flatMap_congr (g := fun unit ↦ [unit]) fun unit hunit ↦ ?_).trans (by simp)
    change codeUnits (Char.ofNat unit.toUInt8.toNat) = [unit]
    rw [hbyte unit hunit, hunits _ (hascii unit hunit), UInt16.ofNat_toNat]

/-! ### The three implementations -/

/-- A decoder's answer that is no success, or is exactly what was encoded. -/
def DecodesTo (bytes : Bytes) (code : JsString) (expiresAt : ℕ) : Prop :=
  ∀ parts, decodeMintResponse bytes = .ok parts →
    jsString parts.code = code ∧ parts.expiresAt = expiresAt

/-- The frame that the page writes is refused or decoded to what was encoded exactly when the number
has 64 bits or its low 64 bits exceed `Number.MAX_SAFE_INTEGER`. -/
theorem decodesTo_iff {code : JsString} (hlength : code.length = codeLen)
    (hascii : ∀ unit ∈ code, unit.toNat ≤ 0x7f) (number : ℕ) :
    DecodesTo (protocolVersion :: (bytesOf 8 number ++ code.map UInt16.toUInt8)) code number ↔
      number < 2 ^ 64 ∨ 2 ^ 53 ≤ number % 2 ^ 64 := by
  obtain ⟨hbytes, hback⟩ := ascii_units hascii
  have hcode : (code.map UInt16.toUInt8).length = codeLen := by rw [List.length_map, hlength]
  unfold DecodesTo
  rw [decodeMintResponse_frame number hcode hbytes]
  by_cases hlarge : 2 ^ 53 ≤ number % 2 ^ 64
  · rw [if_pos hlarge]
    exact ⟨fun _ ↦ .inr hlarge, fun _ parts hparts ↦ (by cases hparts)⟩
  · rw [if_neg hlarge]
    constructor
    · intro hdecodes
      have hsame : number % 2 ^ 64 = number := (hdecodes _ rfl).2
      have hlt := Nat.mod_lt number (Nat.two_pow_pos 64)
      exact .inl (by omega)
    · intro hnumber parts hparts
      obtain rfl := Except.ok.inj hparts
      refine ⟨hback, Nat.mod_eq_of_lt ?_⟩
      rcases hnumber with hsmall | hhuge
      · exact hsmall
      · exact absurd hhuge hlarge

/-- A code in ASCII is written as its bytes, and its code units are those bytes. -/
theorem units_of_ascii {chars : List Char} (hchars : ∀ ch ∈ chars, ch.val ≤ 0x7f) :
    (jsString (String.ofList chars)).map UInt16.toUInt8 = utf8 (String.ofList chars) ∧
      (jsString (String.ofList chars)).length = chars.length ∧
      ∀ unit ∈ jsString (String.ofList chars), unit.toNat ≤ 0x7f := by
  have hunits : jsString (String.ofList chars) = chars.map fun ch ↦ UInt16.ofNat ch.toNat := by
    unfold jsString
    rw [String.toList_ofList, List.map_eq_flatMap]
    refine List.flatMap_congr fun ch hch ↦ ?_
    have hsmall : ch.toNat ≤ 0x7f := hchars ch hch
    exact if_pos (by omega)
  rw [hunits, utf8_of_ascii hchars, List.map_map, List.length_map]
  refine ⟨?_, rfl, ?_⟩
  · refine List.map_congr_left fun ch hch ↦ ?_
    have hsmall : ch.toNat ≤ 0x7f := hchars ch hch
    apply UInt8.toNat_inj.mp
    change (UInt16.ofNat ch.toNat).toUInt8.toNat = (UInt8.ofNat ch.toNat).toNat
    rw [UInt16.toNat_toUInt8, UInt16.toNat_ofNat', UInt8.toNat_ofNat']
    omega
  · intro unit hunit
    obtain ⟨ch, hch, rfl⟩ := List.mem_map.mp hunit
    have hsmall : ch.toNat ≤ 0x7f := hchars ch hch
    rw [UInt16.toNat_ofNat']
    omega

/-- Up to `Number.MAX_SAFE_INTEGER` both encoders write the same 21 bytes, which are decoded to what
was encoded; beyond it the decoder refuses the bytes of the backend. What the page's encoder accepts
is refused or decoded to what was encoded exactly when the number has 64 bits or its low 64 bits
exceed `Number.MAX_SAFE_INTEGER`. -/
theorem mintResponse_codecs (chars : List Char) (seconds : ℕ) (code : JsString)
    (expiresAt : Number) (bytes : Bytes) :
    (chars.length = codeLen → (∀ ch ∈ chars, ch.val ≤ 0x7f) → seconds < 2 ^ 64 →
      (seconds < 2 ^ 53 →
        encodeMintResponse (jsString (String.ofList chars)) (.finite seconds) =
          .ok (Backend.encodeMintResponse (String.ofList chars) seconds) ∧
        (Backend.encodeMintResponse (String.ofList chars) seconds).length = mintResponseLen ∧
        decodeMintResponse (Backend.encodeMintResponse (String.ofList chars) seconds) =
          .ok ⟨String.ofList chars, seconds⟩) ∧
      (2 ^ 53 ≤ seconds → ∃ cause,
        decodeMintResponse (Backend.encodeMintResponse (String.ofList chars) seconds) =
          .error cause)) ∧
    (encodeMintResponse code expiresAt = .ok bytes → ∃ number : ℕ, expiresAt = .finite number ∧
      (DecodesTo bytes code number ↔ number < 2 ^ 64 ∨ 2 ^ 53 ≤ number % 2 ^ 64)) := by
  constructor
  · intro hlength hchars hexpires
    have hdecode : decodeMintResponse (Backend.encodeMintResponse (String.ofList chars) seconds) =
        _ := decodeMintResponse_text hlength hchars hexpires
    obtain ⟨hbytes, hcount, hascii⟩ := units_of_ascii hchars
    refine ⟨fun hsafe ↦ ⟨?_, ?_, ?_⟩, fun hunsafe ↦ ?_⟩
    · apply encodeMintResponse_eq_ok_iff.mpr
      refine ⟨hcount.trans hlength, hascii, seconds, rfl, ?_⟩
      rw [hbytes]
      rfl
    · unfold Backend.encodeMintResponse
      have height : (bytesOf 8 seconds).length = 8 := by simp [bytesOf]
      rw [List.length_cons, List.length_append, height, ← hbytes, List.length_map, hcount, hlength]
      rfl
    · rw [hdecode, if_neg (Nat.not_le.mpr hsafe)]
    · rw [hdecode, if_pos hunsafe]
      exact ⟨_, rfl⟩
  · intro hencode
    obtain ⟨hlength, hascii, number, rfl, rfl⟩ := encodeMintResponse_eq_ok_iff.mp hencode
    exact ⟨number, rfl, decodesTo_iff hlength hascii number⟩

/-- The double `2 ^ 64` is encoded as zero, and decoded as zero. -/
theorem decoded_zero : ∃ bytes,
    Number.ofNat (2 ^ 64) = .finite (2 ^ 64 : ℕ) ∧
    encodeMintResponse (jsString "JCAEZF2HWP7K") (.finite (2 ^ 64 : ℕ)) = .ok bytes ∧
    decodeMintResponse bytes = .ok ⟨"JCAEZF2HWP7K", 0⟩ ∧
    ¬ DecodesTo bytes (jsString "JCAEZF2HWP7K") (2 ^ 64) := by
  have hdecoded : decodeMintResponse (protocolVersion ::
      (bytesOf 8 (2 ^ 64) ++ (jsString "JCAEZF2HWP7K").map UInt16.toUInt8)) =
        .ok ⟨"JCAEZF2HWP7K", 0⟩ := by
    decide +kernel
  have hascii : (jsString "JCAEZF2HWP7K").all (fun unit ↦ unit.toNat ≤ 0x7f) = true := by
    decide +kernel
  refine ⟨_, by decide +kernel, ?_, hdecoded, fun hdecodes ↦ ?_⟩
  · apply encodeMintResponse_eq_ok_iff.mpr
    exact ⟨by decide +kernel, by simpa using hascii, 2 ^ 64, rfl, rfl⟩
  · have hsame := (hdecodes _ hdecoded).2
    exact absurd hsame (by decide)

end OpfsWebauthn.Share
