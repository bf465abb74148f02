import OpfsWebauthn.Foundation.BitStrings
import OpfsWebauthn.Foundation.JsonText

/-!
# Base64

`btoa` and `atob` of the platform. A binary string, whose code units are bytes, stands here for
these bytes. `btoa` writes a digit for each group of six bits and fills the text up to a multiple
of four. `atob` drops white space and at most two units of padding; it refuses other units and a
length that no byte string has, and ignores the bits that do not fill a byte.

`atob_padded` says when `atob` accepts digits that were filled up, and `atob_btoa` is the round
trip, for byte strings of every length.
-/

set_option autoImplicit false
set_option relaxedAutoImplicit false

namespace OpfsWebauthn.Foundation

/-- The digits of base64, in the order of their values. -/
def base64Alphabet : JsString :=
  jsString "ABCDEFGHIJKLMNOPQRSTUVWXYZabcdefghijklmnopqrstuvwxyz0123456789+/"

/-- The unit that fills a text up. -/
def padUnit : UInt16 := 0x3d

/-- The digit of six bits. -/
def base64Digit (sextet : ℕ) : UInt16 :=
  base64Alphabet.getD sextet padUnit

/-- The digits of a byte string. -/
def base64Digits (bytes : List UInt8) : JsString :=
  (bitGroups 6 (byteBits bytes)).map fun group ↦ base64Digit (ofBits group)

/-- How many units fill a text of some length up. -/
def padCount (length : ℕ) : ℕ :=
  (4 - length % 4) % 4

/-- `btoa(binary)`. -/
def btoa (binary : List UInt8) : JsString :=
  let digits := base64Digits binary
  digits ++ List.replicate (padCount digits.length) padUnit

/-- White space in the sense of `atob`. -/
def isAsciiSpace (unit : UInt16) : Bool :=
  [0x09, 0x0a, 0x0c, 0x0d, 0x20].contains unit

/-- A text of full length without the padding at its end, at most two units. -/
def stripPadding (text : JsString) : JsString :=
  if text.length % 4 = 0 then
    text.take (text.length - min 2 (text.reverse.takeWhile fun unit ↦ unit = padUnit).length)
  else text

/-- The whole bytes of a bit string. -/
def wholeBytes (string : List Bool) : List UInt8 :=
  (firstGroups 8 string (string.length / 8)).map fun group ↦ UInt8.ofNat (ofBits group)

/-- `atob(text)`, or nothing when it throws. -/
def atob (text : JsString) : Option (List UInt8) :=
  let digits := stripPadding (text.filter fun unit ↦ !isAsciiSpace unit)
  if digits.length % 4 = 1 then none
  else if digits.all base64Alphabet.contains then
    some (wholeBytes (digits.flatMap fun unit ↦ bits 6 (base64Alphabet.idxOf unit)))
  else none

/-! ### Digits -/

/-- What is true of every digit is true of those of a byte string. -/
theorem forall_mem_base64Digits {property : UInt16 → Prop}
    (hdigits : ∀ sextet : Fin 64, property (base64Digit sextet)) (bytes : List UInt8) :
    ∀ unit ∈ base64Digits bytes, property unit := by
  intro unit hunit
  obtain ⟨group, hgroup, hdigit⟩ := List.mem_map.mp hunit
  have hlength : group.length = 6 := length_of_mem_firstGroups hgroup
  have hlt : ofBits group < 64 := by
    have hbound := ofBits_lt group
    rw [hlength] at hbound
    exact hbound
  rw [← hdigit]
  exact hdigits ⟨ofBits group, hlt⟩

/-- A digit has its value. -/
theorem idxOf_base64Digit : ∀ sextet : Fin 64,
    base64Alphabet.idxOf (base64Digit sextet) = sextet.val := by
  decide +kernel

theorem mem_base64Alphabet (bytes : List UInt8) :
    ∀ unit ∈ base64Digits bytes, unit ∈ base64Alphabet := by
  apply forall_mem_base64Digits
  decide +kernel

theorem length_base64Digits (bytes : List UInt8) :
    (base64Digits bytes).length = (bytes.length * 8 + 5) / 6 := by
  unfold base64Digits bitGroups firstGroups
  rw [List.length_map, List.length_map, List.length_range, length_byteBits]
  rfl

/-! ### The round trip -/

/-- The bits of the digits are those of the byte string, and fewer than six zeros. -/
theorem flatMap_base64Digits (bytes : List UInt8) :
    ∃ padding < 6, (base64Digits bytes).flatMap
        (fun unit ↦ bits 6 (base64Alphabet.idxOf unit)) =
      byteBits bytes ++ List.replicate padding false := by
  obtain ⟨padding, hpadding, hflatten⟩ := flatten_bitGroups (show 0 < 6 by omega) (byteBits bytes)
  refine ⟨padding, hpadding, ?_⟩
  rw [← hflatten, base64Digits, List.flatMap_map]
  have hgroups : ∀ group ∈ bitGroups 6 (byteBits bytes),
      bits 6 (base64Alphabet.idxOf (base64Digit (ofBits group))) = group := by
    intro group hgroup
    have hlength : group.length = 6 := length_of_mem_firstGroups hgroup
    have hlt : ofBits group < 64 := by
      have hbound := ofBits_lt group
      rw [hlength] at hbound
      exact hbound
    have hvalue : base64Alphabet.idxOf (base64Digit (ofBits group)) = ofBits group :=
      idxOf_base64Digit ⟨ofBits group, hlt⟩
    have hbits := bits_ofBits group
    rw [hlength] at hbits
    rw [hvalue, hbits]
  rw [List.flatMap_def, List.map_congr_left hgroups, List.map_id']

/-- The whole bytes of a byte string and a few more bits are the byte string. -/
theorem wholeBytes_byteBits (bytes : List UInt8) {padding : ℕ} (hpadding : padding < 8) :
    wholeBytes (byteBits bytes ++ List.replicate padding false) = bytes := by
  have hlength : (byteBits bytes ++ List.replicate padding false).length =
      bytes.length * 8 + padding := by
    rw [List.length_append, length_byteBits, List.length_replicate]
  have hcount : (bytes.length * 8 + padding) / 8 = bytes.length := by omega
  have hstring : (firstGroups 8 (byteBits bytes ++ List.replicate padding false)
      bytes.length).flatten = (bytes.map fun byte ↦ bits 8 byte.toNat).flatten := by
    rw [flatten_firstGroups (by omega)]
    have htake : (byteBits bytes ++ List.replicate padding false).take (bytes.length * 8) =
        byteBits bytes := by
      rw [← length_byteBits, List.take_left]
    rw [htake]
    rfl
  have hgroups : firstGroups 8 (byteBits bytes ++ List.replicate padding false) bytes.length =
      bytes.map fun byte ↦ bits 8 byte.toNat := by
    refine groups_unique ?_ (fun part ↦ length_of_mem_firstGroups) ?_ hstring
    · rw [firstGroups, List.length_map, List.length_range, List.length_map]
    · intro part hpart
      obtain ⟨byte, -, hbyte⟩ := List.mem_map.mp hpart
      rw [← hbyte, length_bits]
  unfold wholeBytes
  rw [hlength, hcount, hgroups, List.map_map]
  have hbytes : ∀ byte ∈ bytes, UInt8.ofNat (ofBits (bits 8 byte.toNat)) = byte := by
    intro byte _
    rw [ofBits_bits (UInt8.toNat_lt byte), UInt8.ofNat_toNat]
  show bytes.map (fun byte ↦ UInt8.ofNat (ofBits (bits 8 byte.toNat))) = bytes
  rw [List.map_congr_left hbytes, List.map_id']

/-- The padding is stripped from digits that were filled up. -/
theorem stripPadding_replicate {digits : JsString} (hdigits : ∀ unit ∈ digits, unit ≠ padUnit)
    (hcount : padCount digits.length ≤ 2) :
    stripPadding (digits ++ List.replicate (padCount digits.length) padUnit) = digits := by
  have hlength : (digits ++ List.replicate (padCount digits.length) padUnit).length =
      digits.length + padCount digits.length := by
    rw [List.length_append, List.length_replicate]
  have hfull : (digits.length + padCount digits.length) % 4 = 0 := by
    unfold padCount
    omega
  have hrest : digits.reverse.takeWhile (fun unit ↦ unit = padUnit) = [] := by
    cases hreverse : digits.reverse with
    | nil => rfl
    | cons unit rest =>
      have hunit : unit ≠ padUnit := by
        apply hdigits
        rw [← List.mem_reverse, hreverse]
        exact List.mem_cons_self
      exact List.takeWhile_cons_of_neg (by simpa using hunit)
  have hpads : ∀ unit ∈ List.replicate (padCount digits.length) padUnit,
      (decide (unit = padUnit)) = true := by
    intro unit hunit
    exact decide_eq_true (List.eq_of_mem_replicate hunit)
  unfold stripPadding
  rw [hlength, if_pos hfull, List.reverse_append, List.reverse_replicate,
    List.takeWhile_append_of_pos hpads, hrest, List.append_nil, List.length_replicate,
    Nat.min_eq_right hcount, Nat.add_sub_cancel, List.take_left]

/-- White space is no digit. -/
theorem not_isAsciiSpace_of_mem : ∀ unit ∈ base64Alphabet, isAsciiSpace unit = false := by
  have hall : base64Alphabet.all (fun unit ↦ !isAsciiSpace unit) = true := by decide +kernel
  intro unit hunit
  exact Bool.not_eq_true' _ ▸ List.all_eq_true.mp hall unit hunit

theorem padUnit_notMem : padUnit ∉ base64Alphabet := by
  decide +kernel

/-- Three units of padding are one too many. -/
theorem atob_eq_none_of_mem {text : JsString}
    (hmem : padUnit ∈ stripPadding (text.filter fun unit ↦ !isAsciiSpace unit)) :
    atob text = none := by
  have hdigits : ¬ (stripPadding (text.filter fun unit ↦ !isAsciiSpace unit)).all
      base64Alphabet.contains = true := by
    rw [List.all_eq_true]
    intro hall
    exact padUnit_notMem (List.contains_iff_mem.mp (hall padUnit hmem))
  unfold atob
  dsimp only
  rw [if_neg hdigits, ite_self]

/-- Digits that were filled up are read, unless their number is that of no byte string. -/
theorem atob_padded {digits : JsString} (hdigits : ∀ unit ∈ digits, unit ∈ base64Alphabet) :
    atob (digits ++ List.replicate (padCount digits.length) padUnit) =
      if digits.length % 4 = 1 then none
      else some (wholeBytes (digits.flatMap fun unit ↦ bits 6 (base64Alphabet.idxOf unit))) := by
  have hpad : ∀ unit ∈ digits, unit ≠ padUnit := by
    intro unit hunit hsame
    exact padUnit_notMem (hsame ▸ hdigits unit hunit)
  have hfilter : (digits ++ List.replicate (padCount digits.length) padUnit).filter
      (fun unit ↦ !isAsciiSpace unit) =
        digits ++ List.replicate (padCount digits.length) padUnit := by
    apply List.filter_eq_self.mpr
    intro unit hunit
    rcases List.mem_append.mp hunit with hdigit | hreplicate
    · rw [not_isAsciiSpace_of_mem unit (hdigits unit hdigit)]
      rfl
    · rw [List.eq_of_mem_replicate hreplicate]
      rfl
  by_cases hone : digits.length % 4 = 1
  · rw [if_pos hone]
    apply atob_eq_none_of_mem
    have hcount : padCount digits.length = 3 := by
      unfold padCount
      omega
    have hlength : (digits ++ List.replicate 3 padUnit).length = digits.length + 3 := by
      rw [List.length_append, List.length_replicate]
    have hkept : digits.length + 1 ≤ (digits ++ List.replicate 3 padUnit).length - min 2
        ((digits ++ List.replicate 3 padUnit).reverse.takeWhile
          fun unit ↦ unit = padUnit).length := by
      rw [hlength]
      omega
    rw [hfilter, hcount, stripPadding, hlength, if_pos (by omega), ← hlength]
    apply List.mem_of_getElem?
    · show _ = some padUnit
      rw [List.getElem?_take_of_lt hkept, List.getElem?_append_right (Nat.le_refl _),
        Nat.sub_self]
      rfl
  · have hcount : padCount digits.length ≤ 2 := by
      unfold padCount
      omega
    have hall : digits.all base64Alphabet.contains = true :=
      List.all_eq_true.mpr fun unit hunit ↦ List.contains_iff_mem.mpr (hdigits unit hunit)
    unfold atob
    dsimp only
    rw [hfilter, stripPadding_replicate hpad hcount, if_pos hall]

/-- `atob` reads back what `btoa` wrote. -/
theorem atob_btoa (bytes : List UInt8) : atob (btoa bytes) = some bytes := by
  have hlength : ¬ (base64Digits bytes).length % 4 = 1 := by
    rw [length_base64Digits]
    omega
  obtain ⟨padding, hpadding, hbits⟩ := flatMap_base64Digits bytes
  unfold btoa
  dsimp only
  rw [atob_padded (mem_base64Alphabet bytes), if_neg hlength, hbits,
    wholeBytes_byteBits bytes (by omega)]

end OpfsWebauthn.Foundation
