import Mathlib.Algebra.Group.Nat.Defs
import Mathlib.Data.Nat.Bits

/-!
# Bit strings and their groups

The bits of a number, most significant first, and the groups of equal width into which a bit string
falls, the last one padded with zeros. The base-`2 ^ n` encoders of byte strings write a digit for
each group.

`ofBits_bits` and `bits_ofBits` say that the bits of a number determine it. `flatten_firstGroups`
says that whole groups are the front of the string, and `groups_unique` that a string falls into
groups in one way; with these a decoder is a regrouping of the string that an encoder read.
-/

set_option autoImplicit false
set_option relaxedAutoImplicit false

namespace OpfsWebauthn.Foundation

/-! ### The bits of a number -/

/-- The `width` low bits of a number, most significant first. -/
def bits : ℕ → ℕ → List Bool
  | 0, _ => []
  | width + 1, value => value.testBit width :: bits width value

/-- The number of a bit string, most significant bit first. -/
def ofBits : List Bool → ℕ
  | [] => 0
  | bit :: rest => 2 ^ rest.length * bit.toNat + ofBits rest

@[simp] theorem length_bits (width value : ℕ) : (bits width value).length = width := by
  induction width with
  | zero => rfl
  | succ width ih => rw [bits, List.length_cons, ih]

theorem ofBits_lt (string : List Bool) : ofBits string < 2 ^ string.length := by
  induction string with
  | nil => exact Nat.one_pos
  | cons bit rest ih =>
    have hbit := Bool.toNat_le bit
    have hhigh : 2 ^ rest.length * bit.toNat ≤ 2 ^ rest.length * 1 :=
      Nat.mul_le_mul_left _ hbit
    rw [ofBits, List.length_cons, Nat.pow_succ]
    omega

/-- The low bits do not see what is added above them. -/
theorem bits_add_mul {width low : ℕ} (size high : ℕ) (hwidth : width ≤ size)
    (hlow : low < 2 ^ size) :
    bits width (2 ^ size * high + low) = bits width low := by
  induction width with
  | zero => rfl
  | succ width ih =>
    rw [bits, bits, ih (by omega), Nat.testBit_two_pow_mul_add high hlow, if_pos (by omega)]

/-- A bit string is the bits of its number. -/
theorem bits_ofBits (string : List Bool) : bits string.length (ofBits string) = string := by
  induction string with
  | nil => rfl
  | cons bit rest ih =>
    have hrest := ofBits_lt rest
    have hbit : bit.toNat.testBit 0 = bit := by cases bit <;> rfl
    rw [ofBits, List.length_cons, bits, Nat.testBit_two_pow_mul_add _ hrest,
      if_neg (Nat.lt_irrefl _), Nat.sub_self, hbit, bits_add_mul _ _ (Nat.le_refl _) hrest, ih]

/-- Bit strings of one length are determined by their number. -/
theorem ofBits_inj {first second : List Bool} (hlength : first.length = second.length)
    (hnumber : ofBits first = ofBits second) : first = second := by
  rw [← bits_ofBits first, ← bits_ofBits second, hlength, hnumber]

/-- A number below the bound is the number of its bits. -/
theorem ofBits_bits {width value : ℕ} (hvalue : value < 2 ^ width) :
    ofBits (bits width value) = value := by
  induction width generalizing value with
  | zero =>
    rw [Nat.pow_zero] at hvalue
    rw [bits, ofBits]
    omega
  | succ width ih =>
    have hsplit : 2 ^ width * (value / 2 ^ width) + value % 2 ^ width = value :=
      Nat.div_add_mod value (2 ^ width)
    have hlow : value % 2 ^ width < 2 ^ width := Nat.mod_lt _ (Nat.two_pow_pos width)
    have hhigh : value / 2 ^ width < 2 := by
      rw [Nat.pow_succ] at hvalue
      exact Nat.div_lt_of_lt_mul hvalue
    have hbit : (value.testBit width).toNat = value / 2 ^ width := by
      rw [Nat.testBit_eq_decide_div_mod_eq, Nat.mod_eq_of_lt hhigh]
      rcases Nat.le_one_iff_eq_zero_or_eq_one.mp (Nat.lt_succ_iff.mp hhigh) with hzero | hone
      · rw [hzero]
        rfl
      · rw [hone]
        rfl
    have hrest := bits_add_mul width (value / 2 ^ width) (Nat.le_refl _) hlow
    rw [hsplit] at hrest
    rw [bits, ofBits, length_bits, hbit, hrest, ih hlow, hsplit]

/-! ### Groups -/

/-- One group of a bit string, filled up with zeros. -/
def bitGroup (width : ℕ) (string : List Bool) (position : ℕ) : List Bool :=
  let part := (string.drop (position * width)).take width
  part ++ List.replicate (width - part.length) false

/-- The first groups of a bit string. -/
def firstGroups (width : ℕ) (string : List Bool) (count : ℕ) : List (List Bool) :=
  (List.range count).map (bitGroup width string)

/-- The groups of a bit string, the last one filled up with zeros. -/
def bitGroups (width : ℕ) (string : List Bool) : List (List Bool) :=
  firstGroups width string ((string.length + width - 1) / width)

theorem length_bitGroup (width : ℕ) (string : List Bool) (position : ℕ) :
    (bitGroup width string position).length = width := by
  rw [bitGroup, List.length_append, List.length_replicate, List.length_take]
  omega

theorem length_of_mem_firstGroups {width count : ℕ} {string part : List Bool}
    (hpart : part ∈ firstGroups width string count) : part.length = width := by
  obtain ⟨position, -, rfl⟩ := List.mem_map.mp hpart
  exact length_bitGroup width string position

/-- Taking fewer groups. -/
theorem take_firstGroups {width count fewer : ℕ} (string : List Bool) (hfewer : fewer ≤ count) :
    (firstGroups width string count).take fewer = firstGroups width string fewer := by
  rw [firstGroups, ← List.map_take, List.take_range, Nat.min_eq_left hfewer, firstGroups]

/-- A whole group is a part of the string. -/
theorem bitGroup_eq_of_le {width position : ℕ} {string : List Bool}
    (hwhole : (position + 1) * width ≤ string.length) :
    bitGroup width string position = (string.drop (position * width)).take width := by
  have hlength : ((string.drop (position * width)).take width).length = width := by
    rw [List.length_take, List.length_drop]
    rw [Nat.succ_mul] at hwhole
    omega
  rw [bitGroup, hlength, Nat.sub_self, List.replicate_zero, List.append_nil]

/-- Whole groups are the front of the string. -/
theorem flatten_firstGroups {width count : ℕ} {string : List Bool}
    (hwhole : count * width ≤ string.length) :
    (firstGroups width string count).flatten = string.take (count * width) := by
  induction count with
  | zero => rw [Nat.zero_mul]; rfl
  | succ count ih =>
    have hfewer : count * width ≤ string.length := by
      rw [Nat.succ_mul] at hwhole
      omega
    have hih := ih hfewer
    rw [firstGroups] at hih ⊢
    rw [List.range_succ, List.map_append, List.flatten_append, hih, List.map_singleton,
      List.flatten_singleton, bitGroup_eq_of_le hwhole, Nat.succ_mul, List.take_add]

/-- The groups of a string are the string, with zeros at the end that do not fill a group. -/
theorem flatten_bitGroups {width : ℕ} (hwidth : 0 < width) (string : List Bool) :
    ∃ padding < width, (bitGroups width string).flatten =
      string ++ List.replicate padding false := by
  let whole := string.length / width
  have hdivision : width * whole + string.length % width = string.length :=
    Nat.div_add_mod string.length width
  have hrest : string.length % width < width := Nat.mod_lt _ hwidth
  have hwhole : whole * width ≤ string.length := by
    rw [Nat.mul_comm]
    omega
  by_cases heven : string.length % width = 0
  · have hcount : (string.length + width - 1) / width = whole := by
      have hsum : string.length + width - 1 = width * whole + (width - 1) := by omega
      rw [hsum, Nat.mul_add_div hwidth, Nat.div_eq_of_lt (by omega), Nat.add_zero]
    refine ⟨0, hwidth, ?_⟩
    rw [bitGroups, hcount, flatten_firstGroups hwhole, List.replicate_zero, List.append_nil]
    exact List.take_of_length_le (by rw [Nat.mul_comm]; omega)
  · have hcount : (string.length + width - 1) / width = whole + 1 := by
      have hsum : string.length + width - 1 =
          width * (whole + 1) + (string.length % width - 1) := by
        rw [Nat.mul_succ]
        omega
      rw [hsum, Nat.mul_add_div hwidth, Nat.div_eq_of_lt (by omega), Nat.add_zero]
    have hlast : ((string.drop (whole * width)).take width) = string.drop (whole * width) := by
      apply List.take_of_length_le
      rw [List.length_drop, Nat.mul_comm]
      omega
    refine ⟨width - string.length % width, by omega, ?_⟩
    have hlength : (string.drop (whole * width)).length = string.length % width := by
      rw [List.length_drop, Nat.mul_comm]
      omega
    have hfront := flatten_firstGroups hwhole
    rw [firstGroups] at hfront
    rw [bitGroups, hcount, firstGroups, List.range_succ, List.map_append, List.flatten_append,
      hfront, List.map_singleton, List.flatten_singleton, bitGroup, hlast, hlength,
      ← List.append_assoc, List.take_append_drop]

/-- Groups of equal width are determined by the string that they are. -/
theorem groups_unique {width : ℕ} {first second : List (List Bool)}
    (hcount : first.length = second.length) (hfirst : ∀ part ∈ first, part.length = width)
    (hsecond : ∀ part ∈ second, part.length = width) (hstring : first.flatten = second.flatten) :
    first = second := by
  refine List.eq_iff_flatten_eq.mpr ⟨hstring, ?_⟩
  rw [List.map_congr_left hfirst, List.map_congr_left hsecond, List.map_const', List.map_const',
    hcount]

/-! ### Byte strings -/

/-- The bits of a byte string, most significant first. -/
def byteBits (bytes : List UInt8) : List Bool :=
  bytes.flatMap fun byte ↦ bits 8 byte.toNat

theorem length_byteBits (bytes : List UInt8) : (byteBits bytes).length = bytes.length * 8 := by
  induction bytes with
  | nil => rfl
  | cons byte rest ih =>
    rw [byteBits, List.flatMap_cons, List.length_append, length_bits]
    rw [byteBits] at ih
    rw [ih, List.length_cons]
    omega

/-- The bits of two byte strings, one after the other. -/
theorem byteBits_append (first second : List UInt8) :
    byteBits (first ++ second) = byteBits first ++ byteBits second :=
  List.flatMap_append

end OpfsWebauthn.Foundation
