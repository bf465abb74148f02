import Mathlib.Data.Nat.Log
import Mathlib.Data.Rat.Floor

/-!
# JavaScript numbers

A `Number` is a double: a rational with a significand of 53 bits, an infinity, or not a number.
`ofNat` is the conversion of an exact natural number, from a `bigint` or a decimal literal: the
nearest double, the even one of two that are equally near, and infinity from the largest double on.
`toUint32` is the conversion to 32 bits that the bitwise operators, `setUint32` and an ABI of 32-bit
words apply.

Up to `2 ^ 53` every natural number is a double (`nearest_eq_self`). From `2 ^ 85` on every double
is a multiple of `2 ^ 32`, so its low 32 bits are zero (`toUint32_ofNat_large`).
-/

set_option autoImplicit false
set_option relaxedAutoImplicit false

namespace OpfsWebauthn.Foundation

/-- The values of type `number`. Both zeros are the rational zero. -/
inductive Number
  | nan
  | infinity (negative : Bool)
  | finite (value : ℚ)
deriving DecidableEq, Repr

/-- The distance of two neighbouring doubles around a natural number. -/
def spacing (value : ℕ) : ℕ :=
  2 ^ (value.log2 - 52)

/-- The nearest double of unbounded size; of two that are equally near, the one with the even
significand. -/
def nearest (value : ℕ) : ℕ :=
  let significand := value / spacing value
  let rest := value % spacing value
  if 2 * rest < spacing value ∨ (2 * rest = spacing value ∧ significand % 2 = 0) then
    significand * spacing value
  else (significand + 1) * spacing value

/-- From here on a rounded number is infinite. -/
def doubleBound : ℕ := 2 ^ 1024

namespace Number

/-- `Number(value)` of an exact natural number. -/
def ofNat (value : ℕ) : Number :=
  if nearest value < doubleBound then .finite (nearest value) else .infinity false

/-- `-value`. -/
def neg : Number → Number
  | .nan => .nan
  | .infinity negative => .infinity !negative
  | .finite value => .finite (-value)

/-- `Number.isInteger(value)`. -/
def isInteger : Number → Bool
  | .finite value => value.den = 1
  | _ => false

/-- `value >= 0`. -/
def isNonNegative : Number → Bool
  | .nan => false
  | .infinity negative => !negative
  | .finite value => 0 ≤ value

/-- The conversion to 32 bits: towards zero, and modulo `2 ^ 32`. -/
def toUint32 : Number → ℕ
  | .finite value => (value.num.tdiv value.den % 2 ^ 32).toNat
  | _ => 0

/-- `value / divisor` by a power of two, which is exact above the smallest doubles. -/
def div (number : Number) (divisor : ℚ) : Number :=
  match number with
  | .finite value => .finite (value / divisor)
  | other => other

/-- `Math.floor(value)`. -/
def floor : Number → Number
  | .finite value => .finite value.floor
  | other => other

end Number

/-! ### Rounding -/

/-- A double is rounded to itself. -/
theorem nearest_of_dvd {value : ℕ} (hdvd : spacing value ∣ value) : nearest value = value := by
  have hrest : value % spacing value = 0 := Nat.mod_eq_zero_of_dvd hdvd
  have hpos : 0 < spacing value := Nat.two_pow_pos _
  unfold nearest
  rw [hrest]
  exact (if_pos (Or.inl (by omega))).trans (Nat.div_mul_cancel hdvd)

/-- Up to `2 ^ 53` every natural number is a double. -/
theorem nearest_eq_self {value : ℕ} (hvalue : value ≤ 2 ^ 53) : nearest value = value := by
  apply nearest_of_dvd
  by_cases hmax : value = 2 ^ 53
  · rw [hmax]
    decide +kernel
  · have hspacing : spacing value = 1 := by
      by_cases hzero : value = 0
      · rw [hzero]
        decide +kernel
      · have hlog : value.log2 < 53 := (Nat.log2_lt hzero).mpr (by omega)
        unfold spacing
        rw [Nat.sub_eq_zero_of_le (by omega), Nat.pow_zero]
    rw [hspacing]
    exact Nat.one_dvd value

/-- What is rounded is a multiple of the spacing. -/
theorem spacing_dvd_nearest (value : ℕ) : spacing value ∣ nearest value := by
  unfold nearest
  dsimp only
  split_ifs
  · exact Nat.dvd_mul_left _ _
  · exact Nat.dvd_mul_left _ _

/-! ### The low 32 bits -/

/-- The conversion yields a word. -/
theorem toUint32_lt (number : Number) : number.toUint32 < 2 ^ 32 := by
  cases number with
  | nan => exact Nat.two_pow_pos 32
  | infinity negative => exact Nat.two_pow_pos 32
  | finite value =>
    change (value.num.tdiv value.den % 2 ^ 32).toNat < 2 ^ 32
    omega

/-- The low 32 bits of a natural number. -/
theorem toUint32_natCast (value : ℕ) : Number.toUint32 (.finite value) = value % 2 ^ 32 := by
  change ((value : ℤ).tdiv 1 % 2 ^ 32).toNat = value % 2 ^ 32
  rw [Int.tdiv_one]
  omega

/-- A natural number is an integer. -/
theorem isInteger_natCast (value : ℕ) : Number.isInteger (.finite value) = true :=
  decide_eq_true (Rat.den_natCast value)

/-- A natural number is not negative. -/
theorem isNonNegative_natCast (value : ℕ) : Number.isNonNegative (.finite value) = true :=
  decide_eq_true (Rat.natCast_nonneg)

/-- An integer that is not negative is a natural number. -/
theorem exists_natCast {number : Number} (hinteger : number.isInteger = true)
    (hnonNegative : number.isNonNegative = true) :
    ∃ value : ℕ, number = .finite value := by
  cases number with
  | nan => cases hinteger
  | infinity negative => cases hinteger
  | finite value =>
    have hden : value.den = 1 := of_decide_eq_true hinteger
    have hsign : 0 ≤ value.num := Rat.num_nonneg.mpr (of_decide_eq_true hnonNegative)
    refine ⟨value.num.toNat, ?_⟩
    congr 1
    apply Rat.ext
    · rw [Rat.num_natCast, Int.toNat_of_nonneg hsign]
    · rw [Rat.den_natCast, hden]

/-- Up to `2 ^ 53` a natural number is converted exactly. -/
theorem ofNat_small {value : ℕ} (hvalue : value ≤ 2 ^ 53) : Number.ofNat value = .finite value := by
  have hpow : 2 ^ 53 < doubleBound := by
    unfold doubleBound
    apply Nat.pow_lt_pow_right (by decide) (by decide)
  have hbound : nearest value < doubleBound := by
    rw [nearest_eq_self hvalue]
    exact Nat.lt_of_le_of_lt hvalue hpow
  unfold Number.ofNat
  rw [if_pos hbound, nearest_eq_self hvalue]

/-- Up to `2 ^ 53` a negative number is converted exactly. -/
theorem neg_ofNat_small {value : ℕ} (hvalue : value ≤ 2 ^ 53) :
    (Number.ofNat value).neg = .finite (-(value : ℤ) : ℤ) := by
  rw [ofNat_small hvalue]
  show Number.finite (-(value : ℚ)) = _
  rw [Int.cast_neg, Int.cast_natCast]

/-- Up to `2 ^ 53` the low 32 bits are those of the natural number. -/
theorem toUint32_ofNat_small {value : ℕ} (hvalue : value ≤ 2 ^ 53) :
    (Number.ofNat value).toUint32 = value % 2 ^ 32 := by
  rw [ofNat_small hvalue, toUint32_natCast]

/-- The high word of a natural number. -/
theorem floor_div_natCast (value divisor : ℕ) :
    (Number.div (.finite value) divisor).floor = .finite (value / divisor : ℕ) := by
  have hfloor : ((value : ℚ) / divisor).floor = ((value / divisor : ℕ) : ℤ) :=
    Rat.floor_natCast_div_natCast value divisor
  change Number.finite (((value : ℚ) / divisor).floor : ℚ) = _
  rw [hfloor, Int.cast_natCast]

/-- From `2 ^ 85` on the low 32 bits are zero, of infinity too. -/
theorem toUint32_ofNat_large {value : ℕ} (hvalue : 2 ^ 85 ≤ value) :
    (Number.ofNat value).toUint32 = 0 := by
  have hzero : value ≠ 0 := by
    have hpos : 0 < 2 ^ 85 := Nat.two_pow_pos 85
    omega
  have hlog : 85 ≤ value.log2 := (Nat.le_log2 hzero).mpr hvalue
  have hdvd : 2 ^ 32 ∣ nearest value :=
    Nat.dvd_trans (Nat.pow_dvd_pow 2 (by omega)) (spacing_dvd_nearest value)
  unfold Number.ofNat
  split_ifs
  · rw [toUint32_natCast]
    exact Nat.mod_eq_zero_of_dvd hdvd
  · rfl

end OpfsWebauthn.Foundation
