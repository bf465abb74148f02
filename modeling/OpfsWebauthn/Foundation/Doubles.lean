import Mathlib.Data.Int.Log
import Mathlib.Data.Nat.Prime.Basic
import Mathlib.Tactic.Linarith
import Mathlib.Tactic.NormNum
import Mathlib.Tactic.Positivity
import OpfsWebauthn.Foundation.Numbers

/-!
# Doubles

The finite doubles are rationals with a significand of 53 bits (`IsDouble`). `Number.round` is the
conversion of an exact rational, such as the value of a decimal literal: the nearest point of the
grid that the doubles form around it, the even one of two that are equally near, and an infinity
from the largest double on.

`round_of_isDouble` says that a double is rounded to itself and `isDouble_of_round` that what is
rounded is a double, so the finite values of `Number.round` are exactly the doubles. The numerator
and the denominator of a double give its exact decimal expansion (`eq_expansion_of_isDouble`).
`round_natCast` is the agreement with the conversion of natural numbers.
-/

set_option autoImplicit false
set_option relaxedAutoImplicit false

namespace OpfsWebauthn.Foundation

/-- A finite double: a significand of 53 bits and an exponent of the format. -/
def IsDouble (value : ℚ) : Prop :=
  ∃ significand exponent : ℤ, |significand| < 2 ^ 53 ∧ -1074 ≤ exponent ∧ exponent ≤ 971 ∧
    value = significand * 2 ^ exponent

/-- The nearest integer, the even one of two that are equally near. -/
def roundEven (value : ℚ) : ℤ :=
  if Int.fract value < 1 / 2 ∨ (Int.fract value = 1 / 2 ∧ ⌊value⌋ % 2 = 0) then ⌊value⌋
  else ⌊value⌋ + 1

/-- The exponent of the grid of doubles around a rational; the subnormal doubles have one grid. -/
def gridExponent (value : ℚ) : ℤ :=
  max (Int.log 2 |value| - 52) (-1074)

/-- The number that an exact rational is rounded to. -/
def Number.round (value : ℚ) : Number :=
  let grid := (2 : ℚ) ^ gridExponent value
  let rounded := roundEven (value / grid) * grid
  if |rounded| < 2 ^ 1024 then .finite rounded else .infinity (value < 0)

/-! ### The nearest integer -/

theorem roundEven_intCast (number : ℤ) : roundEven number = number := by
  unfold roundEven
  rw [Int.fract_intCast, Int.floor_intCast, if_pos (Or.inl (by norm_num))]

theorem floor_le_roundEven (value : ℚ) : ⌊value⌋ ≤ roundEven value := by
  unfold roundEven
  split_ifs
  · exact Int.le_refl _
  · exact Int.le_add_one (Int.le_refl _)

theorem roundEven_le_ceil (value : ℚ) : roundEven value ≤ ⌈value⌉ := by
  unfold roundEven
  split_ifs with hnear
  · exact Int.floor_le_ceil value
  · have hfract : Int.fract value ≠ 0 := by
      intro hzero
      exact hnear (Or.inl (by rw [hzero]; norm_num))
    have hlt : ⌊value⌋ < ⌈value⌉ := by
      rw [Int.lt_ceil]
      have hsum := Int.floor_add_fract value
      have hpos : 0 < Int.fract value := lt_of_le_of_ne (Int.fract_nonneg value) (Ne.symm hfract)
      linarith
    exact hlt

/-- Rounding does not cross an integer. -/
theorem abs_roundEven_le {value : ℚ} {bound : ℤ} (hbound : |value| ≤ bound) :
    |roundEven value| ≤ bound := by
  rw [abs_le] at hbound ⊢
  constructor
  · refine le_trans ?_ (floor_le_roundEven value)
    rw [Int.le_floor, Int.cast_neg]
    exact hbound.1
  · refine le_trans (roundEven_le_ceil value) ?_
    rw [Int.ceil_le]
    exact hbound.2

/-- Rounding does not cross an integer towards zero. -/
theorem le_abs_roundEven {value : ℚ} {bound : ℤ} (hbound : (bound : ℚ) ≤ |value|) :
    bound ≤ |roundEven value| := by
  rw [le_abs] at hbound ⊢
  rcases hbound with hpositive | hnegative
  · left
    refine le_trans ?_ (floor_le_roundEven value)
    rw [Int.le_floor]
    exact hpositive
  · right
    have hceil : ⌈value⌉ ≤ -bound := by
      rw [Int.ceil_le, Int.cast_neg]
      linarith
    have hrounded := roundEven_le_ceil value
    omega

/-- Rounding is the same on both sides of zero. -/
theorem roundEven_neg (value : ℚ) : roundEven (-value) = -roundEven value := by
  by_cases hwhole : Int.fract value = 0
  · have hvalue : value = ⌊value⌋ := by
      have hsum := Int.floor_add_fract value
      linarith
    rw [hvalue, ← Int.cast_neg, roundEven_intCast, roundEven_intCast]
  · have hfract : Int.fract (-value) = 1 - Int.fract value := Int.fract_neg hwhole
    have hsum := Int.floor_add_fract value
    have hnegSum := Int.floor_add_fract (-value)
    have hfloor : ⌊-value⌋ = -⌊value⌋ - 1 := by
      have hcast : ((⌊-value⌋ : ℤ) : ℚ) = ((-⌊value⌋ - 1 : ℤ) : ℚ) := by
        push_cast
        linarith
      exact_mod_cast hcast
    unfold roundEven
    rw [hfract, hfloor]
    rcases lt_trichotomy (Int.fract value) (1 / 2) with hless | hhalf | hmore
    · rw [if_neg, if_pos (Or.inl hless)]
      · omega
      · rintro (hother | ⟨hother, -⟩) <;> linarith
    · rw [hhalf]
      by_cases heven : ⌊value⌋ % 2 = 0
      · rw [if_neg, if_pos (Or.inr ⟨rfl, heven⟩)]
        · omega
        · rintro (hother | ⟨-, hother⟩)
          · norm_num at hother
          · omega
      · rw [if_pos (Or.inr ⟨by norm_num, by omega⟩), if_neg]
        · omega
        · rintro (hother | ⟨-, hother⟩)
          · norm_num at hother
          · exact heven hother
    · rw [if_pos (Or.inl (by linarith)), if_neg]
      · omega
      · rintro (hother | ⟨hother, -⟩) <;> linarith

/-! ### Doubles are what is rounded -/

theorem isDouble_zero : IsDouble 0 :=
  ⟨0, 0, by norm_num, by norm_num, by norm_num, by norm_num⟩

/-- A double is below the bound of the format. -/
theorem abs_lt_of_isDouble {value : ℚ} (hdouble : IsDouble value) : |value| < 2 ^ 1024 := by
  obtain ⟨significand, exponent, hsignificand, -, hexponent, rfl⟩ := hdouble
  have hfactor : |(significand : ℚ)| < 2 ^ 53 := by exact_mod_cast hsignificand
  have hgrid : (2 : ℚ) ^ exponent ≤ 2 ^ (971 : ℤ) :=
    zpow_le_zpow_right₀ (by norm_num) hexponent
  have hpos : (0 : ℚ) < 2 ^ exponent := zpow_pos (by norm_num) exponent
  rw [abs_mul, abs_of_pos hpos]
  calc |(significand : ℚ)| * 2 ^ exponent < 2 ^ 53 * 2 ^ exponent := by
        exact mul_lt_mul_of_pos_right hfactor hpos
    _ ≤ 2 ^ 53 * 2 ^ (971 : ℤ) := by
        exact mul_le_mul_of_nonneg_left hgrid (by norm_num)
    _ = 2 ^ 1024 := by rw [zpow_ofNat, ← pow_add]

/-- A double lies on the grid around it. -/
theorem exists_of_isDouble {value : ℚ} (hdouble : IsDouble value) :
    ∃ multiple : ℤ, value = multiple * 2 ^ gridExponent value := by
  obtain ⟨significand, exponent, hsignificand, hlow, -, hvalue⟩ := hdouble
  by_cases hzero : value = 0
  · exact ⟨0, by rw [hzero]; norm_num⟩
  · have hpos : (0 : ℚ) < 2 ^ exponent := zpow_pos (by norm_num) exponent
    have hfactor : |(significand : ℚ)| < 2 ^ 53 := by exact_mod_cast hsignificand
    have hbelow : |value| < (2 : ℕ) ^ (exponent + 53) := by
      rw [hvalue, abs_mul, abs_of_pos hpos]
      calc |(significand : ℚ)| * 2 ^ exponent < 2 ^ 53 * 2 ^ exponent := by
            exact mul_lt_mul_of_pos_right hfactor hpos
        _ = (2 : ℕ) ^ (exponent + 53) := by
            rw [Nat.cast_ofNat, zpow_add₀ (by norm_num)]
            norm_num [mul_comm]
    have hlog : Int.log 2 |value| < exponent + 53 :=
      (Int.lt_zpow_iff_log_lt (by norm_num) (abs_pos.mpr hzero)).mp hbelow
    have hgrid : gridExponent value ≤ exponent := by
      unfold gridExponent
      omega
    obtain ⟨steps, hsteps⟩ := Int.eq_ofNat_of_zero_le (sub_nonneg.mpr hgrid)
    have hexponent : exponent = steps + gridExponent value := by omega
    refine ⟨significand * 2 ^ steps, ?_⟩
    rw [Int.cast_mul, Int.cast_pow, Int.cast_ofNat, mul_assoc, ← zpow_natCast,
      ← zpow_add₀ (by norm_num), ← hexponent]
    exact hvalue

/-- A double is rounded to itself. -/
theorem round_of_isDouble {value : ℚ} (hdouble : IsDouble value) :
    Number.round value = .finite value := by
  obtain ⟨multiple, hmultiple⟩ := exists_of_isDouble hdouble
  have hpos : (0 : ℚ) < 2 ^ gridExponent value := zpow_pos (by norm_num) _
  have hquotient : value / 2 ^ gridExponent value = multiple := by
    rw [div_eq_iff (ne_of_gt hpos)]
    exact hmultiple
  have hrounded : (roundEven (value / 2 ^ gridExponent value) : ℚ) * 2 ^ gridExponent value =
      value := by
    rw [hquotient, roundEven_intCast]
    exact hmultiple.symm
  unfold Number.round
  simp only [hrounded]
  rw [if_pos (abs_lt_of_isDouble hdouble)]

/-- A point of the grid below the bound of the format is a double, when its multiple has at most
53 bits or is the next power of two. -/
theorem isDouble_of_grid {multiple exponent : ℤ} (hmultiple : |multiple| ≤ 2 ^ 53)
    (hlow : -1074 ≤ exponent) (hlarge : -1074 < exponent → 2 ^ 52 ≤ |multiple|)
    (hbound : |(multiple : ℚ) * 2 ^ exponent| < 2 ^ 1024) :
    IsDouble (multiple * 2 ^ exponent) := by
  have hpos : (0 : ℚ) < 2 ^ exponent := zpow_pos (by norm_num) exponent
  rw [abs_mul, abs_of_pos hpos] at hbound
  -- a significand with a certain number of bits leaves the rest of the 1024 to the exponent
  have hsize : ∀ width : ℕ, (2 : ℤ) ^ width ≤ |multiple| → (width : ℤ) + exponent < 1024 := by
    intro width hwidth
    have hcast : (2 : ℚ) ^ width ≤ |(multiple : ℚ)| := by exact_mod_cast hwidth
    have hpower : (2 : ℚ) ^ ((width : ℤ) + exponent) < 2 ^ (1024 : ℤ) := by
      rw [zpow_add₀ (by norm_num), zpow_natCast]
      calc (2 : ℚ) ^ width * 2 ^ exponent ≤ |(multiple : ℚ)| * 2 ^ exponent := by
            exact mul_le_mul_of_nonneg_right hcast hpos.le
        _ < 2 ^ (1024 : ℤ) := by exact_mod_cast hbound
    exact (zpow_lt_zpow_iff_right₀ (by norm_num)).mp hpower
  by_cases hfull : |multiple| < 2 ^ 53
  · refine ⟨multiple, exponent, hfull, hlow, ?_, rfl⟩
    by_cases hsubnormal : -1074 < exponent
    · have hexponent := hsize 52 (hlarge hsubnormal)
      omega
    · omega
  · have heq : |multiple| = 2 ^ 53 := le_antisymm hmultiple (not_lt.mp hfull)
    have hexponent := hsize 53 heq.ge
    have hsplit : (2 : ℚ) ^ (exponent + 1) = 2 * 2 ^ exponent := by
      rw [zpow_add₀ (by norm_num), zpow_one, mul_comm]
    rcases (abs_eq (by norm_num)).mp heq with hpositive | hnegative
    · refine ⟨2 ^ 52, exponent + 1, by norm_num, by omega, by omega, ?_⟩
      rw [hpositive, hsplit, ← mul_assoc]
      norm_num
    · refine ⟨-2 ^ 52, exponent + 1, by norm_num, by omega, by omega, ?_⟩
      rw [hnegative, hsplit, ← mul_assoc]
      norm_num

/-- What is rounded is a double. -/
theorem isDouble_of_round {value rounded : ℚ} (hround : Number.round value = .finite rounded) :
    IsDouble rounded := by
  by_cases hzero : value = 0
  · rw [hzero, round_of_isDouble isDouble_zero, Number.finite.injEq] at hround
    exact hround ▸ isDouble_zero
  unfold Number.round at hround
  dsimp only at hround
  by_cases hbound : |(roundEven (value / 2 ^ gridExponent value) : ℚ) * 2 ^ gridExponent value| <
      2 ^ 1024
  · rw [if_pos hbound, Number.finite.injEq] at hround
    rw [← hround]
    have hpos : (0 : ℚ) < 2 ^ gridExponent value := zpow_pos (by norm_num) _
    have hlow : -1074 ≤ gridExponent value := le_max_right _ _
    have hlog : Int.log 2 |value| - 52 ≤ gridExponent value := le_max_left _ _
    have habs : |value / 2 ^ gridExponent value| = |value| / 2 ^ gridExponent value := by
      rw [abs_div, abs_of_pos hpos]
    have hupper : |value / 2 ^ gridExponent value| ≤ ((2 ^ 53 : ℤ) : ℚ) := by
      have hbelow : |value| < ((2 : ℕ) : ℚ) ^ (Int.log 2 |value| + 1) :=
        Int.lt_zpow_succ_log_self (by norm_num) |value|
      rw [habs, div_le_iff₀ hpos]
      calc |value| ≤ ((2 : ℕ) : ℚ) ^ (Int.log 2 |value| + 1) := hbelow.le
        _ = 2 ^ (Int.log 2 |value| + 1) := by rw [Nat.cast_ofNat]
        _ ≤ 2 ^ (53 + gridExponent value) := by
            exact zpow_le_zpow_right₀ (by norm_num) (by omega)
        _ = ((2 ^ 53 : ℤ) : ℚ) * 2 ^ gridExponent value := by
            rw [zpow_add₀ (by norm_num)]
            norm_num
    apply isDouble_of_grid (abs_roundEven_le hupper) hlow ?_ hbound
    intro hnormal
    have hgrid : gridExponent value = Int.log 2 |value| - 52 := by
      unfold gridExponent at hnormal ⊢
      omega
    apply le_abs_roundEven
    rw [habs, le_div_iff₀ hpos]
    have hself : ((2 : ℕ) : ℚ) ^ Int.log 2 |value| ≤ |value| :=
      Int.zpow_log_le_self (by norm_num) (abs_pos.mpr hzero)
    calc ((2 ^ 52 : ℤ) : ℚ) * 2 ^ gridExponent value = 2 ^ (52 + gridExponent value) := by
          rw [zpow_add₀ (by norm_num)]
          norm_num
      _ = ((2 : ℕ) : ℚ) ^ Int.log 2 |value| := by
          rw [hgrid, Nat.cast_ofNat, add_sub_cancel]
      _ ≤ |value| := hself
  · rw [if_neg hbound] at hround
    cases hround

/-- A value of type `number`: a finite one is a double. -/
def JsNumber :=
  { number : Number // ∀ value, number = .finite value → IsDouble value }

/-- The number that an exact rational is rounded to. -/
def JsNumber.round (value : ℚ) : JsNumber :=
  ⟨Number.round value, fun _ hround ↦ isDouble_of_round hround⟩

/-- A number is rounded to itself. -/
theorem JsNumber.round_eq {number : JsNumber} {value rounded : ℚ}
    (hfinite : number.val = .finite rounded) (hround : Number.round value = .finite rounded) :
    JsNumber.round value = number :=
  Subtype.ext (hround.trans hfinite.symm)

/-- A rational that is rounded to a double is so on the other side of zero. -/
theorem round_neg {value rounded : ℚ} (hround : Number.round value = .finite rounded) :
    Number.round (-value) = .finite (-rounded) := by
  have hgrid : gridExponent (-value) = gridExponent value := by
    unfold gridExponent
    rw [abs_neg]
  unfold Number.round at hround ⊢
  dsimp only at hround ⊢
  rw [hgrid, neg_div, roundEven_neg, Int.cast_neg, neg_mul, abs_neg]
  split_ifs at hround ⊢ with hbound
  · rw [Number.finite.injEq] at hround
    rw [hround]

/-! ### The decimal expansion of a double -/

/-- The denominator of a double is a power of two. -/
theorem den_of_isDouble {value : ℚ} (hdouble : IsDouble value) :
    value.den = 2 ^ value.den.log2 := by
  obtain ⟨significand, exponent, -, hlow, -, hvalue⟩ := hdouble
  obtain ⟨places, hplaces⟩ : ∃ places : ℕ, (places : ℤ) = 1074 := ⟨1074, rfl⟩
  obtain ⟨steps, hsteps⟩ := Int.eq_ofNat_of_zero_le (show 0 ≤ exponent + places by omega)
  have hfraction : value = ((significand * 2 ^ steps : ℤ) : ℚ) / ((2 ^ places : ℤ) : ℚ) := by
    rw [hvalue, eq_div_iff (by positivity)]
    push_cast
    rw [mul_assoc, ← zpow_natCast, ← zpow_natCast, ← zpow_add₀ (by norm_num), hsteps]
  have hdvd : (value.den : ℤ) ∣ 2 ^ places := by
    rw [hfraction, ← Rat.divInt_eq_div]
    exact Rat.den_dvd _ _
  have hnat : value.den ∣ 2 ^ places := by exact_mod_cast hdvd
  obtain ⟨power, -, hpower⟩ := (Nat.dvd_prime_pow Nat.prime_two).mp hnat
  rw [hpower, Nat.log2_two_pow]

/-- The numerator of a double, scaled to the decimal places that its denominator takes, is the
whole expansion. -/
theorem eq_expansion_of_isDouble {value : ℚ} (hdouble : IsDouble value) (hpositive : 0 < value) :
    ((value.num.natAbs * 5 ^ value.den.log2 : ℕ) : ℚ) * 10 ^ (-(value.den.log2 : ℤ)) = value := by
  have hden : (value.den : ℚ) = 2 ^ value.den.log2 := by
    exact_mod_cast congrArg (Nat.cast : ℕ → ℚ) (den_of_isDouble hdouble)
  have hnum : ((value.num.natAbs : ℕ) : ℚ) = value * 2 ^ value.den.log2 := by
    rw [← Int.cast_natCast, Int.natAbs_of_nonneg (Rat.num_nonneg.mpr hpositive.le), ← hden,
      Rat.mul_den_eq_num]
  have hten : (10 : ℚ) ^ value.den.log2 = 2 ^ value.den.log2 * 5 ^ value.den.log2 := by
    rw [← mul_pow]
    norm_num
  rw [zpow_neg, zpow_natCast, ← div_eq_mul_inv, div_eq_iff (by positivity), hten, Nat.cast_mul,
    hnum, Nat.cast_pow, Nat.cast_ofNat, mul_assoc]

/-! ### Natural numbers -/

/-- Below `2 ^ 53` every natural number is a double. -/
theorem isDouble_natCast {number : ℕ} (hnumber : number < 2 ^ 53) : IsDouble number := by
  refine ⟨number, 0, ?_, by norm_num, by norm_num, by norm_num⟩
  rw [Nat.abs_cast]
  exact_mod_cast hnumber

/-- The nearest integer to a quotient of natural numbers. -/
theorem roundEven_natCast_div {value unit : ℕ} (hunit : 0 < unit) :
    roundEven ((value : ℚ) / unit) =
      ((if 2 * (value % unit) < unit ∨ (2 * (value % unit) = unit ∧ value / unit % 2 = 0) then
        value / unit else value / unit + 1 : ℕ) : ℤ) := by
  have hpos : (0 : ℚ) < unit := by exact_mod_cast hunit
  have hfloor : ⌊(value : ℚ) / unit⌋ = ((value / unit : ℕ) : ℤ) :=
    Rat.floor_natCast_div_natCast value unit
  have hfract : Int.fract ((value : ℚ) / unit) = ((value % unit : ℕ) : ℚ) / unit := by
    have hsplit : (value : ℚ) = unit * (value / unit : ℕ) + (value % unit : ℕ) := by
      exact_mod_cast (Nat.div_add_mod value unit).symm
    unfold Int.fract
    rw [hfloor, Int.cast_natCast, eq_div_iff (ne_of_gt hpos), sub_mul,
      div_mul_cancel₀ _ (ne_of_gt hpos)]
    linarith
  have hless : ((value % unit : ℕ) : ℚ) / unit < 1 / 2 ↔ 2 * (value % unit) < unit := by
    rw [div_lt_div_iff₀ hpos (by norm_num), one_mul, mul_comm]
    exact_mod_cast Iff.rfl
  have hhalf : ((value % unit : ℕ) : ℚ) / unit = 1 / 2 ↔ 2 * (value % unit) = unit := by
    rw [div_eq_div_iff (ne_of_gt hpos) (by norm_num), one_mul, mul_comm]
    exact_mod_cast Iff.rfl
  have heven : ((value / unit : ℕ) : ℤ) % 2 = 0 ↔ value / unit % 2 = 0 := by
    exact_mod_cast Iff.rfl
  unfold roundEven
  rw [hfract, hfloor]
  simp only [hless, hhalf, heven]
  split_ifs
  · rfl
  · push_cast
    rfl

/-- On natural numbers the conversion of an exact rational is the one of a natural number. -/
theorem round_natCast (value : ℕ) : Number.round value = Number.ofNat value := by
  by_cases hsmall : value < 2 ^ 53
  · rw [round_of_isDouble (isDouble_natCast hsmall), ofNat_small hsmall.le]
  · have hzero : value ≠ 0 := by
      intro hzero
      rw [hzero] at hsmall
      exact hsmall (Nat.two_pow_pos 53)
    have hlog : 53 ≤ value.log2 := (Nat.le_log2 hzero).mpr (not_lt.mp hsmall)
    have hgrid : (2 : ℚ) ^ gridExponent value = spacing value := by
      have hexponent : gridExponent value = (value.log2 - 52 : ℕ) := by
        unfold gridExponent
        rw [Nat.abs_cast, Int.log_natCast, ← Nat.log2_eq_log_two]
        omega
      unfold spacing
      rw [hexponent, zpow_natCast, Nat.cast_pow, Nat.cast_ofNat]
    have hspacing : 0 < spacing value := Nat.two_pow_pos _
    have hrounded : ((roundEven ((value : ℚ) / spacing value) : ℤ) : ℚ) * spacing value =
        (nearest value : ℕ) := by
      rw [roundEven_natCast_div hspacing, Int.cast_natCast, ← Nat.cast_mul]
      unfold nearest
      dsimp only
      rw [ite_mul]
    have hbound : |((nearest value : ℕ) : ℚ)| < 2 ^ 1024 ↔ nearest value < doubleBound := by
      rw [Nat.abs_cast]
      unfold doubleBound
      exact_mod_cast Iff.rfl
    have hsign : decide ((value : ℚ) < 0) = false :=
      decide_eq_false (not_lt.mpr (Nat.cast_nonneg value))
    unfold Number.round Number.ofNat
    dsimp only
    rw [hgrid, hrounded, hsign]
    simp only [hbound]

end OpfsWebauthn.Foundation
