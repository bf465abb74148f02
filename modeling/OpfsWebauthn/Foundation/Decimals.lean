import OpfsWebauthn.Foundation.Doubles
import OpfsWebauthn.Foundation.JsonText

/-!
# Decimal texts of numbers

How JavaScript writes a number and reads it back. `literalValue` is the exact value of a number
literal, which is rounded to a double. `Number::toString` writes the decimal with the fewest digits
that is rounded to the number, and of those with that many digits the nearest; `shortest` finds it
among the prefixes of the exact expansion, each one cut off and rounded up. `Decimal.literal` lays
the digits out, with an exponent where the number is very large or very small.

`reads_decimalText` says that what is written is a number of JSON, and `round_decimalText` that
reading it yields the number that was written.
-/

set_option autoImplicit false
set_option relaxedAutoImplicit false

namespace OpfsWebauthn.Foundation

/-! ### The value of a literal -/

/-- The number of a row of digits. -/
def digitsValue (digits : List Char) : ℕ :=
  Nat.ofDigitChars 10 digits 0

/-- The exponent of a number, zero when there is none. -/
def exponentValue : List Char → ℤ
  | _ :: '-' :: digits => -digitsValue digits
  | _ :: '+' :: digits => digitsValue digits
  | _ :: digits => digitsValue digits
  | [] => 0

/-- The value of a literal without its sign. -/
def unsignedValue (literal : List Char) : ℚ :=
  let whole := literal.takeWhile Char.isDigit
  match literal.dropWhile Char.isDigit with
  | '.' :: rest =>
    let fraction := rest.takeWhile Char.isDigit
    digitsValue (whole ++ fraction) *
      10 ^ (exponentValue (rest.dropWhile Char.isDigit) - fraction.length)
  | rest => digitsValue whole * 10 ^ exponentValue rest

/-- The exact value of a number literal. -/
def literalValue : List Char → ℚ
  | '-' :: rest => -unsignedValue rest
  | literal => unsignedValue literal

/-! ### Writing -/

/-- A decimal number: a significand and a power of ten. -/
structure Decimal where
  significand : ℕ
  exponent : ℤ
deriving DecidableEq, Repr

/-- The value of a decimal number. -/
def Decimal.value (decimal : Decimal) : ℚ :=
  decimal.significand * 10 ^ decimal.exponent

/-- A significand of some digits that was rounded up may have become a power of ten. -/
def Decimal.carried (width : ℕ) (decimal : Decimal) : Decimal :=
  if decimal.significand = 10 ^ width then ⟨10 ^ (width - 1), decimal.exponent + 1⟩ else decimal

/-- The decimals next to an expansion of which the last digits are dropped, the nearer one first.
The expansion has `places` digits behind the point. -/
def neighbours (expansion places width dropped : ℕ) : List Decimal :=
  let cut := expansion / 10 ^ dropped
  let rest := expansion % 10 ^ dropped
  let below : Decimal := ⟨cut, dropped - places⟩
  let above : Decimal := Decimal.carried (width - dropped) ⟨cut + 1, dropped - places⟩
  if 2 * rest < 10 ^ dropped ∨ (2 * rest = 10 ^ dropped ∧ cut % 2 = 0) then [below, above]
  else [above, below]

/-- The first of the neighbours that is rounded to a number. -/
def shortened (value : ℚ) (expansion places width dropped : ℕ) : Option Decimal :=
  (neighbours expansion places width dropped).find? fun decimal ↦
    Number.round decimal.value = .finite value

/-- The decimal that a positive double is written as: as many digits as possible are dropped. -/
def shortest (value : ℚ) : Decimal :=
  let places := value.den.log2
  let expansion := value.num.natAbs * 5 ^ places
  let width := (Nat.toDigits 10 expansion).length
  ((List.range width).reverse.findSome? (shortened value expansion places width)).getD
    ⟨expansion, -places⟩

/-- The parts of a literal without its sign. The exponent has a sign, which is set when it is
negative. -/
structure Literal where
  whole : List Char
  fraction : List Char
  exponent : Option (Bool × List Char)

/-- The fraction of a literal as it is written. -/
def fractionText (fraction : List Char) : List Char :=
  if fraction = [] then [] else '.' :: fraction

/-- The exponent of a literal as it is written. -/
def exponentText : Option (Bool × List Char) → List Char
  | none => []
  | some (negative, digits) => 'e' :: (if negative then '-' else '+') :: digits

/-- A literal as it is written. -/
def Literal.text (literal : Literal) : List Char :=
  literal.whole ++ fractionText literal.fraction ++ exponentText literal.exponent

/-- How a decimal is laid out. With the point `point` digits from the left, it has no exponent
from `0.000001` up to numbers of 21 digits. -/
def Decimal.literal (decimal : Decimal) : Literal :=
  let digits := Nat.toDigits 10 decimal.significand
  let point : ℤ := digits.length + decimal.exponent
  if digits.length ≤ point ∧ point ≤ 21 then
    ⟨digits ++ List.replicate (point - digits.length).toNat '0', [], none⟩
  else if 0 < point ∧ point ≤ 21 then ⟨digits.take point.toNat, digits.drop point.toNat, none⟩
  else if -6 < point ∧ point ≤ 0 then
    ⟨['0'], List.replicate (-point).toNat '0' ++ digits, none⟩
  else ⟨digits.take 1, digits.drop 1,
    some (point - 1 < 0, Nat.toDigits 10 (point - 1).natAbs)⟩

/-- `Number::toString` of a finite number. -/
def decimalText (value : ℚ) : List Char :=
  if value = 0 then ['0']
  else if value < 0 then '-' :: (shortest (-value)).literal.text
  else (shortest value).literal.text

/-- `JSON.stringify` of a number. -/
def stringifyNumber : Number → List Char
  | .finite value => decimalText value
  | _ => ['n', 'u', 'l', 'l']

/-! ### The shortest decimal is rounded to the number -/

theorem round_of_shortened {value : ℚ} {expansion places width dropped : ℕ} {decimal : Decimal}
    (hshortened : shortened value expansion places width dropped = some decimal) :
    Number.round decimal.value = .finite value := by
  have htest := List.find?_some hshortened
  exact of_decide_eq_true htest

/-- What is written is rounded to the number: it was tested, or it is the exact expansion. -/
theorem round_shortest {value : ℚ} (hdouble : IsDouble value) (hpositive : 0 < value) :
    Number.round (shortest value).value = .finite value := by
  unfold shortest
  dsimp only
  cases hfound : (List.range (Nat.toDigits 10
      (value.num.natAbs * 5 ^ value.den.log2)).length).reverse.findSome?
        (shortened value (value.num.natAbs * 5 ^ value.den.log2) value.den.log2
          (Nat.toDigits 10 (value.num.natAbs * 5 ^ value.den.log2)).length) with
  | some decimal =>
    obtain ⟨dropped, -, hshortened⟩ := List.exists_of_findSome?_eq_some hfound
    exact round_of_shortened hshortened
  | none =>
    rw [Option.getD_none, Decimal.value]
    dsimp only
    rw [eq_expansion_of_isDouble hdouble hpositive]
    exact round_of_isDouble hdouble

theorem significand_shortest_pos {value : ℚ} (hdouble : IsDouble value) (hpositive : 0 < value) :
    0 < (shortest value).significand := by
  apply Nat.pos_of_ne_zero
  intro hzero
  have hround := round_shortest hdouble hpositive
  rw [Decimal.value, hzero, Nat.cast_zero, zero_mul, round_of_isDouble isDouble_zero,
    Number.finite.injEq] at hround
  exact absurd hround (ne_of_lt hpositive)

/-! ### The layout keeps the value -/

theorem digitsValue_append_zeros (digits : List Char) (count : ℕ) :
    digitsValue (digits ++ List.replicate count '0') = digitsValue digits * 10 ^ count := by
  unfold digitsValue
  rw [Nat.ofDigitChars_append, Nat.ofDigitChars_replicate_zero, Nat.mul_comm]

theorem digitsValue_zeros_append (digits : List Char) (count : ℕ) :
    digitsValue (List.replicate count '0' ++ digits) = digitsValue digits := by
  unfold digitsValue
  rw [Nat.ofDigitChars_append, Nat.ofDigitChars_replicate_zero, Nat.mul_zero]

theorem digitsValue_toDigits (number : ℕ) : digitsValue (Nat.toDigits 10 number) = number :=
  Nat.ofDigitChars_ten_toDigits

/-- The first digit of a positive number is not zero. -/
theorem head?_toDigits_ne_zero {number : ℕ} (hpositive : 0 < number) :
    (Nat.toDigits 10 number).head? ≠ some '0' := by
  induction number using Nat.base_induction 10 (by decide) with
  | single digit hdigit =>
    rw [Nat.toDigits_of_lt_base hdigit, List.head?_cons, ne_eq, Option.some.injEq,
      Nat.digitChar_eq_zero]
    exact Nat.ne_of_gt hpositive
  | digit higher digit hdigit hhigher ih =>
    rw [← Nat.toDigits_append_toDigits (by decide) hhigher hdigit,
      List.head?_append_of_ne_nil _ Nat.toDigits_ne_nil]
    exact ih hhigher

/-- The exponent of a literal. -/
def Literal.exponentOf (literal : Literal) : ℤ :=
  match literal.exponent with
  | none => 0
  | some (negative, digits) => if negative then -digitsValue digits else digitsValue digits

/-- The value of a literal by its parts. -/
def Literal.value (literal : Literal) : ℚ :=
  digitsValue (literal.whole ++ literal.fraction) *
    10 ^ (literal.exponentOf - literal.fraction.length)

/-- A decimal is laid out with its value. -/
theorem value_literal (decimal : Decimal) : decimal.literal.value = decimal.value := by
  have hten : (10 : ℚ) ≠ 0 := by norm_num
  have hdigits := digitsValue_toDigits decimal.significand
  have hlength : 0 < (Nat.toDigits 10 decimal.significand).length := Nat.length_toDigits_pos
  unfold Decimal.literal
  dsimp only
  split_ifs with hlarge hpoint hsmall
  · obtain ⟨count, hcount⟩ := Int.eq_ofNat_of_zero_le (sub_nonneg.mpr hlarge.1)
    have hexponent : decimal.exponent = count := by omega
    unfold Literal.value Literal.exponentOf Decimal.value
    dsimp only
    rw [hcount, List.append_nil, Int.toNat_natCast, digitsValue_append_zeros,
      hdigits, hexponent]
    push_cast
    rw [List.length_nil, Nat.cast_zero, sub_zero, zpow_zero, mul_one, zpow_natCast]
  · have hexponent : -(((Nat.toDigits 10 decimal.significand).drop
        ((Nat.toDigits 10 decimal.significand).length + decimal.exponent).toNat).length : ℤ) =
          decimal.exponent := by
      rw [List.length_drop]
      omega
    unfold Literal.value Literal.exponentOf Decimal.value
    dsimp only
    rw [List.take_append_drop, hdigits, zero_sub, hexponent]
  · have hexponent : -((List.replicate (-((Nat.toDigits 10 decimal.significand).length +
        decimal.exponent)).toNat '0' ++ Nat.toDigits 10 decimal.significand).length : ℤ) =
          decimal.exponent := by
      rw [List.length_append, List.length_replicate]
      omega
    unfold Literal.value Literal.exponentOf Decimal.value
    dsimp only
    rw [zero_sub, hexponent, ← List.append_assoc]
    have hzeros : ['0'] ++ List.replicate (-((Nat.toDigits 10 decimal.significand).length +
        decimal.exponent)).toNat '0' = List.replicate ((-((Nat.toDigits 10
          decimal.significand).length + decimal.exponent)).toNat + 1) '0' := by
      rw [List.replicate_succ, List.singleton_append]
    rw [hzeros, digitsValue_zeros_append, hdigits]
  · have hshift : (if decide ((Nat.toDigits 10 decimal.significand).length + decimal.exponent - 1 <
        0) = true then
          -(((Nat.toDigits 10 decimal.significand).length + decimal.exponent - 1).natAbs : ℤ)
        else (((Nat.toDigits 10 decimal.significand).length + decimal.exponent - 1).natAbs : ℤ)) -
          ((Nat.toDigits 10 decimal.significand).drop 1).length = decimal.exponent := by
      rw [List.length_drop]
      split_ifs with hnegative
      · rw [decide_eq_true_eq] at hnegative
        omega
      · rw [decide_eq_true_eq] at hnegative
        omega
    unfold Literal.value Literal.exponentOf Decimal.value
    dsimp only
    rw [List.take_append_drop, hdigits, digitsValue_toDigits, hshift]

/-! ### A literal is read as it is written -/

/-- A literal of the grammar: digits, and no zero in front of other digits. -/
structure Literal.WellFormed (literal : Literal) : Prop where
  whole_ne_nil : literal.whole ≠ []
  whole : ∀ ch ∈ literal.whole, ch.isDigit
  leading : ¬ (literal.whole.length > 1 ∧ literal.whole.head? = some '0')
  fraction : ∀ ch ∈ literal.fraction, ch.isDigit
  exponent : ∀ negative digits, literal.exponent = some (negative, digits) →
    digits ≠ [] ∧ ∀ ch ∈ digits, ch.isDigit

theorem isDigit_of_mem_toDigits {number : ℕ} {ch : Char} (hch : ch ∈ Nat.toDigits 10 number) :
    ch.isDigit :=
  Nat.isDigit_of_mem_toDigits (by decide) (by decide) hch

theorem wellFormed_literal {decimal : Decimal} (hpositive : 0 < decimal.significand) :
    decimal.literal.WellFormed := by
  have hhead := head?_toDigits_ne_zero hpositive
  have hne : Nat.toDigits 10 decimal.significand ≠ [] := Nat.toDigits_ne_nil
  -- a first part of the digits begins like all of them
  have htake : ∀ count, 0 < count →
      ((Nat.toDigits 10 decimal.significand).take count).head? =
        (Nat.toDigits 10 decimal.significand).head? := by
    intro count hcount
    rw [List.head?_take, if_neg (Nat.ne_of_gt hcount)]
  have htakeNe : ∀ count, 0 < count → (Nat.toDigits 10 decimal.significand).take count ≠ [] := by
    intro count hcount hnil
    have hsame := htake count hcount
    rw [hnil] at hsame
    exact hne (List.head?_eq_none_iff.mp hsame.symm)
  unfold Decimal.literal
  dsimp only
  split_ifs with hlarge hpoint hsmall
  · constructor
    · exact List.append_ne_nil_of_left_ne_nil hne _
    · intro ch hch
      rcases List.mem_append.mp hch with hdigit | hzero
      · exact isDigit_of_mem_toDigits hdigit
      · rw [List.eq_of_mem_replicate hzero]
        rfl
    · rintro ⟨-, hzero⟩
      rw [List.head?_append_of_ne_nil _ hne] at hzero
      exact hhead hzero
    · exact List.forall_mem_nil _
    · intro negative digits hnone
      cases hnone
  · have hcount : 0 < (((Nat.toDigits 10 decimal.significand).length : ℤ) +
        decimal.exponent).toNat := by omega
    constructor
    · exact htakeNe _ hcount
    · exact fun ch hch ↦ isDigit_of_mem_toDigits (List.mem_of_mem_take hch)
    · rintro ⟨-, hzero⟩
      rw [htake _ hcount] at hzero
      exact hhead hzero
    · exact fun ch hch ↦ isDigit_of_mem_toDigits (List.mem_of_mem_drop hch)
    · intro negative digits hnone
      cases hnone
  · constructor
    · exact List.cons_ne_nil _ _
    · intro ch hch
      rw [List.mem_singleton.mp hch]
      rfl
    · rintro ⟨hlong, -⟩
      exact absurd hlong (Nat.lt_irrefl 1)
    · intro ch hch
      rcases List.mem_append.mp hch with hzero | hdigit
      · rw [List.eq_of_mem_replicate hzero]
        rfl
      · exact isDigit_of_mem_toDigits hdigit
    · intro negative digits hnone
      cases hnone
  · constructor
    · exact htakeNe 1 Nat.one_pos
    · exact fun ch hch ↦ isDigit_of_mem_toDigits (List.mem_of_mem_take hch)
    · rintro ⟨hlong, -⟩
      rw [List.length_take] at hlong
      omega
    · exact fun ch hch ↦ isDigit_of_mem_toDigits (List.mem_of_mem_drop hch)
    · intro negative digits hsome
      rw [Option.some.injEq, Prod.mk.injEq] at hsome
      rw [← hsome.2]
      exact ⟨Nat.toDigits_ne_nil, fun ch hch ↦ isDigit_of_mem_toDigits hch⟩

/-- What may stand after a number: no character that would belong to it. -/
def EndsNumber (rest : List Char) : Prop :=
  ∀ ch, rest.head? = some ch → ch.isDigit = false ∧ ch ≠ '.' ∧ ch ≠ 'e' ∧ ch ≠ 'E'

/-- A row of digits ends where no digit follows. -/
theorem takeWhile_digits {digits rest : List Char} (hdigits : ∀ ch ∈ digits, ch.isDigit)
    (hrest : ∀ ch, rest.head? = some ch → ch.isDigit = false) :
    (digits ++ rest).takeWhile Char.isDigit = digits ∧
      (digits ++ rest).dropWhile Char.isDigit = rest := by
  rw [List.takeWhile_append_of_pos hdigits, List.dropWhile_append_of_pos hdigits]
  cases rest with
  | nil => exact ⟨List.append_nil digits, rfl⟩
  | cons ch rest =>
    have hch : ¬ ch.isDigit = true := by
      rw [hrest ch rfl]
      exact Bool.false_ne_true
    rw [List.takeWhile_cons_of_neg hch, List.dropWhile_cons_of_neg hch, List.append_nil]
    exact ⟨rfl, rfl⟩

theorem readDigits_append {digits rest : List Char} (hne : digits ≠ [])
    (hdigits : ∀ ch ∈ digits, ch.isDigit)
    (hrest : ∀ ch, rest.head? = some ch → ch.isDigit = false) :
    readDigits (digits ++ rest) = some (digits, rest) := by
  obtain ⟨htake, hdrop⟩ := takeWhile_digits hdigits hrest
  unfold readDigits
  dsimp only
  rw [htake, hdrop, if_neg hne]

/-- An exponent is read as it is written. -/
theorem readExponent_exponentText {exponent : Option (Bool × List Char)} {rest : List Char}
    (hexponent : ∀ negative digits, exponent = some (negative, digits) →
      digits ≠ [] ∧ ∀ ch ∈ digits, ch.isDigit)
    (hends : EndsNumber rest) :
    readExponent (exponentText exponent ++ rest) = some (exponentText exponent, rest) := by
  cases exponent with
  | none =>
    cases rest with
    | nil => rfl
    | cons ch rest =>
      obtain ⟨-, -, hlower, hupper⟩ := hends ch rfl
      have hneither : ¬ (ch = 'e' ∨ ch = 'E') := by
        rintro (hsame | hsame)
        · exact hlower hsame
        · exact hupper hsame
      show readExponent (ch :: rest) = some ([], ch :: rest)
      unfold readExponent
      dsimp only
      rw [if_neg hneither]
  | some exponent =>
    obtain ⟨negative, digits⟩ := exponent
    obtain ⟨hne, hdigits⟩ := hexponent negative digits rfl
    have hread := readDigits_append hne hdigits fun ch hch ↦ (hends ch hch).1
    cases negative with
    | true =>
      show readExponent ('e' :: '-' :: (digits ++ rest)) = _
      rw [readExponent, if_pos (Or.inl rfl)]
      simp only [hread]
      rfl
    | false =>
      show readExponent ('e' :: '+' :: (digits ++ rest)) = _
      rw [readExponent, if_pos (Or.inl rfl)]
      simp only [hread]
      rfl

/-- The text of an exponent and what follows do not go on with digits or a point. -/
theorem head?_exponentText_append {exponent : Option (Bool × List Char)} {rest : List Char}
    (hends : EndsNumber rest) {ch : Char} (hch : (exponentText exponent ++ rest).head? = some ch) :
    ch.isDigit = false ∧ ch ≠ '.' := by
  cases exponent with
  | none =>
    obtain ⟨hdigit, hpoint, -, -⟩ := hends ch hch
    exact ⟨hdigit, hpoint⟩
  | some exponent =>
    have hmark : 'e' = ch := Option.some.inj hch
    rw [← hmark]
    decide

/-- A fraction is read as it is written. -/
theorem readFraction_fractionText {fraction rest : List Char}
    (hfraction : ∀ ch ∈ fraction, ch.isDigit)
    (hrest : ∀ ch, rest.head? = some ch → ch.isDigit = false ∧ ch ≠ '.') :
    readFraction (fractionText fraction ++ rest) = some (fractionText fraction, rest) := by
  unfold fractionText
  by_cases hnil : fraction = []
  · rw [if_pos hnil, List.nil_append]
    cases rest with
    | nil => rfl
    | cons ch rest =>
      unfold readFraction
      split
      · next hpoint =>
        rw [List.cons.injEq] at hpoint
        exact absurd hpoint.1 (hrest ch rfl).2
      · rfl
  · rw [if_neg hnil]
    show (readDigits (fraction ++ rest)).map _ = _
    rw [readDigits_append hnil hfraction fun ch hch ↦ (hrest ch hch).1]
    rfl

/-- A literal of the grammar is read as it is written. -/
theorem readUnsigned_text {literal : Literal} (hformed : literal.WellFormed) {rest : List Char}
    (hends : EndsNumber rest) :
    readUnsigned (literal.text ++ rest) = some (literal.text, rest) := by
  have hexponent := readExponent_exponentText hformed.exponent hends
  have hfraction := readFraction_fractionText hformed.fraction
    fun ch hch ↦ @head?_exponentText_append literal.exponent rest hends ch hch
  have hwhole : readDigits (literal.whole ++
      (fractionText literal.fraction ++ (exponentText literal.exponent ++ rest))) =
        some (literal.whole,
          fractionText literal.fraction ++ (exponentText literal.exponent ++ rest)) := by
    apply readDigits_append hformed.whole_ne_nil hformed.whole
    intro ch hch
    unfold fractionText at hch
    by_cases hnil : literal.fraction = []
    · rw [if_pos hnil, List.nil_append] at hch
      exact (head?_exponentText_append hends hch).1
    · rw [if_neg hnil] at hch
      have hpoint : '.' = ch := Option.some.inj hch
      rw [← hpoint]
      rfl
  have htext : literal.text ++ rest = literal.whole ++
      (fractionText literal.fraction ++ (exponentText literal.exponent ++ rest)) := by
    unfold Literal.text
    rw [List.append_assoc, List.append_assoc]
  rw [htext, readUnsigned, hwhole, Option.bind_eq_bind, Option.bind_some]
  dsimp only
  rw [if_neg hformed.leading, hfraction, Option.bind_some]
  dsimp only
  rw [hexponent]
  rfl

/-- The value of a literal is read from its text. -/
theorem unsignedValue_text {literal : Literal} (hformed : literal.WellFormed) :
    unsignedValue literal.text = literal.value := by
  have hnothing : EndsNumber [] := fun ch hch ↦ nomatch hch
  have hexponent : exponentValue (exponentText literal.exponent) = literal.exponentOf := by
    unfold Literal.exponentOf
    cases literal.exponent with
    | none => rfl
    | some exponent =>
      obtain ⟨negative, digits⟩ := exponent
      cases negative with
      | true => rfl
      | false => rfl
  have hafter : ∀ ch, (exponentText literal.exponent).head? = some ch →
      ch.isDigit = false ∧ ch ≠ '.' := by
    intro ch hch
    apply @head?_exponentText_append literal.exponent [] hnothing
    rw [List.append_nil]
    exact hch
  unfold unsignedValue Literal.text Literal.value
  dsimp only
  rw [List.append_assoc]
  by_cases hnil : literal.fraction = []
  · obtain ⟨htake, hdrop⟩ := takeWhile_digits hformed.whole fun ch hch ↦ (hafter ch hch).1
    unfold fractionText
    rw [if_pos hnil, List.nil_append, htake, hdrop, hnil, List.append_nil, List.length_nil,
      Nat.cast_zero, sub_zero, ← hexponent]
    split
    · next rest hpoint =>
      exact absurd rfl (hafter '.' (by rw [hpoint]; rfl)).2
    · rfl
  · have hpoint : ∀ ch, ('.' :: literal.fraction ++ exponentText literal.exponent).head? =
        some ch → ch.isDigit = false := by
      intro ch hch
      have hsame : '.' = ch := Option.some.inj hch
      rw [← hsame]
      rfl
    obtain ⟨htake, hdrop⟩ := takeWhile_digits hformed.whole hpoint
    obtain ⟨htakeFraction, hdropFraction⟩ :=
      takeWhile_digits hformed.fraction fun ch hch ↦ (hafter ch hch).1
    unfold fractionText
    rw [if_neg hnil, htake, hdrop]
    simp only [List.cons_append, htakeFraction, hdropFraction, hexponent]

/-! ### A number is read back -/

/-- A positive double, as it is written. -/
theorem text_shortest {value : ℚ} (hdouble : IsDouble value) (hpositive : 0 < value)
    {rest : List Char} (hends : EndsNumber rest) :
    readUnsigned ((shortest value).literal.text ++ rest) =
        some ((shortest value).literal.text, rest) ∧
      unsignedValue (shortest value).literal.text = (shortest value).value := by
  have hformed := wellFormed_literal (significand_shortest_pos hdouble hpositive)
  exact ⟨readUnsigned_text hformed hends, by rw [unsignedValue_text hformed, value_literal]⟩

theorem isDouble_neg {value : ℚ} (hdouble : IsDouble value) : IsDouble (-value) := by
  obtain ⟨significand, exponent, hsignificand, hlow, hhigh, hvalue⟩ := hdouble
  exact ⟨-significand, exponent, by rwa [abs_neg], hlow, hhigh, by
    rw [hvalue, Int.cast_neg, neg_mul]⟩

theorem text_ne_nil {literal : Literal} (hformed : literal.WellFormed) : literal.text ≠ [] := by
  unfold Literal.text
  rw [List.append_assoc]
  exact List.append_ne_nil_of_left_ne_nil hformed.whole_ne_nil _

/-- A literal begins with a digit. -/
theorem isDigit_of_head?_text {literal : Literal} (hformed : literal.WellFormed) {first : Char}
    (hfirst : literal.text.head? = some first) : first.isDigit := by
  unfold Literal.text at hfirst
  rw [List.append_assoc, List.head?_append_of_ne_nil _ hformed.whole_ne_nil] at hfirst
  exact hformed.whole first (List.mem_of_mem_head? hfirst)

theorem head?_literal_text {literal : Literal} (hformed : literal.WellFormed) :
    literal.text.head? ≠ some '-' := by
  intro hsign
  exact absurd (isDigit_of_head?_text hformed hsign) (by decide)

theorem readNumber_of_head {chars : List Char} (hhead : chars.head? ≠ some '-') :
    readNumber chars = readUnsigned chars := by
  unfold readNumber
  split
  · exact absurd rfl hhead
  · rfl

theorem literalValue_of_head {chars : List Char} (hhead : chars.head? ≠ some '-') :
    literalValue chars = unsignedValue chars := by
  unfold literalValue
  split
  · exact absurd rfl hhead
  · rfl

/-- What is written is a number of JSON. -/
theorem readNumber_decimalText {value : ℚ} (hdouble : IsDouble value) {rest : List Char}
    (hends : EndsNumber rest) :
    readNumber (decimalText value ++ rest) = some (decimalText value, rest) := by
  unfold decimalText
  split_ifs with hzero hnegative
  · have hformed : Literal.WellFormed ⟨['0'], [], none⟩ := by
      constructor
      · exact List.cons_ne_nil _ _
      · intro ch hch
        rw [List.mem_singleton.mp hch]
        rfl
      · rintro ⟨hlong, -⟩
        exact absurd hlong (Nat.lt_irrefl 1)
      · exact List.forall_mem_nil _
      · intro negative digits hnone
        cases hnone
    have hhead : (['0'] ++ rest).head? ≠ some '-' := by
      rw [List.head?_append_of_ne_nil _ (List.cons_ne_nil _ _)]
      decide
    rw [readNumber_of_head hhead]
    exact readUnsigned_text hformed hends
  · have hpositive : 0 < -value := neg_pos.mpr hnegative
    have hread := (text_shortest (isDouble_neg hdouble) hpositive hends).1
    rw [List.cons_append]
    show (readUnsigned _).map _ = _
    rw [hread]
    rfl
  · have hpositive : 0 < value := lt_of_le_of_ne (not_lt.mp hnegative) (Ne.symm hzero)
    have hformed := wellFormed_literal (significand_shortest_pos hdouble hpositive)
    have hhead : ((shortest value).literal.text ++ rest).head? ≠ some '-' := by
      rw [List.head?_append_of_ne_nil _ (text_ne_nil hformed)]
      exact head?_literal_text hformed
    rw [readNumber_of_head hhead]
    exact (text_shortest hdouble hpositive hends).1

/-- A number that is written is read back. -/
theorem round_decimalText {value : ℚ} (hdouble : IsDouble value) :
    Number.round (literalValue (decimalText value)) = .finite value := by
  have hnothing : EndsNumber [] := fun ch hch ↦ nomatch hch
  unfold decimalText
  split_ifs with hzero hnegative
  · have hvalue : literalValue ['0'] = 0 := by decide +kernel
    rw [hvalue, hzero]
    exact round_of_isDouble isDouble_zero
  · have hpositive : 0 < -value := neg_pos.mpr hnegative
    have hvalue := (text_shortest (isDouble_neg hdouble) hpositive hnothing).2
    have hround := round_shortest (isDouble_neg hdouble) hpositive
    show Number.round (-unsignedValue (shortest (-value)).literal.text) = .finite value
    rw [hvalue, round_neg hround, neg_neg]
  · have hpositive : 0 < value := lt_of_le_of_ne (not_lt.mp hnegative) (Ne.symm hzero)
    have hformed := wellFormed_literal (significand_shortest_pos hdouble hpositive)
    rw [literalValue_of_head (head?_literal_text hformed),
      (text_shortest hdouble hpositive hnothing).2]
    exact round_shortest hdouble hpositive

/-- The text of a number begins with a digit or a sign. -/
theorem head_decimalText {value : ℚ} (hdouble : IsDouble value) :
    ∃ first rest, decimalText value = first :: rest ∧ (first = '-' ∨ first.isDigit) := by
  unfold decimalText
  split_ifs with hzero hnegative
  · exact ⟨'0', [], rfl, Or.inr rfl⟩
  · exact ⟨'-', _, rfl, Or.inl rfl⟩
  · have hpositive : 0 < value := lt_of_le_of_ne (not_lt.mp hnegative) (Ne.symm hzero)
    have hformed := wellFormed_literal (significand_shortest_pos hdouble hpositive)
    obtain ⟨first, rest, htext⟩ := List.exists_cons_of_ne_nil (text_ne_nil hformed)
    have hhead : (shortest value).literal.text.head? = some first := by rw [htext, List.head?_cons]
    exact ⟨first, rest, htext, Or.inr (isDigit_of_head?_text hformed hhead)⟩

/-- A number in front of which no other value begins is read as one. -/
theorem parseValue_of_head {first : Char} (hfirst : first = '-' ∨ first.isDigit)
    (rest : List Char) (fuel : ℕ) :
    parseValue (fuel + 1) (first :: rest) =
      (readNumber (first :: rest)).map fun (literal, rest) ↦ (.number literal, rest) := by
  have hother : ∀ ch, ch ≠ '-' → ch.isDigit = false → first ≠ ch := by
    intro ch hsign hdigit hsame
    rw [hsame] at hfirst
    rcases hfirst with hminus | htrue
    · exact hsign hminus
    · rw [hdigit] at htrue
      cases htrue
  have hspace : skipSpace (first :: rest) = first :: rest := by
    unfold skipSpace
    rw [List.dropWhile_cons_of_neg]
    simp only [Bool.or_eq_true, decide_eq_true_eq, not_or]
    exact ⟨⟨⟨hother ' ' (by decide) rfl, hother '\t' (by decide) rfl⟩,
      hother '\n' (by decide) rfl⟩, hother '\r' (by decide) rfl⟩
  rw [parseValue, hspace]
  split
  case h_1 heq => exact absurd (List.cons.inj heq).1 (hother '{' (by decide) rfl)
  case h_2 heq => exact absurd (List.cons.inj heq).1 (hother '[' (by decide) rfl)
  case h_3 heq => exact absurd (List.cons.inj heq).1 (hother '"' (by decide) rfl)
  case h_4 heq => exact absurd (List.cons.inj heq).1 (hother 't' (by decide) rfl)
  case h_5 heq => exact absurd (List.cons.inj heq).1 (hother 'f' (by decide) rfl)
  case h_6 heq => exact absurd (List.cons.inj heq).1 (hother 'n' (by decide) rfl)
  case h_7 => rfl

/-- A number is read back inside an object. -/
theorem reads_decimalText {value : ℚ} (hdouble : IsDouble value) :
    Reads (decimalText value) (.number (decimalText value)) := by
  intro fuel mark rest hmark
  have hends : EndsNumber (mark :: rest) := by
    intro ch hch
    rw [List.head?_cons, Option.some.injEq] at hch
    rw [← hch]
    rcases hmark with hcomma | hbrace
    · rw [hcomma]
      decide
    · rw [hbrace]
      decide
  have hread := readNumber_decimalText hdouble hends
  obtain ⟨first, digits, htext, hfirst⟩ := head_decimalText hdouble
  rw [htext] at hread ⊢
  rw [List.cons_append] at hread ⊢
  rw [parseValue_of_head hfirst, hread]
  rfl

theorem reads_null : Reads ['n', 'u', 'l', 'l'] .null := by
  intro fuel mark rest _
  rfl

end OpfsWebauthn.Foundation
