import Mathlib.Data.List.Basic

/-!
# JavaScript strings

A JavaScript string is a sequence of 16-bit code units, in which a surrogate may stand alone. What
leaves the page as text is a `USVString`, in which each lone surrogate has become U+FFFD;
`jsString_usvString_eq_self_iff` says which strings survive that.
-/

set_option autoImplicit false
set_option relaxedAutoImplicit false

namespace OpfsWebauthn.Foundation

/-! ### Code units -/

/-- A JavaScript string. -/
abbrev JsString := List UInt16

/-- The first half of a pair. -/
def isHighSurrogate (unit : UInt16) : Bool :=
  0xd800 ≤ unit.toNat && unit.toNat ≤ 0xdbff

/-- The second half of a pair. -/
def isLowSurrogate (unit : UInt16) : Bool :=
  0xdc00 ≤ unit.toNat && unit.toNat ≤ 0xdfff

/-- The code units of a character. -/
def codeUnits (ch : Char) : JsString :=
  if ch.toNat < 0x10000 then [UInt16.ofNat ch.toNat]
  else [UInt16.ofNat (0xd800 + (ch.toNat - 0x10000) / 0x400),
    UInt16.ofNat (0xdc00 + (ch.toNat - 0x10000) % 0x400)]

/-- The code units of a text. -/
def jsString (text : String) : JsString :=
  text.toList.flatMap codeUnits

/-- The character of a pair of surrogates. -/
def pairedChar (high low : UInt16) : Char :=
  Char.ofNat (0x10000 + (high.toNat - 0xd800) * 0x400 + (low.toNat - 0xdc00))

/-- No character begins with the code units of another. -/
theorem codeUnits_append_inj {first second : Char} {after later : JsString}
    (hunits : codeUnits first ++ after = codeUnits second ++ later) :
    first = second ∧ after = later := by
  have hfirst : first.toNat < 0xd800 ∨ 0xdfff < first.toNat ∧ first.toNat < 0x110000 := first.valid
  have hsecond : second.toNat < 0xd800 ∨ 0xdfff < second.toNat ∧ second.toNat < 0x110000 :=
    second.valid
  have hsame : first.toNat = second.toNat → first = second := fun hnumbers ↦ by
    rw [← Char.ofNat_toNat first, hnumbers, Char.ofNat_toNat]
  have hnumbers : ∀ number other : ℕ, UInt16.ofNat number = UInt16.ofNat other →
      number % 2 ^ 16 = other % 2 ^ 16 := by
    intro number other hunit
    have hnats := congrArg UInt16.toNat hunit
    rwa [UInt16.toNat_ofNat', UInt16.toNat_ofNat'] at hnats
  unfold codeUnits at hunits
  -- a character below 65536 is no surrogate, and one from there on begins with one
  by_cases hsmall : first.toNat < 0x10000
  · by_cases hother : second.toNat < 0x10000
    · simp only [if_pos hsmall, if_pos hother, List.cons_append, List.nil_append,
        List.cons.injEq] at hunits
      have hnumber := hnumbers _ _ hunits.1
      exact ⟨hsame (by omega), hunits.2⟩
    · simp only [if_pos hsmall, if_neg hother, List.cons_append, List.nil_append,
        List.cons.injEq] at hunits
      have hnumber := hnumbers _ _ hunits.1
      omega
  · by_cases hother : second.toNat < 0x10000
    · simp only [if_neg hsmall, if_pos hother, List.cons_append, List.nil_append,
        List.cons.injEq] at hunits
      have hnumber := hnumbers _ _ hunits.1
      omega
    · simp only [if_neg hsmall, if_neg hother, List.cons_append, List.nil_append,
        List.cons.injEq] at hunits
      have hhigh := hnumbers _ _ hunits.1
      have hlow := hnumbers _ _ hunits.2.1
      exact ⟨hsame (by omega), hunits.2.2⟩

/-- Different texts have different code units. -/
theorem jsString_injective : Function.Injective jsString := by
  have hchars : ∀ first second : List Char,
      first.flatMap codeUnits = second.flatMap codeUnits → first = second := by
    intro first
    induction first with
    | nil =>
      intro second hunits
      cases second with
      | nil => rfl
      | cons ch rest =>
        have hnone : codeUnits ch = [] := (List.append_eq_nil_iff.mp hunits.symm).1
        unfold codeUnits at hnone
        split at hnone <;> cases hnone
    | cons ch rest ih =>
      intro second hunits
      cases second with
      | nil =>
        have hnone : codeUnits ch = [] := (List.append_eq_nil_iff.mp hunits).1
        unfold codeUnits at hnone
        split at hnone <;> cases hnone
      | cons other later =>
        obtain ⟨hch, hrest⟩ := codeUnits_append_inj hunits
        rw [hch, ih later hrest]
  exact fun first second hunits ↦ String.toList_inj.mp (hchars _ _ hunits)

/-! ### Text -/

/-- The character of a code unit that is not half of a pair. -/
def scalarValue (unit : UInt16) : Char :=
  if isHighSurrogate unit || isLowSurrogate unit then '\uFFFD' else Char.ofNat unit.toNat

/-- The characters of a string. -/
def scalarValues : JsString → List Char
  | [] => []
  | [unit] => [scalarValue unit]
  | first :: second :: rest =>
    if isHighSurrogate first && isLowSurrogate second then
      pairedChar first second :: scalarValues rest
    else scalarValue first :: scalarValues (second :: rest)

/-- The `USVString` of a string. -/
def usvString (text : JsString) : String :=
  String.ofList (scalarValues text)

/-- `isWellFormed()`: no surrogate stands alone. -/
def isWellFormed : JsString → Bool
  | [] => true
  | [unit] => !(isHighSurrogate unit || isLowSurrogate unit)
  | first :: second :: rest =>
    if isHighSurrogate first && isLowSurrogate second then isWellFormed rest
    else !(isHighSurrogate first || isLowSurrogate first) && isWellFormed (second :: rest)

/-- The character of a number outside the surrogates. -/
theorem toNat_ofNat_of_isValidChar {number : ℕ} (hvalid : number.isValidChar) :
    (Char.ofNat number).toNat = number := by
  rw [Char.ofNat, dif_pos hvalid]
  rfl

/-- A character below 65536 has its number as its one code unit. -/
theorem codeUnits_ofNat_toNat {unit : UInt16} (hvalid : unit.toNat.isValidChar) :
    codeUnits (Char.ofNat unit.toNat) = [unit] := by
  have hbound : unit.toNat < 65536 := unit.toNat_lt
  rw [codeUnits, toNat_ofNat_of_isValidChar hvalid, if_pos hbound, UInt16.ofNat_toNat]

/-- The character of a pair has the pair as its code units. -/
theorem codeUnits_pairedChar {high low : UInt16} (hhigh : isHighSurrogate high = true)
    (hlow : isLowSurrogate low = true) :
    codeUnits (pairedChar high low) = [high, low] ∧ 0x10000 ≤ (pairedChar high low).toNat := by
  unfold isHighSurrogate at hhigh
  unfold isLowSurrogate at hlow
  simp only [Bool.and_eq_true, decide_eq_true_eq] at hhigh hlow
  have hvalid : (0x10000 + (high.toNat - 0xd800) * 0x400 + (low.toNat - 0xdc00)).isValidChar := by
    right
    omega
  have hnumber := toNat_ofNat_of_isValidChar hvalid
  have hfirst : 0xd800 + (0x10000 + (high.toNat - 0xd800) * 0x400 + (low.toNat - 0xdc00) -
      0x10000) / 0x400 = high.toNat := by omega
  have hsecond : 0xdc00 + (0x10000 + (high.toNat - 0xd800) * 0x400 + (low.toNat - 0xdc00) -
      0x10000) % 0x400 = low.toNat := by omega
  have hlarge : ¬ 0x10000 + (high.toNat - 0xd800) * 0x400 + (low.toNat - 0xdc00) < 0x10000 := by
    omega
  refine ⟨?_, ?_⟩
  · rw [codeUnits, pairedChar, hnumber, if_neg hlarge, hfirst, hsecond, UInt16.ofNat_toNat,
      UInt16.ofNat_toNat]
  · rw [pairedChar, hnumber]
    omega

/-- A code unit that is not half of a pair is one character. -/
theorem codeUnits_scalarValue {unit : UInt16}
    (hlone : (isHighSurrogate unit || isLowSurrogate unit) = false) :
    codeUnits (scalarValue unit) = [unit] := by
  have hbound : unit.toNat < 65536 := unit.toNat_lt
  have hvalid : unit.toNat.isValidChar := by
    simp only [isHighSurrogate, isLowSurrogate, Bool.or_eq_false_iff, Bool.and_eq_false_iff,
      decide_eq_false_iff_not] at hlone
    unfold Nat.isValidChar
    omega
  rw [scalarValue, if_neg (by rw [hlone]; decide), codeUnits_ofNat_toNat hvalid]

/-- Half of a pair is replaced. -/
theorem codeUnits_scalarValue_of_lone {unit : UInt16}
    (hlone : (isHighSurrogate unit || isLowSurrogate unit) = true) :
    codeUnits (scalarValue unit) = [0xfffd] ∧ unit ≠ 0xfffd := by
  refine ⟨?_, ?_⟩
  · rw [scalarValue, if_pos hlone]
    decide
  · rintro rfl
    revert hlone
    decide

/-- A text has as many code units as its string. -/
theorem length_jsString_usvString (text : JsString) :
    (jsString (usvString text)).length = text.length := by
  have hunit : ∀ unit, (codeUnits (scalarValue unit)).length = 1 := by
    intro unit
    cases hlone : isHighSurrogate unit || isLowSurrogate unit with
    | true =>
      rw [(codeUnits_scalarValue_of_lone hlone).1]
      rfl
    | false =>
      rw [codeUnits_scalarValue hlone]
      rfl
  rw [jsString, usvString, String.toList_ofList]
  induction text using scalarValues.induct with
  | case1 => rfl
  | case2 unit => rw [scalarValues, List.flatMap_singleton, hunit, List.length_singleton]
  | case3 first second rest hpair ih =>
    rw [scalarValues, if_pos hpair, List.flatMap_cons, List.length_append, ih]
    rw [Bool.and_eq_true] at hpair
    rw [(codeUnits_pairedChar hpair.1 hpair.2).1]
    simp only [List.length_cons, List.length_nil]
    omega
  | case4 first second rest hpair ih =>
    rw [scalarValues, if_neg hpair, List.flatMap_cons, List.length_append, ih, hunit,
      List.length_cons (a := first), Nat.add_comm]

/-- The strings that stay what they are as a text are the well-formed ones. -/
theorem jsString_usvString_eq_self_iff (text : JsString) :
    jsString (usvString text) = text ↔ isWellFormed text = true := by
  have hunit : ∀ unit rest later, codeUnits (scalarValue unit) ++ rest = unit :: later ↔
      (!(isHighSurrogate unit || isLowSurrogate unit)) = true ∧ rest = later := by
    intro unit rest later
    cases hlone : isHighSurrogate unit || isLowSurrogate unit with
    | true =>
      obtain ⟨hunits, hother⟩ := codeUnits_scalarValue_of_lone hlone
      rw [hunits]
      exact iff_of_false (fun hsame ↦ hother (List.cons.inj hsame).1.symm) nofun
    | false =>
      rw [codeUnits_scalarValue hlone, List.singleton_append, List.cons.injEq]
      exact and_congr_left fun _ ↦ iff_of_true rfl rfl
  rw [jsString, usvString, String.toList_ofList]
  induction text using scalarValues.induct with
  | case1 => exact iff_of_true rfl rfl
  | case2 unit =>
    have hone := hunit unit [] []
    rw [List.append_nil, and_iff_left rfl] at hone
    rw [scalarValues, List.flatMap_singleton, isWellFormed, hone]
  | case3 first second rest hpair ih =>
    rw [scalarValues, if_pos hpair, isWellFormed, if_pos hpair, List.flatMap_cons]
    rw [Bool.and_eq_true] at hpair
    rw [(codeUnits_pairedChar hpair.1 hpair.2).1]
    simp only [List.cons_append, List.nil_append, List.cons.injEq, true_and]
    exact ih
  | case4 first second rest hpair ih =>
    rw [scalarValues, if_neg hpair, isWellFormed, if_neg hpair, List.flatMap_cons, hunit,
      Bool.and_eq_true]
    exact and_congr_right' ih

/-- The code unit of a character is not half of a pair. -/
theorem not_surrogate_ofNat_toNat {ch : Char} (hsmall : ch.toNat < 0x10000) :
    (isHighSurrogate (UInt16.ofNat ch.toNat) || isLowSurrogate (UInt16.ofNat ch.toNat)) =
      false := by
  have hvalid : ch.toNat < 0xd800 ∨ 0xdfff < ch.toNat ∧ ch.toNat < 0x110000 := ch.valid
  have hnumber : (UInt16.ofNat ch.toNat).toNat = ch.toNat := by
    rw [UInt16.toNat_ofNat', Nat.mod_eq_of_lt hsmall]
  simp only [isHighSurrogate, isLowSurrogate, hnumber, Bool.or_eq_false_iff,
    Bool.and_eq_false_iff, decide_eq_false_iff_not]
  omega

/-- A text begins with an ordinary character where its string begins with the code unit. -/
theorem head?_scalarValues_iff {ch : Char} (hsmall : ch.toNat < 0x10000)
    (hordinary : ch ≠ '\uFFFD') (text : JsString) :
    (scalarValues text).head? = some ch ↔ text.head? = some (UInt16.ofNat ch.toNat) := by
  have hunit : ∀ unit, scalarValue unit = ch ↔ unit = UInt16.ofNat ch.toNat := by
    intro unit
    have hunits : codeUnits ch = [UInt16.ofNat ch.toNat] := by rw [codeUnits, if_pos hsmall]
    cases hlone : isHighSurrogate unit || isLowSurrogate unit with
    | true =>
      rw [scalarValue, if_pos hlone]
      refine iff_of_false (fun hsame ↦ hordinary hsame.symm) ?_
      rintro rfl
      rw [not_surrogate_ofNat_toNat hsmall] at hlone
      cases hlone
    | false =>
      have hsame := codeUnits_scalarValue hlone
      constructor
      · rintro rfl
        rw [hsame] at hunits
        exact (List.cons.inj hunits).1
      · rintro rfl
        have hinj := (@codeUnits_append_inj (scalarValue (UInt16.ofNat ch.toNat)) ch [] [])
        rw [List.append_nil, List.append_nil] at hinj
        exact (hinj (hsame.trans hunits.symm)).1
  cases text with
  | nil => exact iff_of_false nofun nofun
  | cons first rest =>
    cases rest with
    | nil =>
      rw [scalarValues, List.head?_cons, List.head?_cons, Option.some.injEq, Option.some.injEq,
        hunit]
    | cons second rest =>
      rw [scalarValues]
      split_ifs with hpair
      · rw [Bool.and_eq_true] at hpair
        have hlarge := (codeUnits_pairedChar hpair.1 hpair.2).2
        refine iff_of_false ?_ ?_
        · intro hsame
          rw [Option.some.inj hsame] at hlarge
          omega
        · intro hsame
          have hlone := not_surrogate_ofNat_toNat hsmall
          rw [← Option.some.inj hsame, hpair.1] at hlone
          cases hlone
      · rw [List.head?_cons, List.head?_cons, Option.some.injEq, Option.some.injEq, hunit]

end OpfsWebauthn.Foundation
