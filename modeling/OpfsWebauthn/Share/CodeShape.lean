import OpfsWebauthn.Share.EndToEnd

/-!
# Which texts are pickup codes

`normalizeCode` on every JavaScript string, in which a surrogate may stand alone. On a text it is
`normalizeCode` of the text's characters (`normalizeUnits_jsString`). What it accepts are twelve
digits and letters of ASCII between separators, in either letter case, and besides them texts with a
character outside ASCII whose upper case is in ASCII. What it returns it returns unchanged, and the
displayed form of a commitment is normalized to the commitment.
-/

set_option autoImplicit false
set_option relaxedAutoImplicit false

namespace OpfsWebauthn.Share

open Foundation Storage Crypto

/-! ### Code units -/

/-- The character that a code unit stands for by itself; a surrogate stands for none. -/
def unitChar? (unit : UInt16) : Option Char :=
  if isHighSurrogate unit || isLowSurrogate unit then none else some (Char.ofNat unit.toNat)

/-- The code units of the class `[\s-]`. -/
def isSeparatorUnit (unit : UInt16) : Bool :=
  (unitChar? unit).any isSeparator

/-- `toUpperCase()` on one code unit, as far as the result is in ASCII: that of a pair of surrogates
is outside. -/
def upperCaseUnit (unit : UInt16) : JsString :=
  match unitChar? unit with
  | none => [unit]
  | some ch => (upperCase ch).flatMap codeUnits

/-- The code units that `CODE_PATTERN` admits. -/
def isCodeUnit (unit : UInt16) : Bool :=
  (unitChar? unit).any isCodeChar

/-- `raw.replace(/[\s-]+/g, "")`. -/
def withoutSeparators (raw : JsString) : JsString :=
  raw.filter fun unit ↦ !isSeparatorUnit unit

/-- `normalizeCode(raw)` on any string. -/
def normalizeUnits (raw : JsString) : Option JsString :=
  let cleaned := (withoutSeparators raw).flatMap upperCaseUnit
  if cleaned.length = codeLen ∧ cleaned.all isCodeUnit then some cleaned else none

/-- The digits and letters of ASCII. -/
def isAlphanumericUnit (unit : UInt16) : Bool :=
  (unitChar? unit).any fun ch ↦ ch.isDigit || ch.isUpper || ch.isLower

/-- The capital letter of a code unit in ASCII. -/
def capital (unit : UInt16) : UInt16 :=
  UInt16.ofNat (Char.ofNat unit.toNat).toUpper.toNat

/-- Whether a code unit outside ASCII has a character of ASCII in its upper case, as `ß` has. -/
def UpperCasesIntoAscii (unit : UInt16) : Prop :=
  0x7f < unit.toNat ∧ ∃ other ∈ upperCaseUnit unit, other.toNat ≤ 0x7f

/-- The code units of the Crockford alphabet, in either letter case. -/
def isCrockfordUnit (unit : UInt16) : Bool :=
  (unitChar? unit).any fun ch ↦ ch.toUpper ∈ RowId.crockford

/-! ### Texts -/

/-- A character below 65536 is one code unit, which stands for it. -/
theorem codeUnits_of_small {ch : Char} (hsmall : ch.toNat < 0x10000) :
    codeUnits ch = [UInt16.ofNat ch.toNat] ∧ unitChar? (UInt16.ofNat ch.toNat) = some ch := by
  have hunit : (UInt16.ofNat ch.toNat).toNat = ch.toNat := by
    rw [UInt16.toNat_ofNat']
    omega
  have hvalid : ch.toNat < 0xd800 ∨ 0xdfff < ch.toNat ∧ ch.toNat < 0x110000 := ch.valid
  have hsurrogate : ¬ (isHighSurrogate (UInt16.ofNat ch.toNat) ||
      isLowSurrogate (UInt16.ofNat ch.toNat)) = true := by
    unfold isHighSurrogate isLowSurrogate
    rw [hunit]
    simp only [Bool.or_eq_true, Bool.and_eq_true, decide_eq_true_eq]
    omega
  unfold unitChar?
  rw [if_neg hsurrogate, hunit, Char.ofNat_toNat]
  exact ⟨if_pos hsmall, rfl⟩

/-- A code unit has the number of its character. -/
theorem toNat_of_unitChar? {unit : UInt16} {ch : Char} (hch : unitChar? unit = some ch) :
    ch.toNat = unit.toNat := by
  unfold unitChar? at hch
  split_ifs at hch with hsurrogate
  obtain rfl := Option.some.inj hch
  have hvalid : unit.toNat.isValidChar := by
    have hbound : unit.toNat < 65536 := unit.toNat_lt
    unfold isHighSurrogate isLowSurrogate at hsurrogate
    simp only [Bool.or_eq_true, Bool.and_eq_true, decide_eq_true_eq] at hsurrogate
    unfold Nat.isValidChar
    omega
  exact toNat_ofNat_of_isValidChar hvalid

/-- A character from 65536 on is a pair of surrogates. -/
theorem codeUnits_of_large {ch : Char} (hlarge : ¬ ch.toNat < 0x10000) :
    ∃ high low, codeUnits ch = [high, low] ∧ unitChar? high = none ∧ unitChar? low = none := by
  have hvalid : ch.toNat < 0xd800 ∨ 0xdfff < ch.toNat ∧ ch.toNat < 0x110000 := ch.valid
  refine ⟨_, _, if_neg hlarge, if_pos ?_, if_pos ?_⟩
  · unfold isHighSurrogate
    rw [UInt16.toNat_ofNat', Bool.or_eq_true, Bool.and_eq_true, decide_eq_true_eq,
      decide_eq_true_eq]
    omega
  · unfold isLowSurrogate
    rw [UInt16.toNat_ofNat', Bool.or_eq_true, Bool.and_eq_true, decide_eq_true_eq,
      decide_eq_true_eq]
    omega

/-- A character from 65536 on is no separator and no character of a code, and has no letter case
here. -/
theorem large_char {ch : Char} (hlarge : ¬ ch.toNat < 0x10000) :
    isSeparator ch = false ∧ upperCase ch = [ch] ∧ isCodeChar ch = false := by
  refine ⟨?_, ?_, ?_⟩
  · have hdash : ch ≠ '-' := by
      rintro rfl
      exact hlarge (by decide)
    unfold isSeparator isSpace
    simp only [Bool.or_eq_false_iff, Bool.and_eq_false_iff, decide_eq_false_iff_not]
    refine ⟨?_, hdash⟩
    omega
  · unfold upperCase
    split
    all_goals first | omega | skip
    rw [(toLower_toUpper_of_large (by omega)).2]
  · rw [← Bool.not_eq_true]
    intro hcode
    have hsmall : ch.toNat ≤ 0x7f := val_le_of_isCodeChar hcode
    omega

/-- The code units of a character are dropped together, or none of them. -/
theorem withoutSeparators_codeUnits (ch : Char) :
    withoutSeparators (codeUnits ch) = if isSeparator ch then [] else codeUnits ch := by
  by_cases hsmall : ch.toNat < 0x10000
  · obtain ⟨hunits, hchar⟩ := codeUnits_of_small hsmall
    have hsame : isSeparatorUnit (UInt16.ofNat ch.toNat) = isSeparator ch := by
      rw [isSeparatorUnit, hchar, Option.any_some]
    rw [hunits, withoutSeparators, List.filter_singleton, hsame]
    cases isSeparator ch <;> rfl
  · obtain ⟨high, low, hunits, hhigh, hlow⟩ := codeUnits_of_large hsmall
    have hkept : ∀ unit ∈ [high, low], (!isSeparatorUnit unit) = true := by
      simp [isSeparatorUnit, hhigh, hlow]
    rw [(large_char hsmall).1, if_neg Bool.false_ne_true, hunits]
    exact List.filter_eq_self.mpr hkept

/-- The code units of a character are upper-cased as the character is. -/
theorem upperCase_codeUnits (ch : Char) :
    (codeUnits ch).flatMap upperCaseUnit = (upperCase ch).flatMap codeUnits := by
  by_cases hsmall : ch.toNat < 0x10000
  · obtain ⟨hunits, hchar⟩ := codeUnits_of_small hsmall
    rw [hunits, List.flatMap_singleton, upperCaseUnit, hchar]
  · obtain ⟨high, low, hunits, hhigh, hlow⟩ := codeUnits_of_large hsmall
    rw [(large_char hsmall).2.1, List.flatMap_singleton, hunits]
    simp [upperCaseUnit, hhigh, hlow]

/-- What is left of a text before the pattern is tested. -/
theorem cleaned_jsString (chars : List Char) :
    (withoutSeparators (chars.flatMap codeUnits)).flatMap upperCaseUnit =
      ((chars.filter fun ch ↦ !isSeparator ch).flatMap upperCase).flatMap codeUnits := by
  induction chars with
  | nil => rfl
  | cons ch rest ih =>
    have hsplit : withoutSeparators ((ch :: rest).flatMap codeUnits) =
        withoutSeparators (codeUnits ch) ++ withoutSeparators (rest.flatMap codeUnits) := by
      unfold withoutSeparators
      rw [List.flatMap_cons, List.filter_append]
    rw [hsplit, List.flatMap_append, ih, withoutSeparators_codeUnits]
    by_cases hseparator : isSeparator ch = true
    · rw [if_pos hseparator, List.filter_cons_of_neg (by simp [hseparator])]
      rfl
    · rw [if_neg hseparator, List.filter_cons_of_pos (by simp [hseparator]), List.flatMap_cons,
        List.flatMap_append, upperCase_codeUnits]

/-- The pattern admits a text by its characters or by its code units. -/
theorem pattern_jsString (chars : List Char) :
    ((chars.flatMap codeUnits).length = codeLen ∧ (chars.flatMap codeUnits).all isCodeUnit) ↔
      (chars.length = codeLen ∧ chars.all isCodeChar) := by
  have hunit : ∀ ch, (codeUnits ch).all isCodeUnit = isCodeChar ch := by
    intro ch
    by_cases hsmall : ch.toNat < 0x10000
    · obtain ⟨hunits, hchar⟩ := codeUnits_of_small hsmall
      rw [hunits, List.all_cons, List.all_nil, Bool.and_true, isCodeUnit, hchar, Option.any_some]
    · obtain ⟨high, low, hunits, hhigh, -⟩ := codeUnits_of_large hsmall
      rw [hunits, (large_char hsmall).2.2]
      simp [isCodeUnit, hhigh]
  have hall : (chars.flatMap codeUnits).all isCodeUnit = chars.all isCodeChar := by
    rw [List.all_flatMap]
    simp only [hunit]
  rw [hall]
  refine and_congr_left fun hchars ↦ ?_
  have hlength : (chars.flatMap codeUnits).length = chars.length := by
    have hsingle : ∀ ch ∈ chars, codeUnits ch = [UInt16.ofNat ch.toNat] := by
      intro ch hch
      have hascii : ch.toNat ≤ 0x7f := val_le_of_isCodeChar (List.all_eq_true.mp hchars ch hch)
      exact (codeUnits_of_small (by omega)).1
    rw [List.flatMap_congr hsingle, ← List.map_eq_flatMap, List.length_map]
  rw [hlength]

/-- On a text `normalizeCode` works on its characters. -/
theorem normalizeUnits_jsString (raw : String) :
    normalizeUnits (jsString raw) = (normalizeCode raw).map jsString := by
  unfold normalizeUnits normalizeCode jsString
  dsimp only
  rw [cleaned_jsString]
  by_cases hpattern : ((raw.toList.filter fun ch ↦ !isSeparator ch).flatMap upperCase).length =
      codeLen ∧ ((raw.toList.filter fun ch ↦ !isSeparator ch).flatMap upperCase).all isCodeChar
  · rw [if_pos hpattern, if_pos ((pattern_jsString _).mpr hpattern), Option.map_some,
      String.toList_ofList]
  · rw [if_neg hpattern, if_neg fun hunits ↦ hpattern ((pattern_jsString _).mp hunits)]
    rfl

/-! ### What is accepted -/

/-- Below 128 a code unit is its own character, its upper case is the capital letter, and that is
admitted when the code unit is a digit or a letter. -/
theorem ascii_unit : ∀ number < 128,
    upperCaseUnit (UInt16.ofNat number) = [capital (UInt16.ofNat number)] ∧
      isCodeUnit (capital (UInt16.ofNat number)) = isAlphanumericUnit (UInt16.ofNat number) := by
  decide +kernel

/-- An upper case is not empty. -/
theorem upperCaseUnit_ne_nil (unit : UInt16) : upperCaseUnit unit ≠ [] := by
  have hunits : ∀ ch, codeUnits ch ≠ [] := by
    intro ch
    unfold codeUnits
    split_ifs
    · exact List.cons_ne_nil _ _
    · exact List.cons_ne_nil _ _
  have hupper : ∀ ch, upperCase ch ≠ [] := by
    intro ch
    unfold upperCase
    split
    all_goals exact List.cons_ne_nil _ _
  unfold upperCaseUnit
  split
  · exact List.cons_ne_nil _ _
  · next ch _ =>
    obtain ⟨first, rest, hfirst⟩ := List.exists_cons_of_ne_nil (hupper ch)
    rw [hfirst, List.flatMap_cons]
    exact List.append_ne_nil_of_left_ne_nil (hunits first) _

/-- A code unit outside ASCII is not admitted, and no digit or letter. -/
theorem outside_ascii {unit : UInt16} (hlarge : 0x7f < unit.toNat) :
    isCodeUnit unit = false ∧ isAlphanumericUnit unit = false := by
  have hchar : ∀ ch, unitChar? unit = some ch → 0x7f < ch.toNat := by
    intro ch hch
    rw [toNat_of_unitChar? hch]
    exact hlarge
  unfold isCodeUnit isAlphanumericUnit
  constructor
  · rw [← Bool.not_eq_true, Option.any_eq_true]
    rintro ⟨ch, hch, hcode⟩
    have hsmall : ch.toNat ≤ 0x7f := val_le_of_isCodeChar hcode
    exact absurd (hchar ch hch) (Nat.not_lt.mpr hsmall)
  · rw [← Bool.not_eq_true, Option.any_eq_true]
    rintro ⟨ch, hch, hcode⟩
    have hsmall : ch.toNat ≤ 0x7f := by
      rw [Bool.or_eq_true, Bool.or_eq_true] at hcode
      rcases hcode with (hdigit | hupper) | hlower
      · simp only [Char.isDigit, Bool.and_eq_true, decide_eq_true_eq] at hdigit
        exact Nat.le_trans hdigit.2 (by decide)
      · have hrange : ch.val ≥ 'A'.val ∧ ch.val ≤ 'Z'.val := of_decide_eq_true hupper
        exact Nat.le_trans hrange.2 (by decide)
      · have hrange : ch.val ≤ 'z'.val :=
          of_decide_eq_true (Bool.and_eq_true_iff.mp hlower).2
        exact Nat.le_trans hrange (by decide)
    exact absurd (hchar ch hch) (Nat.not_lt.mpr hsmall)

/-- The upper case of a code unit is admitted when the code unit is a digit or a letter of ASCII,
unless it upper-cases into ASCII. -/
theorem all_upperCaseUnit {unit : UInt16} (hordinary : ¬ UpperCasesIntoAscii unit) :
    (upperCaseUnit unit).all isCodeUnit = isAlphanumericUnit unit ∧
      (isAlphanumericUnit unit = true → upperCaseUnit unit = [capital unit]) := by
  by_cases hsmall : unit.toNat < 128
  · obtain ⟨hupper, hcode⟩ := ascii_unit unit.toNat hsmall
    rw [UInt16.ofNat_toNat] at hupper hcode
    rw [hupper, List.all_cons, List.all_nil, Bool.and_true, hcode]
    exact ⟨rfl, fun _ ↦ rfl⟩
  · obtain ⟨-, hother⟩ := outside_ascii (by omega : 0x7f < unit.toNat)
    rw [hother]
    refine ⟨?_, fun hcase ↦ absurd hcase Bool.false_ne_true⟩
    obtain ⟨first, rest, hfirst⟩ := List.exists_cons_of_ne_nil (upperCaseUnit_ne_nil unit)
    have hlarge : 0x7f < first.toNat := by
      by_contra hascii
      exact hordinary ⟨by omega, first, by rw [hfirst]; exact List.mem_cons_self, by omega⟩
    rw [hfirst, List.all_cons, (outside_ascii hlarge).1, Bool.false_and]

/-- What is kept is admitted after upper-casing when it consists of digits and letters of ASCII. -/
theorem all_cleaned {kept : JsString} (hordinary : ∀ unit ∈ kept, ¬ UpperCasesIntoAscii unit) :
    (kept.flatMap upperCaseUnit).all isCodeUnit = kept.all isAlphanumericUnit ∧
      (kept.all isAlphanumericUnit = true → kept.flatMap upperCaseUnit = kept.map capital) := by
  induction kept with
  | nil => exact ⟨rfl, fun _ ↦ rfl⟩
  | cons unit rest ih =>
    rw [List.forall_mem_cons] at hordinary
    obtain ⟨hall, hcapitals⟩ := ih hordinary.2
    obtain ⟨hunit, hcapital⟩ := all_upperCaseUnit hordinary.1
    rw [List.flatMap_cons, List.all_append, hall, hunit, List.all_cons, List.map_cons]
    refine ⟨rfl, fun halphanumeric ↦ ?_⟩
    rw [Bool.and_eq_true] at halphanumeric
    rw [hcapital halphanumeric.1, hcapitals halphanumeric.2, List.singleton_append]

/-- Without characters that upper-case into ASCII, twelve digits and letters of ASCII between
separators are accepted, as their capital letters, and nothing else is. -/
theorem normalizeUnits_eq_some_iff {raw code : JsString}
    (hordinary : ∀ unit ∈ raw, ¬ UpperCasesIntoAscii unit) :
    normalizeUnits raw = some code ↔
      (withoutSeparators raw).length = codeLen ∧
      (∀ unit ∈ withoutSeparators raw, isAlphanumericUnit unit = true) ∧
      code = (withoutSeparators raw).map capital := by
  have hkept : ∀ unit ∈ withoutSeparators raw, ¬ UpperCasesIntoAscii unit :=
    fun unit hunit ↦ hordinary unit (List.mem_filter.mp hunit).1
  obtain ⟨hall, hcapitals⟩ := all_cleaned hkept
  unfold normalizeUnits
  dsimp only
  rw [hall, ← List.all_eq_true]
  constructor
  · intro hsome
    split_ifs at hsome with hpattern
    rw [hcapitals hpattern.2, List.length_map] at hpattern
    rw [hcapitals hpattern.2] at hsome
    exact ⟨hpattern.1, hpattern.2, (Option.some.inj hsome).symm⟩
  · rintro ⟨hlength, halphanumeric, rfl⟩
    rw [hcapitals halphanumeric, List.length_map]
    exact if_pos ⟨hlength, halphanumeric⟩

/-- Admitted code units are the text of admitted characters. -/
theorem exists_chars {units : JsString} (hunits : units.all isCodeUnit = true) :
    ∃ chars : List Char, units = jsString (String.ofList chars) ∧ chars.length = units.length ∧
      chars.all isCodeChar = true := by
  induction units with
  | nil => exact ⟨[], rfl, rfl, rfl⟩
  | cons unit rest ih =>
    rw [List.all_cons, Bool.and_eq_true] at hunits
    obtain ⟨chars, rfl, hlength, hchars⟩ := ih hunits.2
    obtain ⟨ch, hch, hcode⟩ := (Option.any_eq_true _ _).mp hunits.1
    have hsmall : ch.toNat ≤ 0x7f := val_le_of_isCodeChar hcode
    have hunit : unit = UInt16.ofNat ch.toNat := by
      rw [toNat_of_unitChar? hch, UInt16.ofNat_toNat]
    refine ⟨ch :: chars, ?_, ?_, ?_⟩
    · unfold jsString
      rw [String.toList_ofList, String.toList_ofList, List.flatMap_cons,
        (codeUnits_of_small (by omega)).1, hunit]
      rfl
    · rw [List.length_cons, List.length_cons, hlength]
    · rw [List.all_cons, hcode, hchars]
      rfl

/-- What is returned is returned unchanged. -/
theorem normalizeUnits_idempotent {raw code : JsString} (hcode : normalizeUnits raw = some code) :
    code.length = codeLen ∧ code.all isCodeUnit = true ∧ normalizeUnits code = some code := by
  unfold normalizeUnits at hcode
  dsimp only at hcode
  split_ifs at hcode with hpattern
  obtain rfl := Option.some.inj hcode
  obtain ⟨chars, hchars, hlength, hall⟩ := exists_chars hpattern.2
  refine ⟨hpattern.1, hpattern.2, ?_⟩
  rw [hchars, normalizeUnits_jsString, normalizeCode_eq_self (hlength.trans hpattern.1) hall]
  rfl

/-- The texts that are accepted, as far as no character outside ASCII upper-cases into ASCII; what
is returned for any text is a code and a fixed point; and a displayed commitment is normalized to
the commitment. -/
theorem normalizeUnits_spec :
    (∀ raw code : JsString, (∀ unit ∈ raw, ¬ UpperCasesIntoAscii unit) →
      (normalizeUnits raw = some code ↔
        (withoutSeparators raw).length = codeLen ∧
        (∀ unit ∈ withoutSeparators raw, isAlphanumericUnit unit = true) ∧
        code = (withoutSeparators raw).map capital)) ∧
    (∀ raw code : JsString, normalizeUnits raw = some code →
      code.length = codeLen ∧ code.all isCodeUnit = true ∧ normalizeUnits code = some code) ∧
    ∀ primitives : Primitives, Base32Digits primitives → ∀ epk : Bytes,
      normalizeUnits (jsString (formatCodeForDisplay (commitmentCode primitives epk))) =
        some (jsString (commitmentCode primitives epk)) := by
  refine ⟨fun raw code ↦ normalizeUnits_eq_some_iff, fun raw code ↦ normalizeUnits_idempotent,
    fun primitives hbase32 epk ↦ ?_⟩
  rw [normalizeUnits_jsString, normalizeCode_formatCodeForDisplay,
    normalizeCode_commitmentCode hbase32]
  rfl

/-- A displayed commitment of the tabulated primitives. -/
theorem normalizeUnits_spec_commuting :
    normalizeUnits (jsString (formatCodeForDisplay (commitmentCode commuting recipientKey))) =
      some (jsString (commitmentCode commuting recipientKey)) :=
  normalizeUnits_spec.2.2 commuting base32Digits_commuting recipientKey

/-- Twelve letters that are not in the Crockford alphabet are accepted. -/
theorem accepted_ilou :
    ¬ ∀ raw : JsString, (normalizeUnits raw).isSome = true ↔
      (withoutSeparators raw).length = codeLen ∧
        ∀ unit ∈ withoutSeparators raw, isCrockfordUnit unit = true := by
  intro hclaim
  have haccepted : (normalizeUnits (jsString "ilou-ilou-ilou")).isSome = true := by decide +kernel
  have houtside : ¬ ∀ unit ∈ withoutSeparators (jsString "ilou-ilou-ilou"),
      isCrockfordUnit unit = true := by
    decide +kernel
  exact houtside ((hclaim _).mp haccepted).2

end OpfsWebauthn.Share
