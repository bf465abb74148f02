import OpfsWebauthn.Foundation.JsStrings

/-!
# JSON texts

`JSON.stringify` writes a JavaScript string as a well-formed text: a pair of surrogates becomes its
character and a lone surrogate an escape. `JSON.parse` reads a text back into code units.

`readString_quoteBody` is the round trip of one string. `parse_writeObject` is that of an object, as
long as the text of each value is read back inside it (`Reads`), and `parse_stringifyStrings` the
case of an object whose properties are strings. The parser is a recursive descent over the whole
grammar; its fuel is the length of the text, and every call of one of its functions from another is
on a shorter text.
-/

set_option autoImplicit false
set_option relaxedAutoImplicit false

namespace OpfsWebauthn.Foundation

/-! ### Writing -/

/-- A code unit as an escape with four digits. -/
def unicodeEscape (unit : UInt16) : List Char :=
  ['\\', 'u', Nat.digitChar (unit.toNat / 4096), Nat.digitChar (unit.toNat / 256 % 16),
    Nat.digitChar (unit.toNat / 16 % 16), Nat.digitChar (unit.toNat % 16)]

/-- The escapes of one letter. -/
def shortEscapes : List (UInt16 × Char) :=
  [(0x08, 'b'), (0x09, 't'), (0x0a, 'n'), (0x0c, 'f'), (0x0d, 'r'), (0x22, '"'), (0x5c, '\\')]

/-- A code unit that is not half of a pair, between the quotes. -/
def quoteUnit (unit : UInt16) : List Char :=
  match shortEscapes.lookup unit with
  | some letter => ['\\', letter]
  | none =>
    if unit.toNat < 0x20 || isHighSurrogate unit || isLowSurrogate unit then unicodeEscape unit
    else [Char.ofNat unit.toNat]

/-- What stands between the quotes. -/
def quoteBody : JsString → List Char
  | [] => []
  | [unit] => quoteUnit unit
  | first :: second :: rest =>
    if isHighSurrogate first && isLowSurrogate second then
      pairedChar first second :: quoteBody rest
    else quoteUnit first ++ quoteBody (second :: rest)

/-- `JSON.stringify` of a string. -/
def quote (units : JsString) : List Char :=
  '"' :: (quoteBody units ++ ['"'])

/-- The properties of an object, separated by commas. -/
def stringifyMembers : List (JsString × JsString) → List Char
  | [] => []
  | [(key, value)] => quote key ++ ':' :: quote value
  | (key, value) :: rest => quote key ++ ':' :: (quote value ++ ',' :: stringifyMembers rest)

/-- `JSON.stringify` of an object whose properties are strings. -/
def stringifyStrings (members : List (JsString × JsString)) : List Char :=
  '{' :: (stringifyMembers members ++ ['}'])

/-- The properties of an object, with the texts of their values. -/
def writeMembers : List (JsString × List Char) → List Char
  | [] => []
  | [(key, text)] => quote key ++ ':' :: text
  | (key, text) :: rest => quote key ++ ':' :: (text ++ ',' :: writeMembers rest)

/-- `JSON.stringify` of an object, with the texts of the values of its properties. -/
def writeObject (members : List (JsString × List Char)) : List Char :=
  '{' :: (writeMembers members ++ ['}'])

/-! ### Reading -/

/-- The value of a hexadecimal digit. -/
def hexValue (ch : Char) : Option ℕ :=
  if '0' ≤ ch ∧ ch ≤ '9' then some (ch.toNat - '0'.toNat)
  else if 'a' ≤ ch ∧ ch ≤ 'f' then some (ch.toNat - 'a'.toNat + 10)
  else if 'A' ≤ ch ∧ ch ≤ 'F' then some (ch.toNat - 'A'.toNat + 10)
  else none

/-- The escapes that a reader knows: those of the writer, and the one of the solidus. -/
def letterEscapes : List (Char × UInt16) :=
  ('/', 0x2f) :: shortEscapes.map Prod.swap

/-- The four digits of an escape. -/
def readUnicode : List Char → Option (UInt16 × List Char)
  | first :: second :: third :: fourth :: rest =>
    match hexValue first, hexValue second, hexValue third, hexValue fourth with
    | some first, some second, some third, some fourth =>
      some (UInt16.ofNat (4096 * first + 256 * second + 16 * third + fourth), rest)
    | _, _, _, _ => none
  | _ => none

/-- What stands after a backslash. -/
def readEscape : List Char → Option (UInt16 × List Char)
  | [] => none
  | letter :: rest =>
    if letter = 'u' then readUnicode rest
    else (letterEscapes.lookup letter).map fun unit ↦ (unit, rest)

/-- A string up to its closing quote. -/
def readString : ℕ → List Char → Option (JsString × List Char)
  | 0, _ => none
  | _ + 1, [] => none
  | fuel + 1, ch :: rest =>
    if ch = '"' then some ([], rest)
    else if ch = '\\' then
      match readEscape rest with
      | none => none
      | some (unit, rest) => (readString fuel rest).map fun (units, rest) ↦ (unit :: units, rest)
    else if ch.toNat < 0x20 then none
    else (readString fuel rest).map fun (units, rest) ↦ (codeUnits ch ++ units, rest)

/-- White space between the tokens. -/
def skipSpace (chars : List Char) : List Char :=
  chars.dropWhile fun ch ↦ ch = ' ' || ch = '\t' || ch = '\n' || ch = '\r'

/-- One or more digits. -/
def readDigits (chars : List Char) : Option (List Char × List Char) :=
  let digits := chars.takeWhile Char.isDigit
  if digits = [] then none else some (digits, chars.dropWhile Char.isDigit)

/-- The fraction of a number, if there is one. -/
def readFraction : List Char → Option (List Char × List Char)
  | '.' :: rest => (readDigits rest).map fun (digits, rest) ↦ ('.' :: digits, rest)
  | chars => some ([], chars)

/-- The exponent of a number, if there is one. -/
def readExponent : List Char → Option (List Char × List Char)
  | [] => some ([], [])
  | ch :: rest =>
    if ch = 'e' ∨ ch = 'E' then
      match rest with
      | '+' :: rest => (readDigits rest).map fun (digits, rest) ↦ (ch :: '+' :: digits, rest)
      | '-' :: rest => (readDigits rest).map fun (digits, rest) ↦ (ch :: '-' :: digits, rest)
      | _ => (readDigits rest).map fun (digits, rest) ↦ (ch :: digits, rest)
    else some ([], ch :: rest)

/-- A number without its sign: no zero in front of another digit. -/
def readUnsigned (chars : List Char) : Option (List Char × List Char) := do
  let (whole, rest) ← readDigits chars
  if whole.length > 1 ∧ whole.head? = some '0' then none
  else
    let (fraction, rest) ← readFraction rest
    let (exponent, rest) ← readExponent rest
    return (whole ++ fraction ++ exponent, rest)

/-- A number. -/
def readNumber : List Char → Option (List Char × List Char)
  | '-' :: rest => (readUnsigned rest).map fun (number, rest) ↦ ('-' :: number, rest)
  | chars => readUnsigned chars

/-- A JSON value. A number is kept as it is written; of two properties with one name the later one
counts. -/
inductive Json
  | null
  | bool (value : Bool)
  | number (literal : List Char)
  | string (value : JsString)
  | array (items : List Json)
  | object (members : List (JsString × Json))

mutual

/-- A value, with white space in front. -/
def parseValue : ℕ → List Char → Option (Json × List Char)
  | 0, _ => none
  | fuel + 1, chars =>
    match skipSpace chars with
    | '{' :: rest =>
      match skipSpace rest with
      | '}' :: rest => some (.object [], rest)
      | rest => (parseMembers fuel rest).map fun (members, rest) ↦ (.object members, rest)
    | '[' :: rest =>
      match skipSpace rest with
      | ']' :: rest => some (.array [], rest)
      | rest => (parseItems fuel rest).map fun (items, rest) ↦ (.array items, rest)
    | '"' :: rest =>
      (readString (rest.length + 1) rest).map fun (value, rest) ↦ (.string value, rest)
    | 't' :: 'r' :: 'u' :: 'e' :: rest => some (.bool true, rest)
    | 'f' :: 'a' :: 'l' :: 's' :: 'e' :: rest => some (.bool false, rest)
    | 'n' :: 'u' :: 'l' :: 'l' :: rest => some (.null, rest)
    | rest => (readNumber rest).map fun (literal, rest) ↦ (.number literal, rest)

/-- The properties of an object, up to its closing brace. -/
def parseMembers : ℕ → List Char → Option (List (JsString × Json) × List Char)
  | 0, _ => none
  | fuel + 1, chars =>
    match skipSpace chars with
    | '"' :: rest =>
      match readString (rest.length + 1) rest with
      | none => none
      | some (key, rest) =>
        match skipSpace rest with
        | ':' :: rest =>
          match parseValue fuel rest with
          | none => none
          | some (value, rest) =>
            match skipSpace rest with
            | ',' :: rest =>
              (parseMembers fuel rest).map fun (members, rest) ↦ ((key, value) :: members, rest)
            | '}' :: rest => some ([(key, value)], rest)
            | _ => none
        | _ => none
    | _ => none

/-- The items of an array, up to its closing bracket. -/
def parseItems : ℕ → List Char → Option (List Json × List Char)
  | 0, _ => none
  | fuel + 1, chars =>
    match parseValue fuel chars with
    | none => none
    | some (value, rest) =>
      match skipSpace rest with
      | ',' :: rest => (parseItems fuel rest).map fun (items, rest) ↦ (value :: items, rest)
      | ']' :: rest => some ([value], rest)
      | _ => none

end

/-- `JSON.parse(text)`, or nothing when it throws. -/
def parseJson (chars : List Char) : Option Json :=
  match parseValue (chars.length + 1) chars with
  | some (value, rest) => if skipSpace rest = [] then some value else none
  | none => none

/-- A property of an object. -/
def member? (members : List (JsString × Json)) (key : JsString) : Option Json :=
  members.reverse.lookup key

/-! ### The round trip of a string -/

/-- A character that stands for itself is read as its code units. -/
theorem readString_cons {ch : Char} (hquote : ch ≠ '"') (hbackslash : ch ≠ '\\')
    (hcontrol : ¬ ch.toNat < 0x20) (fuel : ℕ) (rest : List Char) :
    readString (fuel + 1) (ch :: rest) =
      (readString fuel rest).map fun (units, rest) ↦ (codeUnits ch ++ units, rest) := by
  rw [readString, if_neg hquote, if_neg hbackslash, if_neg hcontrol]

/-- An escape is read as its code unit. -/
theorem readString_escape {escape rest : List Char} {unit : UInt16} {after : List Char}
    (hescape : readEscape (escape ++ rest) = some (unit, after)) (fuel : ℕ) :
    readString (fuel + 1) ('\\' :: (escape ++ rest)) =
      (readString fuel after).map fun (units, rest) ↦ (unit :: units, rest) := by
  rw [readString, if_neg (by decide), if_pos rfl, hescape]

/-- A digit of an escape is read as its value. -/
theorem hexValue_digitChar {digit : ℕ} (hdigit : digit < 16) :
    hexValue (Nat.digitChar digit) = some digit := by
  have hall : ∀ digit : Fin 16, hexValue (Nat.digitChar digit) = some digit.val := by decide
  exact hall ⟨digit, hdigit⟩

/-- An escape with four digits is read as its code unit. -/
theorem readEscape_unicodeEscape (unit : UInt16) (rest : List Char) :
    readEscape ((unicodeEscape unit).tail ++ rest) = some (unit, rest) := by
  have hbound : unit.toNat < 65536 := unit.toNat_lt
  have hnumber : 4096 * (unit.toNat / 4096) + 256 * (unit.toNat / 256 % 16) +
      16 * (unit.toNat / 16 % 16) + unit.toNat % 16 = unit.toNat := by omega
  have hfirst := hexValue_digitChar (show unit.toNat / 4096 < 16 by omega)
  have hsecond := hexValue_digitChar (show unit.toNat / 256 % 16 < 16 by omega)
  have hthird := hexValue_digitChar (show unit.toNat / 16 % 16 < 16 by omega)
  have hfourth := hexValue_digitChar (show unit.toNat % 16 < 16 by omega)
  change readUnicode (_ :: _ :: _ :: _ :: rest) = _
  rw [readUnicode, hfirst, hsecond, hthird, hfourth]
  change some (UInt16.ofNat _, rest) = _
  rw [hnumber, UInt16.ofNat_toNat]

/-- The writer's escapes are known to the reader. -/
theorem readEscape_of_lookup {unit : UInt16} {letter : Char}
    (hlookup : shortEscapes.lookup unit = some letter) (rest : List Char) :
    readEscape (letter :: rest) = some (unit, rest) := by
  have hall : ∀ entry ∈ shortEscapes, entry.2 ≠ 'u' ∧
      letterEscapes.lookup entry.2 = some entry.1 := by decide
  obtain ⟨before, after, hentries, -⟩ := List.lookup_eq_some_iff.mp hlookup
  have hmem : (unit, letter) ∈ shortEscapes := by
    rw [hentries]
    exact List.mem_append_right _ List.mem_cons_self
  obtain ⟨hletter, hfound⟩ := hall _ hmem
  rw [readEscape, if_neg hletter, hfound]
  rfl

/-- A code unit that is not half of a pair is read back. -/
theorem readString_quoteUnit (unit : UInt16) (fuel : ℕ) (rest : List Char) :
    readString (fuel + 1) (quoteUnit unit ++ rest) =
      (readString fuel rest).map fun (units, rest) ↦ (unit :: units, rest) := by
  unfold quoteUnit
  cases hlookup : shortEscapes.lookup unit with
  | some letter => exact readString_escape (readEscape_of_lookup hlookup rest) fuel
  | none =>
    by_cases hescaped : (unit.toNat < 0x20 || isHighSurrogate unit || isLowSurrogate unit) = true
    · simp only [if_pos hescaped]
      exact readString_escape (readEscape_unicodeEscape unit rest) fuel
    · simp only [if_neg hescaped]
      simp only [isHighSurrogate, isLowSurrogate, Bool.or_eq_true, Bool.and_eq_true,
        decide_eq_true_eq, not_or, not_and] at hescaped
      have hbound : unit.toNat < 65536 := unit.toNat_lt
      have hvalid : unit.toNat.isValidChar := by
        unfold Nat.isValidChar
        omega
      have hnumber := toNat_ofNat_of_isValidChar hvalid
      -- The quote and the backslash have escapes of their own.
      have hspecial : ∀ ch : Char, (shortEscapes.lookup (UInt16.ofNat ch.toNat)).isSome →
          Char.ofNat unit.toNat ≠ ch := by
        intro ch hsome heq
        rw [← heq, hnumber, UInt16.ofNat_toNat, hlookup] at hsome
        cases hsome
      rw [List.singleton_append, readString_cons (hspecial _ (by decide))
        (hspecial _ (by decide)) (by rw [hnumber]; exact hescaped.1.1),
        codeUnits_ofNat_toNat hvalid]
      rfl

/-- The code unit of a step is written with at least one character. -/
theorem length_quoteUnit_pos (unit : UInt16) : 0 < (quoteUnit unit).length := by
  unfold quoteUnit
  cases shortEscapes.lookup unit with
  | some letter => exact Nat.succ_pos _
  | none =>
    dsimp only
    split_ifs
    · exact Nat.succ_pos _
    · exact Nat.succ_pos _

/-- What `quote` writes between the quotes is read back up to the closing quote. -/
theorem readString_quoteBody (units : JsString) (rest : List Char) {fuel : ℕ}
    (hfuel : (quoteBody units).length < fuel) :
    readString fuel (quoteBody units ++ '"' :: rest) = some (units, rest) := by
  induction units using quoteBody.induct generalizing fuel with
  | case1 =>
    obtain ⟨fuel, rfl⟩ := Nat.exists_eq_add_one_of_ne_zero (Nat.ne_of_gt hfuel)
    rfl
  | case2 unit =>
    rw [quoteBody] at hfuel ⊢
    have hpos := length_quoteUnit_pos unit
    obtain ⟨fuel, rfl⟩ := Nat.exists_eq_add_one_of_ne_zero (n := fuel) (by omega)
    obtain ⟨fuel, rfl⟩ := Nat.exists_eq_add_one_of_ne_zero (n := fuel) (by omega)
    rw [readString_quoteUnit]
    rfl
  | case3 first second rest hpair ih =>
    rw [quoteBody, if_pos hpair] at hfuel ⊢
    obtain ⟨fuel, rfl⟩ := Nat.exists_eq_add_one_of_ne_zero (n := fuel) (by omega)
    rw [List.length_cons] at hfuel
    rw [Bool.and_eq_true] at hpair
    obtain ⟨hunits, hlarge⟩ := codeUnits_pairedChar hpair.1 hpair.2
    have hordinary : ∀ ch : Char, ch.toNat < 0x10000 → pairedChar first second ≠ ch := by
      rintro ch hch rfl
      omega
    rw [List.cons_append, readString_cons (hordinary _ (by decide)) (hordinary _ (by decide))
      (by omega), ih (by omega), hunits]
    rfl
  | case4 first second rest hpair ih =>
    rw [quoteBody, if_neg hpair] at hfuel ⊢
    rw [List.length_append] at hfuel
    have hpos := length_quoteUnit_pos first
    obtain ⟨fuel, rfl⟩ := Nat.exists_eq_add_one_of_ne_zero (n := fuel) (by omega)
    rw [List.append_assoc, readString_quoteUnit, ih (by omega)]
    rfl

/-! ### The round trip of an object -/

/-- A text is read as a value inside an object. -/
def Reads (text : List Char) (value : Json) : Prop :=
  ∀ (fuel : ℕ) (mark : Char) (rest : List Char), mark = ',' ∨ mark = '}' →
    parseValue (fuel + 1) (text ++ mark :: rest) = some (value, mark :: rest)

/-- A quoted string is read back as a value. -/
theorem parseValue_quote (units : JsString) (rest : List Char) (fuel : ℕ) :
    parseValue (fuel + 1) (quote units ++ rest) = some (.string units, rest) := by
  have htext : quote units ++ rest = '"' :: (quoteBody units ++ '"' :: rest) := by
    simp [quote]
  have hread : readString ((quoteBody units ++ '"' :: rest).length + 1)
      (quoteBody units ++ '"' :: rest) = some (units, rest) := by
    refine readString_quoteBody units rest ?_
    rw [List.length_append]
    omega
  rw [htext]
  change (readString _ _).map _ = _
  rw [hread]
  rfl

theorem reads_quote (units : JsString) : Reads (quote units) (.string units) :=
  fun fuel mark rest _ ↦ parseValue_quote units (mark :: rest) fuel

/-- One property, and what is read after it. -/
theorem parseMembers_pair (key : JsString) {text : List Char} {value : Json}
    (hreads : Reads text value) {mark : Char} (hmark : mark = ',' ∨ mark = '}') (rest : List Char)
    (fuel : ℕ) :
    parseMembers (fuel + 2) (quote key ++ ':' :: (text ++ mark :: rest)) =
      match skipSpace (mark :: rest) with
      | ',' :: rest => (parseMembers (fuel + 1) rest).map fun (members, rest) ↦
          ((key, value) :: members, rest)
      | '}' :: rest => some ([(key, value)], rest)
      | _ => none := by
  have htext : quote key ++ ':' :: (text ++ mark :: rest) =
      '"' :: (quoteBody key ++ '"' :: ':' :: (text ++ mark :: rest)) := by
    simp [quote]
  have hread : readString ((quoteBody key ++ '"' :: ':' :: (text ++ mark :: rest)).length + 1)
      (quoteBody key ++ '"' :: ':' :: (text ++ mark :: rest)) =
        some (key, ':' :: (text ++ mark :: rest)) := by
    refine readString_quoteBody key _ ?_
    rw [List.length_append]
    omega
  have hspace : skipSpace ('"' :: (quoteBody key ++ '"' :: ':' :: (text ++ mark :: rest))) =
      '"' :: (quoteBody key ++ '"' :: ':' :: (text ++ mark :: rest)) := rfl
  have hcolon : skipSpace (':' :: (text ++ mark :: rest)) = ':' :: (text ++ mark :: rest) := rfl
  rw [htext, parseMembers, hspace]
  simp only [hread, hcolon, hreads fuel mark rest hmark]

section Objects

variable {members : List (JsString × List Char × Json)}

/-- The properties that were written are read back, up to the closing brace. -/
theorem parseMembers_writeMembers (hreads : ∀ member ∈ members, Reads member.2.1 member.2.2)
    (hsome : members ≠ []) (rest : List Char) {fuel : ℕ} (hfuel : members.length < fuel) :
    parseMembers fuel (writeMembers (members.map fun (key, text, _) ↦ (key, text)) ++ '}' :: rest) =
      some (members.map fun (key, _, value) ↦ (key, value), rest) := by
  induction members generalizing fuel with
  | nil => exact absurd rfl hsome
  | cons member others ih =>
    obtain ⟨key, text, value⟩ := member
    have hfirst : Reads text value := hreads _ List.mem_cons_self
    rw [List.length_cons] at hfuel
    obtain ⟨fuel, rfl⟩ := Nat.exists_eq_add_of_le (show 2 ≤ fuel by omega)
    rw [Nat.add_comm]
    cases others with
    | nil =>
      have htext : writeMembers ([(key, text, value)].map fun (key, text, _) ↦ (key, text)) ++
          '}' :: rest = quote key ++ ':' :: (text ++ '}' :: rest) := by
        simp [writeMembers]
      have hspace : skipSpace ('}' :: rest) = '}' :: rest := rfl
      rw [htext, parseMembers_pair key hfirst (Or.inr rfl), hspace]
      rfl
    | cons second others =>
      have htext : writeMembers (((key, text, value) :: second :: others).map
          fun (key, text, _) ↦ (key, text)) ++ '}' :: rest =
            quote key ++ ':' :: (text ++ ',' :: (writeMembers ((second :: others).map
              fun (key, text, _) ↦ (key, text)) ++ '}' :: rest)) := by
        simp [writeMembers]
      have hspace : skipSpace (',' :: (writeMembers ((second :: others).map
          fun (key, text, _) ↦ (key, text)) ++ '}' :: rest)) =
            ',' :: (writeMembers ((second :: others).map fun (key, text, _) ↦ (key, text)) ++
              '}' :: rest) := rfl
      have hothers := @ih (fun member hmember ↦ hreads member (List.mem_cons_of_mem _ hmember))
        (List.cons_ne_nil _ _) (fuel + 1) (by omega)
      rw [htext, parseMembers_pair key hfirst (Or.inl rfl), hspace]
      simp only [hothers]
      rfl

/-- The text of the properties is at least as long as their number. -/
theorem length_le_writeMembers (members : List (JsString × List Char)) :
    members.length ≤ (writeMembers members).length := by
  induction members with
  | nil => exact Nat.zero_le _
  | cons member others ih =>
    obtain ⟨key, text⟩ := member
    cases others with
    | nil =>
      simp only [writeMembers, quote, List.length_cons, List.length_append]
      omega
    | cons second others =>
      simp only [writeMembers, List.length_cons, List.length_append] at ih ⊢
      omega

/-- `JSON.parse` reads back an object that `JSON.stringify` wrote. -/
theorem parse_writeObject (hreads : ∀ member ∈ members, Reads member.2.1 member.2.2) :
    parseJson (writeObject (members.map fun (key, text, _) ↦ (key, text))) =
      some (.object (members.map fun (key, _, value) ↦ (key, value))) := by
  cases members with
  | nil => rfl
  | cons member others =>
    obtain ⟨written, hwritten⟩ : ∃ written, written =
        (member :: others).map fun ((key, text, _) : JsString × List Char × Json) ↦ (key, text) :=
      ⟨_, rfl⟩
    have hlength := length_le_writeMembers written
    have hread : parseMembers (writeObject written).length (writeMembers written ++ ['}']) =
        some ((member :: others).map fun (key, _, value) ↦ (key, value), []) := by
      rw [hwritten]
      refine parseMembers_writeMembers hreads (List.cons_ne_nil _ _) [] ?_
      rw [← hwritten]
      rw [hwritten, List.length_map, ← hwritten] at hlength
      simp only [writeObject, List.length_cons, List.length_append] at hlength ⊢
      omega
    obtain ⟨body, hbody⟩ : ∃ body, writeMembers written ++ ['}'] = '"' :: body := by
      rw [hwritten]
      cases others with
      | nil => exact ⟨_, rfl⟩
      | cons second others => exact ⟨_, rfl⟩
    have hvalue : parseValue ((writeObject written).length + 1) (writeObject written) =
        some (.object ((member :: others).map fun (key, _, value) ↦ (key, value)), []) := by
      rw [hbody] at hread
      have htext : writeObject written = '{' :: '"' :: body := by
        rw [writeObject, hbody]
      rw [parseValue, htext]
      rw [htext] at hread
      change (parseMembers _ ('"' :: body)).map _ = _
      rw [hread]
      rfl
    rw [← hwritten, parseJson, hvalue]
    rfl

end Objects

/-- An object of strings is an object whose values are quoted. -/
theorem stringifyStrings_eq (members : List (JsString × JsString)) :
    stringifyStrings members =
      writeObject (members.map fun (key, value) ↦ (key, quote value)) := by
  have hmembers : stringifyMembers members =
      writeMembers (members.map fun (key, value) ↦ (key, quote value)) := by
    induction members with
    | nil => rfl
    | cons member others ih =>
      cases others with
      | nil => rfl
      | cons second others =>
        rw [stringifyMembers, ih]
        · rfl
        · exact List.cons_ne_nil _ _
  unfold stringifyStrings writeObject
  rw [hmembers]

/-- `JSON.parse` reads back an object of strings that `JSON.stringify` wrote. -/
theorem parse_stringifyStrings (members : List (JsString × JsString)) :
    parseJson (stringifyStrings members) =
      some (.object (members.map fun (key, value) ↦ (key, .string value))) := by
  have hreads : ∀ member ∈ members.map fun ((key, value) : JsString × JsString) ↦
      ((key, quote value, .string value) : JsString × List Char × Json),
        Reads member.2.1 member.2.2 := by
    intro member hmember
    obtain ⟨⟨key, value⟩, -, hpair⟩ := List.mem_map.mp hmember
    rw [← hpair]
    exact reads_quote value
  have hparse := parse_writeObject hreads
  rw [List.map_map, List.map_map] at hparse
  rw [stringifyStrings_eq]
  exact hparse

end OpfsWebauthn.Foundation
