import OpfsWebauthn.Foundation.BitGroups
import OpfsWebauthn.Foundation.Outcome
import OpfsWebauthn.Storage.RowId

/-!
# Row ids round trip

`decode` inverts `encode`. Both loops regroup bits through a word, `encode` from bytes to characters
of five bits and `decode` back, so each loop has the same invariant: what was read is the number of
the groups written and the pending bits. `encode` fills the last character with two zero bits,
which are the two bits that `decode` leaves in its word.
-/

set_option autoImplicit false
set_option relaxedAutoImplicit false

namespace OpfsWebauthn.Storage.RowId

open Foundation

/-- The character of a group of five bits. -/
def charOf (group : ℕ) : Char :=
  crockford.getD group '0'

/-- The values of bytes. -/
def octets (bytes : Bytes) : List ℕ :=
  bytes.map UInt8.toNat

/-- The digit of a word is the character of its five low bits. -/
theorem digit_eq_charOf (word : UInt32) : digit word = charOf (word.toNat % 2 ^ 5) := by
  have hmask : (word &&& 0b11111).toNat = word.toNat % 2 ^ 5 := by
    rw [UInt32.toNat_and]
    exact Nat.and_two_pow_sub_one_eq_mod word.toNat 5
  rw [digit, hmask, charOf]

/-- The character of a group is found at the group's place. -/
theorem idxOf?_charOf {group : ℕ} (hgroup : group < 2 ^ 5) :
    crockford.idxOf? (charOf group).toUpper = some group := by
  have hall : ∀ group < 2 ^ 5, crockford.idxOf? (charOf group).toUpper = some group := by
    decide +kernel
  exact hall group hgroup

/-- The value of a word after a shift to the right. -/
theorem toNat_shiftRight_ofNat (word : UInt32) {amount : ℕ} (hamount : amount < 32) :
    (word >>> UInt32.ofNat amount).toNat = word.toNat / 2 ^ amount := by
  have hmod : (UInt32.ofNat amount).toNat % 32 = amount := by
    rw [UInt32.toNat_ofNat']
    omega
  rw [UInt32.toNat_shiftRight, hmod, Nat.shiftRight_eq_div_pow]

/-! ### Encoding -/

/-- `encode` wrote the characters of these groups. -/
structure Writes (groups : List ℕ) (out : List Char) : Prop where
  chars : out = groups.map charOf
  bounded : ∀ group ∈ groups, group < 2 ^ 5

/-- One more group. -/
theorem Writes.concat {groups : List ℕ} {out : List Char} (hwrites : Writes groups out)
    (word : UInt32) : Writes (groups ++ [word.toNat % 2 ^ 5]) (out ++ [digit word]) where
  chars := by rw [hwrites.chars, digit_eq_charOf, List.map_append, List.map_singleton]
  bounded := by
    intro group hgroup
    rcases List.mem_append.mp hgroup with hold | hnew
    · exact hwrites.bounded group hold
    · rw [List.mem_singleton.mp hnew]
      exact Nat.mod_lt _ (by decide)

/-- `drain` writes groups until fewer than five bits are pending, and keeps the number. -/
theorem drain_spec (value : UInt32) (bits : ℕ) (hbits : bits < 32) :
    ∀ (groups : List ℕ) (out : List Char), Writes groups out →
      ∃ written, Writes written (drain value bits out).2 ∧ (drain value bits out).1 < 5 ∧
        5 * written.length + (drain value bits out).1 = 5 * groups.length + bits ∧
        bitsRead 5 written value (drain value bits out).1 = bitsRead 5 groups value bits := by
  induction bits using Nat.strong_induction_on with
  | _ bits ih =>
    intro groups out hwrites
    unfold drain
    split
    · next rest =>
      have hrest : rest < 32 := by omega
      have hstep := hwrites.concat (value >>> UInt32.ofNat rest)
      rw [toNat_shiftRight_ofNat value hrest] at hstep
      obtain ⟨written, hwritten, hlow, hcount, hnumber⟩ := ih rest (by omega) hrest _ _ hstep
      refine ⟨written, hwritten, hlow, ?_, ?_⟩
      · rw [hcount, List.length_append, List.length_singleton]
        omega
      · rw [hnumber, bitsRead_write]
    · next hlow =>
      refine ⟨groups, hwrites, ?_, rfl, rfl⟩
      by_contra hfull
      exact hlow (bits - 5) (by omega)

/-- The invariant of the outer loop of `encode` after some bytes. -/
def EncodeState.Holds (state : EncodeState) (read : Bytes) : Prop :=
  state.bits < 5 ∧ ∃ groups, Writes groups state.out ∧
    5 * groups.length + state.bits = 8 * read.length ∧
    bitsRead 5 groups state.value state.bits = radix (2 ^ 8) (octets read)

/-- One byte. -/
theorem holds_encodeByte {state : EncodeState} {read : Bytes} (hstate : state.Holds read)
    (byte : UInt8) : (encodeByte state byte).Holds (read ++ [byte]) := by
  obtain ⟨hbits, groups, hwrites, hcount, hnumber⟩ := hstate
  have hbyte : byte.toUInt32.toNat < 2 ^ 8 := by
    rw [UInt8.toNat_toUInt32]
    exact byte.toNat_lt
  have hshift := bitsRead_shiftIn 5 groups state.value byte.toUInt32
    (by decide : 8 < 32) (by omega : state.bits + 8 ≤ 32) hbyte
  obtain ⟨written, hwritten, hlow, hcountWritten, hnumberWritten⟩ :=
    drain_spec ((state.value <<< 8) ||| byte.toUInt32) (state.bits + 8) (by omega) groups
      state.out hwrites
  refine ⟨hlow, written, hwritten, ?_, ?_⟩
  · rw [List.length_append, List.length_singleton]
    exact hcountWritten.trans (by omega)
  · rw [octets, List.map_append, List.map_singleton, radix_concat, ← octets, ← hnumber,
      ← UInt8.toNat_toUInt32 byte, ← hshift]
    exact hnumberWritten

/-- The outer loop. -/
theorem holds_foldl (bytes : Bytes) :
    ∀ {state : EncodeState} {read : Bytes}, state.Holds read →
      (bytes.foldl encodeByte state).Holds (read ++ bytes) := by
  induction bytes with
  | nil =>
    intro state read hstate
    rw [List.append_nil]
    exact hstate
  | cons byte rest ih =>
    intro state read hstate
    have hrest := ih (holds_encodeByte hstate byte)
    rwa [List.append_assoc] at hrest

/-- What `encode` returns: 26 characters, which stand for four times the number of the bytes. -/
theorem encode_spec {bytes : Bytes} (hlength : bytes.length = rowIdBytes) :
    ∃ groups : List ℕ, encode bytes = .ok (String.ofList (groups.map charOf)) ∧
      groups.length = rowIdChars ∧ (∀ group ∈ groups, group < 2 ^ 5) ∧
      radix (2 ^ 5) groups = radix (2 ^ 8) (octets bytes) * 2 ^ 2 := by
  have hfinal : (bytes.foldl encodeByte ⟨0, 0, []⟩).Holds ([] ++ bytes) :=
    holds_foldl bytes ⟨by decide, [], ⟨rfl, by simp⟩, rfl, rfl⟩
  rw [List.nil_append] at hfinal
  unfold encode
  rw [if_neg (not_not_intro hlength)]
  dsimp only
  obtain ⟨hbits, groups, hwrites, hcount, hnumber⟩ := hfinal
  generalize bytes.foldl encodeByte ⟨0, 0, []⟩ = final at *
  rw [hlength] at hcount
  simp only [rowIdBytes] at hcount
  -- 128 bits are 25 groups and three bits
  have hthree : final.bits = 3 := by omega
  have hgroups : groups.length = 25 := by omega
  have hlast := hwrites.concat (final.value <<< UInt32.ofNat (5 - final.bits))
  refine ⟨_, ?_, ?_, hlast.bounded, ?_⟩
  · rw [if_pos (by omega : final.bits > 0), hlast.chars]
  · rw [List.length_append, hgroups]
    rfl
  · have hvalue : (final.value <<< UInt32.ofNat (5 - final.bits)).toNat % 2 ^ 5 =
        final.value.toNat % 2 ^ 3 * 2 ^ 2 := by
      rw [hthree, UInt32.toNat_shiftLeft]
      show final.value.toNat <<< 2 % 2 ^ 32 % 2 ^ 5 = _
      rw [Nat.shiftLeft_eq]
      omega
    rw [radix_concat, hvalue, ← hnumber, bitsRead, hthree]
    ring

/-! ### Decoding -/

/-- The invariant of the loop of `decode` after some groups. -/
def DecodeState.Holds (state : DecodeState) (read : List ℕ) : Prop :=
  state.Balanced read.length ∧
    bitsRead 8 (octets state.out) state.value state.bits = radix (2 ^ 5) read

/-- These characters stand for these groups, in either letter case. -/
def Reads (chars : List Char) (groups : List ℕ) : Prop :=
  List.Forall₂ (fun ch group ↦ crockford.idxOf? ch.toUpper = some group) chars groups

/-- A group has five bits. -/
theorem lt_of_idxOf? {ch : Char} {group : ℕ} (hread : crockford.idxOf? ch = some group) :
    group < 2 ^ 5 :=
  (List.idxOf?_eq_some_iff.mp hread).1

/-- The groups have five bits each. -/
theorem Reads.bounded {chars : List Char} {groups : List ℕ} (hreads : Reads chars groups) :
    ∀ group ∈ groups, group < 2 ^ 5 := by
  induction hreads with
  | nil => exact fun group hgroup ↦ absurd hgroup List.not_mem_nil
  | cons hread _ ih =>
    rw [List.forall_mem_cons]
    exact ⟨lt_of_idxOf? hread, ih⟩

/-- The characters of groups stand for them. -/
theorem reads_charOf {groups : List ℕ} (hgroups : ∀ group ∈ groups, group < 2 ^ 5) :
    Reads (groups.map charOf) groups := by
  induction groups with
  | nil => exact .nil
  | cons group rest ih =>
    rw [List.forall_mem_cons] at hgroups
    exact .cons (idxOf?_charOf hgroups.1) (ih hgroups.2)

/-- One character of the alphabet. -/
theorem holds_decodeChar {state : DecodeState} {read : List ℕ} (hstate : state.Holds read)
    {ch : Char} {group : ℕ} (hread : crockford.idxOf? ch.toUpper = some group) :
    ∃ next, decodeChar state ch = .ok next ∧ next.Holds (read ++ [group]) := by
  obtain ⟨hbalanced, hnumber⟩ := hstate
  have hbits := hbalanced.1
  have hgroup := lt_of_idxOf? hread
  have hvalue : (UInt32.ofNat group).toNat = group := by
    rw [UInt32.toNat_ofNat']
    omega
  have hshift := bitsRead_shiftIn 8 (octets state.out) state.value (UInt32.ofNat group)
    (by decide : 5 < 32) (by omega : state.bits + 5 ≤ 32) (by rw [hvalue]; exact hgroup)
  rw [hvalue, hnumber, ← radix_concat] at hshift
  have hbalance : ∀ next, decodeChar state ch = .ok next →
      next.Balanced (read ++ [group]).length := by
    intro next hnext
    rw [List.length_append, List.length_singleton]
    exact balanced_decodeChar hbalanced hnext
  by_cases hfull : state.bits + 5 ≥ 8
  · refine ⟨⟨state.bits + 5 - 8, (state.value <<< 5) ||| UInt32.ofNat group, state.out ++
      [(((state.value <<< 5) ||| UInt32.ofNat group) >>>
        UInt32.ofNat (state.bits + 5 - 8)).toUInt8]⟩, ?_, ?_⟩
    · simp only [decodeChar, hread, if_pos hfull]
    · refine ⟨hbalance _ (by simp only [decodeChar, hread, if_pos hfull]), ?_⟩
      have hbyte := toNat_shiftRight_ofNat ((state.value <<< 5) ||| UInt32.ofNat group)
        (by omega : state.bits + 5 - 8 < 32)
      have hwrite := bitsRead_write 8 (octets state.out)
        ((state.value <<< 5) ||| UInt32.ofNat group) (state.bits + 5 - 8)
      rw [Nat.sub_add_cancel hfull] at hwrite
      rw [← hshift]
      simp only [octets, List.map_append, List.map_singleton, UInt32.toNat_toUInt8, hbyte]
      exact hwrite
  · refine ⟨⟨state.bits + 5, (state.value <<< 5) ||| UInt32.ofNat group, state.out⟩, ?_, ?_⟩
    · simp only [decodeChar, hread, if_neg hfull]
    · exact ⟨hbalance _ (by simp only [decodeChar, hread, if_neg hfull]), hshift⟩

/-- The loop of `decode` on characters of the alphabet. -/
theorem holds_foldlM {chars : List Char} {groups : List ℕ} (hreads : Reads chars groups) :
    ∀ {state : DecodeState} {read : List ℕ}, state.Holds read →
      ∃ final, chars.foldlM decodeChar state = .ok final ∧ final.Holds (read ++ groups) := by
  induction hreads with
  | nil =>
    intro state read hstate
    rw [List.append_nil]
    exact ⟨state, rfl, hstate⟩
  | cons hread _ ih =>
    intro state read hstate
    obtain ⟨next, hnext, hholds⟩ := holds_decodeChar hstate hread
    obtain ⟨final, hfinal, hfinalHolds⟩ := ih hholds
    refine ⟨final, ?_, ?_⟩
    · rw [List.foldlM_cons, hnext]
      exact hfinal
    · rwa [List.append_assoc] at hfinalHolds

/-- What `decode` returns: 16 bytes, whose number is that of the groups without the two low bits. -/
theorem decode_spec {chars : List Char} {groups : List ℕ} (hreads : Reads chars groups)
    (hcount : groups.length = rowIdChars) :
    ∃ bytes, decode (String.ofList chars) = .ok bytes ∧ bytes.length = rowIdBytes ∧
      radix (2 ^ 8) (octets bytes) = radix (2 ^ 5) groups / 2 ^ 2 := by
  have hstart : DecodeState.Holds ⟨0, 0, []⟩ [] := ⟨⟨by decide, rfl⟩, rfl⟩
  obtain ⟨final, hfinal, ⟨hbits, hbalance⟩, hnumber⟩ := holds_foldlM hreads hstart
  rw [List.nil_append] at hbalance hnumber
  rw [hcount] at hbalance
  simp only [rowIdChars] at hbalance
  have htwo : final.bits = 2 := by omega
  refine ⟨final.out, ?_, ?_, ?_⟩
  · unfold decode
    rw [String.toList_ofList, List.Forall₂.length_eq hreads, if_neg (not_not_intro hcount), hfinal]
    rfl
  · simp only [rowIdBytes]
    omega
  · rw [bitsRead, htwo] at hnumber
    omega

/-- Sixteen bytes are determined by their number. -/
theorem octets_inj {first second : Bytes} (hlength : first.length = second.length)
    (hnumber : radix (2 ^ 8) (octets first) = radix (2 ^ 8) (octets second)) : first = second := by
  have hbound : ∀ bytes : Bytes, ∀ octet ∈ octets bytes, octet < 2 ^ 8 := by
    intro bytes octet hoctet
    obtain ⟨byte, -, rfl⟩ := List.mem_map.mp hoctet
    exact byte.toNat_lt
  have hoctets : octets first = octets second := by
    apply radix_inj (by decide : 1 < 2 ^ 8)
    · rw [octets, octets, List.length_map, List.length_map, hlength]
    · exact hbound first
    · exact hbound second
    · exact hnumber
  have hinjective : Function.Injective UInt8.toNat := fun first second ↦ UInt8.toNat_inj.mp
  exact hinjective.list_map hoctets

/-- `decode` inverts `encode`. -/
theorem decode_encode {bytes : Bytes} {id : String} (hencode : encode bytes = .ok id) :
    decode id = .ok bytes := by
  have hlength : bytes.length = rowIdBytes := by
    by_contra hother
    rw [encode, if_pos hother] at hencode
    cases hencode
  obtain ⟨groups, hgroups, hcount, hbounded, hnumber⟩ := encode_spec hlength
  obtain rfl : String.ofList (groups.map charOf) = id := Except.ok.inj (hgroups.symm.trans hencode)
  obtain ⟨decoded, hdecoded, hdecodedLength, hdecodedNumber⟩ :=
    decode_spec (reads_charOf hbounded) hcount
  -- the two pending bits are the two zeros that `encode` filled in
  rw [hnumber, Nat.mul_div_cancel _ (by decide)] at hdecodedNumber
  rw [hdecoded, octets_inj (hdecodedLength.trans hlength.symm) hdecodedNumber]

/-- What `encode` returns is canonical. -/
theorem canonical_of_encode {bytes : Bytes} {id : String} (hencode : encode bytes = .ok id) :
    Canonical id :=
  ⟨bytes, decode_encode hencode, hencode⟩

/-! ### The ids that are accepted -/

/-- The text of an id in capital letters, with the two low bits of its last character cleared. -/
def normalForm (id : String) : String :=
  let upper := id.toList.map Char.toUpper
  String.ofList (upper.dropLast ++
    (upper.getLast?.map fun ch ↦ charOf (crockford.idxOf ch &&& 0b11100)).toList)

/-- Characters of the alphabet, in either letter case, stand for groups. -/
theorem exists_reads {chars : List Char} (hchars : ∀ ch ∈ chars, ch.toUpper ∈ crockford) :
    ∃ groups, Reads chars groups := by
  induction chars with
  | nil => exact ⟨[], .nil⟩
  | cons ch rest ih =>
    rw [List.forall_mem_cons] at hchars
    obtain ⟨group, hread⟩ := Option.isSome_iff_exists.mp (List.isSome_idxOf?.mpr hchars.1)
    obtain ⟨groups, hreads⟩ := ih hchars.2
    exact ⟨group :: groups, .cons hread hreads⟩

/-- The loop of `decode` throws at the first character outside the alphabet. -/
theorem mem_of_foldlM {chars : List Char} : ∀ {state final : DecodeState},
    chars.foldlM decodeChar state = .ok final → ∀ ch ∈ chars, ch.toUpper ∈ crockford := by
  induction chars with
  | nil => exact fun _ ch hch ↦ absurd hch List.not_mem_nil
  | cons ch rest ih =>
    intro state final hfinal
    rw [List.foldlM_cons] at hfinal
    obtain ⟨next, hnext, hrest⟩ := bind_eq_ok_iff.mp hfinal
    rw [List.forall_mem_cons]
    refine ⟨?_, ih hrest⟩
    by_contra houtside
    unfold decodeChar at hnext
    rw [List.idxOf?_eq_none_iff.mpr houtside] at hnext
    cases hnext

/-- The accepted ids: 26 characters, each in the alphabet up to its letter case. -/
theorem decode_isOk_iff (id : String) :
    (∃ bytes, decode id = .ok bytes) ↔
      id.toList.length = rowIdChars ∧ ∀ ch ∈ id.toList, ch.toUpper ∈ crockford := by
  constructor
  · rintro ⟨bytes, hdecode⟩
    unfold decode at hdecode
    split_ifs at hdecode with hlength
    refine ⟨not_not.mp hlength, ?_⟩
    cases hfinal : id.toList.foldlM decodeChar ⟨0, 0, []⟩ with
    | error error =>
      rw [hfinal] at hdecode
      cases hdecode
    | ok final => exact mem_of_foldlM hfinal
  · rintro ⟨hlength, hchars⟩
    obtain ⟨groups, hreads⟩ := exists_reads hchars
    obtain ⟨bytes, hdecode, -⟩ :=
      decode_spec hreads ((List.Forall₂.length_eq hreads).symm.trans hlength)
    rw [String.ofList_toList] at hdecode
    exact ⟨bytes, hdecode⟩

/-- The characters that stand for groups are those of the groups in capital letters. -/
theorem Reads.map_toUpper {chars : List Char} {groups : List ℕ} (hreads : Reads chars groups) :
    chars.map Char.toUpper = groups.map charOf := by
  induction hreads with
  | nil => rfl
  | cons hread _ ih =>
    obtain ⟨hlt, hchar, -⟩ := List.idxOf?_eq_some_iff.mp hread
    rw [List.map_cons, List.map_cons, ih, charOf, List.getD_eq_getElem?_getD,
      List.getElem?_eq_getElem hlt, hchar, Option.getD_some]

/-- A decoded id is encoded as its normal form. -/
theorem encode_decode {id : String} {bytes : Bytes} (hdecode : decode id = .ok bytes) :
    encode bytes = .ok (normalForm id) := by
  obtain ⟨hlength, hchars⟩ := (decode_isOk_iff id).mp ⟨bytes, hdecode⟩
  obtain ⟨groups, hreads⟩ := exists_reads hchars
  have hcount : groups.length = rowIdChars := (List.Forall₂.length_eq hreads).symm.trans hlength
  obtain ⟨decoded, hdecoded, -, hnumber⟩ := decode_spec hreads hcount
  rw [String.ofList_toList, hdecode] at hdecoded
  obtain rfl := Except.ok.inj hdecoded
  obtain ⟨written, hencode, hwritten, hbounded, hwrittenNumber⟩ :=
    encode_spec (decode_length hdecode)
  obtain ⟨first, last, rfl⟩ : ∃ first last, groups = first ++ [last] := by
    refine ⟨groups.dropLast, groups.getLast ?_, (List.dropLast_append_getLast _).symm⟩
    intro hempty
    rw [hempty] at hcount
    cases hcount
  have hlast : last < 2 ^ 5 := hreads.bounded last (by simp)
  have hclear : last &&& 0b11100 = last / 2 ^ 2 * 2 ^ 2 := by
    have hall : ∀ group < 2 ^ 5, group &&& 0b11100 = group / 2 ^ 2 * 2 ^ 2 := by decide
    exact hall last hlast
  -- the written groups are those that were read, with the last one cleared
  have hsame : written = first ++ [last &&& 0b11100] := by
    apply radix_inj (by decide : 1 < 2 ^ 5)
    · rw [hwritten, ← hcount, List.length_append, List.length_append]
      rfl
    · exact hbounded
    · intro group hgroup
      rcases List.mem_append.mp hgroup with hold | hnew
      · exact hreads.bounded group (List.mem_append_left _ hold)
      · rw [List.mem_singleton.mp hnew, hclear]
        omega
    · rw [hwrittenNumber, hnumber, radix_concat, radix_concat, hclear]
      omega
  rw [hencode, hsame]
  unfold normalForm
  have hindex : crockford.idxOf (charOf last) = last := by
    have hall : ∀ group < 2 ^ 5, crockford.idxOf (charOf group) = group := by decide +kernel
    exact hall last hlast
  simp only [hreads.map_toUpper, List.map_append, List.map_singleton, List.dropLast_concat,
    List.getLast?_concat, Option.map_some, Option.toList_some, hindex]

/-- The codec: every 16 bytes are encoded as 26 characters of the alphabet that decode to them, and
an id is accepted exactly when it is made of 26 characters of the alphabet in either letter case; it
then has 16 bytes, which are encoded as its normal form. -/
theorem rowId_codec :
    (∀ bytes : Bytes, bytes.length = rowIdBytes → ∃ id, encode bytes = .ok id ∧
      id.toList.length = rowIdChars ∧ (∀ ch ∈ id.toList, ch ∈ crockford) ∧
      decode id = .ok bytes) ∧
    ∀ id : String,
      ((∃ bytes, decode id = .ok bytes) ↔
        id.toList.length = rowIdChars ∧ ∀ ch ∈ id.toList, ch.toUpper ∈ crockford) ∧
      ∀ bytes, decode id = .ok bytes →
        bytes.length = rowIdBytes ∧ encode bytes = .ok (normalForm id) := by
  refine ⟨fun bytes hlength ↦ ?_, fun id ↦
    ⟨decode_isOk_iff id, fun bytes hdecode ↦ ⟨decode_length hdecode, encode_decode hdecode⟩⟩⟩
  obtain ⟨groups, hencode, hcount, hbounded, -⟩ := encode_spec hlength
  refine ⟨_, hencode, ?_, ?_, decode_encode hencode⟩
  · rw [String.toList_ofList, List.length_map, hcount]
  · intro ch hch
    rw [String.toList_ofList] at hch
    obtain ⟨group, hgroup, rfl⟩ := List.mem_map.mp hch
    have hall : ∀ group < 2 ^ 5, charOf group ∈ crockford := by decide +kernel
    exact hall group (hbounded group hgroup)

end OpfsWebauthn.Storage.RowId
