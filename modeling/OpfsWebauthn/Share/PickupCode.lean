import Mathlib.Data.List.GetD
import OpfsWebauthn.Foundation.BitStrings
import OpfsWebauthn.Share.ExchangeLedger
import OpfsWebauthn.Share.RelayConfidentiality

/-!
# What a pickup code commits to

`commitment.rs` clears the low four bits of the eighth byte of a digest, writes the eight bytes in
base32 and drops the thirteenth character. `commitmentCode_commits` says what is left: exactly the
first 60 bits of the digest, in twelve characters of the alphabet, so that a key has one code.

The base32 crate is a parameter, and `GroupsBits` is what its documentation says of it.
-/

set_option autoImplicit false
set_option relaxedAutoImplicit false

namespace OpfsWebauthn.Share

open Foundation Storage Crypto

/-! ### Base32 -/

/-- The alphabet of `Alphabet::Crockford`. -/
def crockfordAlphabet : List Char :=
  "0123456789ABCDEFGHJKMNPQRSTVWXYZ".toList

/-- The character of five bits. -/
def base32Digit (part : List Bool) : Char :=
  crockfordAlphabet.getD (ofBits part) '0'

/-- Base32 of a byte string: a character for each five bits, most significant first. -/
def crockfordBase32 (bytes : Bytes) : String :=
  String.ofList ((bitGroups 5 (byteBits bytes)).map base32Digit)

/-- The assumption on the base32 crate. -/
def GroupsBits (primitives : Primitives) : Prop :=
  ∀ bytes, primitives.base32Encode bytes = crockfordBase32 bytes

/-- Five bits have a character of the alphabet. -/
theorem base32Digit_mem {part : List Bool} (hpart : part.length = 5) :
    base32Digit part ∈ crockfordAlphabet := by
  have hnumber : ofBits part < crockfordAlphabet.length := by
    have hbound := ofBits_lt part
    rw [hpart] at hbound
    exact hbound
  rw [base32Digit, List.getD_eq_getElem _ _ hnumber]
  exact List.getElem_mem hnumber

/-- Different groups have different characters. -/
theorem base32Digit_inj {first second : List Bool} (hfirst : first.length = 5)
    (hsecond : second.length = 5) (hdigit : base32Digit first = base32Digit second) :
    first = second := by
  have hnodup : crockfordAlphabet.Nodup := by decide
  have hbound : ∀ part : List Bool, part.length = 5 → ofBits part < crockfordAlphabet.length := by
    intro part hpart
    have hlt := ofBits_lt part
    rw [hpart] at hlt
    exact hlt
  rw [base32Digit, base32Digit, List.getD_eq_getElem _ _ (hbound first hfirst),
    List.getD_eq_getElem _ _ (hbound second hsecond)] at hdigit
  exact ofBits_inj (hfirst.trans hsecond.symm) ((List.Nodup.getElem_inj_iff hnodup).mp hdigit)

/-- Groups of five bits are determined by their characters. -/
theorem map_base32Digit_inj {first second : List (List Bool)}
    (hfirst : ∀ part ∈ first, part.length = 5) (hsecond : ∀ part ∈ second, part.length = 5)
    (hdigits : first.map base32Digit = second.map base32Digit) : first = second := by
  induction first generalizing second with
  | nil => exact (List.map_eq_nil_iff.mp hdigits.symm).symm
  | cons part rest ih =>
    cases second with
    | nil => cases hdigits
    | cons other others =>
      obtain ⟨hhead, htail⟩ := List.cons.inj hdigits
      rw [List.forall_mem_cons] at hfirst hsecond
      rw [base32Digit_inj hfirst.1 hsecond.1 hhead, ih hfirst.2 hsecond.2 htail]

/-! ### The commitment -/

/-- `COMMITMENT_BITS`. -/
def commitmentBits : ℕ := 60

/-- The mask keeps the upper half of a byte. -/
theorem take_bits_mask (byte : UInt8) :
    (bits 8 (byte &&& 0xf0).toNat).take 4 = (bits 8 byte.toNat).take 4 := by
  have hall : ∀ number < 256, (bits 8 (UInt8.ofNat number &&& 0xf0).toNat).take 4 =
      (bits 8 (UInt8.ofNat number).toNat).take 4 := by
    decide +kernel
  have hbyte := hall byte.toNat byte.toNat_lt
  rwa [UInt8.ofNat_toNat] at hbyte

/-- The buffer of eight bytes has the first 60 bits of what it was made from. -/
theorem take_byteBits_buffer {bytes : Bytes} (hlength : bytes.length = 8) :
    (byteBits (bytes.take 7 ++ (bytes.drop 7).map (· &&& 0xf0))).take commitmentBits =
      (byteBits bytes).take commitmentBits := by
  have hfront : (byteBits (bytes.take 7)).length = 56 := by
    rw [length_byteBits, List.length_take, hlength]
    rfl
  obtain ⟨byte, hbyte⟩ : ∃ byte, bytes.drop 7 = [byte] := by
    apply List.length_eq_one_iff.mp
    rw [List.length_drop, hlength]
  have hsplit : byteBits bytes = byteBits (bytes.take 7) ++ bits 8 byte.toNat := by
    have hbytes : bytes = bytes.take 7 ++ [byte] := by
      rw [← hbyte, List.take_append_drop]
    conv_lhs => rw [hbytes]
    rw [byteBits_append]
    simp [byteBits]
  have hmasked : byteBits (bytes.take 7 ++ (bytes.drop 7).map (· &&& 0xf0)) =
      byteBits (bytes.take 7) ++ bits 8 (byte &&& 0xf0).toNat := by
    rw [hbyte, byteBits_append]
    simp [byteBits]
  rw [hmasked, hsplit, commitmentBits, List.take_append, List.take_append, hfront, take_bits_mask]

variable {primitives : Primitives}

/-- The first bytes of a digest have its first bits. -/
theorem take_byteBits_take (bytes : Bytes) :
    (byteBits (bytes.take 8)).take commitmentBits = (byteBits bytes).take commitmentBits := by
  have hbytes : byteBits bytes = byteBits (bytes.take 8) ++ byteBits (bytes.drop 8) := by
    rw [← byteBits_append, List.take_append_drop]
  by_cases hshort : bytes.length ≤ 8
  · rw [List.take_of_length_le hshort]
  · have hlength : (byteBits (bytes.take 8)).length = 64 := by
      rw [length_byteBits, List.length_take]
      omega
    rw [hbytes, List.take_append_of_le_length]
    rw [hlength, commitmentBits]
    omega

/-- A code is written from twelve groups of five bits, which are the first 60 bits of the digest. -/
theorem exists_groups_commitmentCode (hbase32 : GroupsBits primitives) (epk : Bytes) :
    ∃ parts : List (List Bool), (commitmentCode primitives epk).toList = parts.map base32Digit ∧
      parts.length = codeLen ∧ (∀ part ∈ parts, part.length = 5) ∧
      parts.flatten = (byteBits (primitives.blake3 epk).val).take commitmentBits := by
  have hdigest : ((primitives.blake3 epk).val.take 8).length = 8 := by
    rw [List.length_take, (primitives.blake3 epk).property]
    rfl
  set buffer := ((primitives.blake3 epk).val.take 8).take 7 ++
    (((primitives.blake3 epk).val.take 8).drop 7).map (· &&& 0xf0) with hbuffer
  have hlength : (byteBits buffer).length = 64 := by
    rw [length_byteBits, hbuffer, List.length_append, List.length_take, List.length_map,
      List.length_drop, hdigest]
    rfl
  refine ⟨firstGroups 5 (byteBits buffer) codeLen, ?_, ?_, ?_, ?_⟩
  · rw [commitmentCode, String.toList_ofList, hbase32, crockfordBase32, String.toList_ofList,
      ← List.map_take, bitGroups, ← hbuffer, hlength]
    rw [take_firstGroups _ (by decide)]
  · rw [firstGroups, List.length_map, List.length_range]
  · exact fun part hpart ↦ length_of_mem_firstGroups hpart
  · have hwhole : codeLen * 5 ≤ (byteBits buffer).length := by
      rw [hlength]
      decide
    rw [flatten_firstGroups hwhole]
    exact (take_byteBits_buffer hdigest).trans (take_byteBits_take _)

/-- The assumption of the base32 crate gives the digits and capital letters of a code. -/
theorem base32Digits_of_groupsBits (hbase32 : GroupsBits primitives) : Base32Digits primitives := by
  intro bytes hbytes
  have hlength : (byteBits bytes).length = 64 := by
    rw [length_byteBits, hbytes]
  rw [hbase32, crockfordBase32, String.toList_ofList, bitGroups, hlength]
  refine ⟨by rw [List.length_map, firstGroups, List.length_map, List.length_range], ?_⟩
  rw [List.all_eq_true]
  intro ch hch
  obtain ⟨part, hpart, rfl⟩ := List.mem_map.mp hch
  have hall : crockfordAlphabet.all isCodeChar = true := by decide
  exact List.all_eq_true.mp hall _ (base32Digit_mem (length_of_mem_firstGroups hpart))

/-- Two keys have the same code exactly when the first 60 bits of their digests agree; a code has
twelve characters of the alphabet; and a key verifies with its code only. -/
theorem commitmentCode_commits (hbase32 : GroupsBits primitives) :
    (∀ first second, commitmentCode primitives first = commitmentCode primitives second ↔
      (byteBits (primitives.blake3 first).val).take commitmentBits =
        (byteBits (primitives.blake3 second).val).take commitmentBits) ∧
    (∀ epk, (commitmentCode primitives epk).toList.length = codeLen ∧
      ∀ ch ∈ (commitmentCode primitives epk).toList, ch ∈ crockfordAlphabet) ∧
    (∀ epk code, commitmentVerify primitives code epk = true ↔
      code = commitmentCode primitives epk) ∧
    ∀ epk, epk.length = x25519PubkeyLen →
      codeForPubkey primitives epk = commitmentCode primitives epk ∧
      ∀ code, verifyCode primitives code epk = true ↔ code = commitmentCode primitives epk := by
  have hverify : ∀ epk code, commitmentVerify primitives code epk = true ↔
      code = commitmentCode primitives epk := by
    intro epk code
    have hlength : utf8Length (commitmentCode primitives epk) = codeLen :=
      utf8Length_of_normalizeCode
        (normalizeCode_commitmentCode (base32Digits_of_groupsBits hbase32) epk)
    unfold commitmentVerify
    split_ifs with hshort
    · simp only [false_iff]
      intro hcode
      exact hshort (hcode ▸ hlength)
    · rw [decide_eq_true_eq]
  refine ⟨fun first second ↦ ?_, fun epk ↦ ?_, hverify, fun epk hkey ↦ ?_⟩
  · obtain ⟨parts, hcode, hcount, hparts, hbits⟩ := exists_groups_commitmentCode hbase32 first
    obtain ⟨others, hother, hotherCount, hothers, hotherBits⟩ :=
      exists_groups_commitmentCode hbase32 second
    rw [← String.toList_inj, hcode, hother, ← hbits, ← hotherBits]
    constructor
    · intro hdigits
      rw [map_base32Digit_inj hparts hothers hdigits]
    · intro hstring
      rw [groups_unique (hcount.trans hotherCount.symm) hparts hothers hstring]
  · obtain ⟨parts, hcode, hcount, hparts, -⟩ := exists_groups_commitmentCode hbase32 epk
    rw [hcode]
    refine ⟨by rw [List.length_map, hcount], fun ch hch ↦ ?_⟩
    obtain ⟨part, hpart, rfl⟩ := List.mem_map.mp hch
    exact base32Digit_mem (hparts part hpart)
  · refine ⟨if_neg (not_not.mpr hkey), fun code ↦ ?_⟩
    rw [← hverify epk code]
    unfold verifyCode
    split_ifs with hbad
    · have hshort : utf8Length code ≠ codeLen := hbad.resolve_left (not_not.mpr hkey)
      simp [commitmentVerify, hshort]
    · exact Iff.rfl

/-- The tabulated primitives, with base32 on every byte string. -/
def committing : Primitives :=
  { tabulated with base32Encode := crockfordBase32 }

/-- The two keys of the tabulated run have different codes, so their digests differ in the first 60
bits; the first key verifies with its code only. -/
theorem commitmentCode_commits_recipientKey :
    (byteBits (committing.blake3 recipientKey).val).take commitmentBits ≠
      (byteBits (committing.blake3 relayKey).val).take commitmentBits ∧
    ∀ code, commitmentVerify committing code recipientKey = true ↔ code = "JCAEZF2HWP7K" := by
  have hcode : commitmentCode committing recipientKey = "JCAEZF2HWP7K" := by decide +kernel
  have hother : commitmentCode committing relayKey = "Z8QM2RJ22VVG" := by decide +kernel
  obtain ⟨hcommits, -, hverify, -⟩ :=
    @commitmentCode_commits committing fun _ ↦ rfl
  refine ⟨fun hbits ↦ ?_, fun code ↦ ?_⟩
  · have hsame := (hcommits _ _).mpr hbits
    rw [hcode, hother] at hsame
    exact absurd hsame (by decide)
  · rw [hverify, hcode]

end OpfsWebauthn.Share
