import OpfsWebauthn.Storage.Rpc

/-!
# Row ids

`id.rs` of the repository crate. A row id is 16 bytes at rest and 26 Crockford base32 characters on
the page. `encode` and `decode` keep the two accumulators of the source: a 32-bit word, whose top
bits are lost by the shifts, and the number of bits in it that are not consumed yet.

`decode_length` says that a decoded id always has 16 bytes, and `encode_total` that every 16 bytes
can be encoded. An id is `Canonical` when it is what its bytes are encoded as.
-/

set_option autoImplicit false
set_option relaxedAutoImplicit false

namespace OpfsWebauthn.Storage.RowId

/-- `CROCKFORD`: the base32 alphabet. -/
def crockford : List Char :=
  "0123456789ABCDEFGHJKMNPQRSTVWXYZ".toList

/-- `ROW_ID_BYTES`. -/
def rowIdBytes : ℕ := 16

/-- `ROW_ID_CHARS`. -/
def rowIdChars : ℕ := 26

/-- The errors of the codec. -/
inductive Error
  | wrongRowIdLength (expected got : ℕ)
  | invalidRowIdChar (ch : Char)
deriving DecidableEq, Repr

/-- A character as `{:?}` writes it, as far as Latin-1 goes: quotes, backslashes and control
characters are escaped. -/
def debugChar (ch : Char) : String :=
  let escaped :=
    match ch.toNat with
    | 0x00 => "\\0"
    | 0x09 => "\\t"
    | 0x0a => "\\n"
    | 0x0d => "\\r"
    | 0x27 => "\\'"
    | 0x5c => "\\\\"
    | code =>
      if code < 0x20 || (0x7f ≤ code && code < 0xa0) || code = 0xad then
        "\\u\x7b" ++ String.ofList (Nat.toDigits 16 code) ++ "\x7d"
      else String.ofList [ch]
  "'" ++ escaped ++ "'"

/-- The text of an error. -/
def Error.text : Error → String
  | .wrongRowIdLength expected got =>
    "row id must be " ++ toString expected ++ " units, got " ++ toString got
  | .invalidRowIdChar ch =>
    "row id contains non-Crockford character " ++ debugChar ch

example : Error.text (.invalidRowIdChar (Char.ofNat 0x1b)) =
    "row id contains non-Crockford character '\\u\x7b1b\x7d'" := by decide

/-- `CROCKFORD[idx] as char`, for the five low bits of a word. -/
def digit (word : UInt32) : Char :=
  crockford.getD (word &&& 0b11111).toNat '0'

/-- The inner loop of `encode`: writes a character for every five bits that are left. -/
def drain (value : UInt32) : ℕ → List Char → ℕ × List Char
  | bits + 5, out => drain value bits (out ++ [digit (value >>> UInt32.ofNat bits)])
  | bits, out => (bits, out)

/-- The state of `encode` between two bytes. -/
structure EncodeState where
  bits : ℕ
  value : UInt32
  out : List Char
deriving DecidableEq, Repr

/-- One pass of the outer loop of `encode`. -/
def encodeByte (state : EncodeState) (byte : UInt8) : EncodeState :=
  let value := (state.value <<< 8) ||| byte.toUInt32
  let drained := drain value (state.bits + 8) state.out
  ⟨drained.1, value, drained.2⟩

/-- `encode(bytes)`. -/
def encode (bytes : Bytes) : Except Error String :=
  if bytes.length ≠ rowIdBytes then
    .error (.wrongRowIdLength rowIdBytes bytes.length)
  else
    let final := bytes.foldl encodeByte ⟨0, 0, []⟩
    if final.bits > 0 then
      -- the bits that remain fill the top of a last group
      .ok (String.ofList (final.out ++ [digit (final.value <<< UInt32.ofNat (5 - final.bits))]))
    else .ok (String.ofList final.out)

/-- The state of `decode` between two characters. -/
structure DecodeState where
  bits : ℕ
  value : UInt32
  out : Bytes
deriving DecidableEq, Repr

/-- One pass of the loop of `decode`. -/
def decodeChar (state : DecodeState) (ch : Char) : Except Error DecodeState :=
  match crockford.idxOf? ch.toUpper with
  | none => .error (.invalidRowIdChar ch)
  | some idx =>
    let value := (state.value <<< 5) ||| UInt32.ofNat idx
    let bits := state.bits + 5
    if bits ≥ 8 then
      .ok ⟨bits - 8, value, state.out ++ [(value >>> UInt32.ofNat (bits - 8)).toUInt8]⟩
    else .ok ⟨bits, value, state.out⟩

/-- `decode(id)`. -/
def decode (id : String) : Except Error Bytes :=
  if id.toList.length ≠ rowIdChars then
    .error (.wrongRowIdLength rowIdChars id.toList.length)
  else (id.toList.foldlM decodeChar ⟨0, 0, []⟩).map DecodeState.out

/-- An id that is what its bytes are encoded as. -/
def Canonical (id : String) : Prop :=
  ∃ bytes, decode id = .ok bytes ∧ encode bytes = .ok id

instance (id : String) : Decidable (Canonical id) :=
  match hdecode : decode id with
  | .error _ => .isFalse fun ⟨_, hbytes, _⟩ ↦ by simp [hdecode] at hbytes
  | .ok bytes =>
    match hencode : encode bytes with
    | .error _ => .isFalse fun ⟨other, hother, hid⟩ ↦ by
        rw [hdecode, Except.ok.injEq] at hother
        simp [← hother, hencode] at hid
    | .ok encoded =>
      if heq : encoded = id then .isTrue ⟨bytes, hdecode, heq ▸ hencode⟩
      else .isFalse fun ⟨other, hother, hid⟩ ↦ by
        rw [hdecode, Except.ok.injEq] at hother
        rw [← hother, hencode, Except.ok.injEq] at hid
        exact heq hid

/-- Every 16 bytes can be encoded. -/
theorem encode_total {bytes : Bytes} (hlength : bytes.length = rowIdBytes) :
    ∃ id, encode bytes = .ok id := by
  unfold encode
  rw [if_neg (not_not_intro hlength)]
  dsimp only
  split_ifs
  · exact ⟨_, rfl⟩
  · exact ⟨_, rfl⟩

/-- The bits read so far are in the bytes written, except for fewer than eight that are left. -/
def DecodeState.Balanced (state : DecodeState) (read : ℕ) : Prop :=
  state.bits < 8 ∧ 8 * state.out.length + state.bits = 5 * read

/-- A character adds five bits. -/
theorem balanced_decodeChar {state next : DecodeState} {read : ℕ} {ch : Char}
    (hbalanced : state.Balanced read) (hnext : decodeChar state ch = .ok next) :
    next.Balanced (read + 1) := by
  obtain ⟨hbits, htotal⟩ := hbalanced
  unfold decodeChar at hnext
  split at hnext
  · cases hnext
  · dsimp only at hnext
    split_ifs at hnext with hfull
    · obtain rfl := Except.ok.inj hnext
      refine ⟨?_, ?_⟩
      · show state.bits + 5 - 8 < 8
        omega
      · simp only [List.length_append, List.length_singleton]
        omega
    · obtain rfl := Except.ok.inj hnext
      refine ⟨?_, ?_⟩
      · show state.bits + 5 < 8
        omega
      · show 8 * state.out.length + (state.bits + 5) = 5 * (read + 1)
        omega

/-- The loop of `decode` keeps the balance. -/
theorem balanced_foldlM (chars : List Char) {state final : DecodeState} {read : ℕ}
    (hbalanced : state.Balanced read) (hfinal : chars.foldlM decodeChar state = .ok final) :
    final.Balanced (read + chars.length) := by
  induction chars generalizing state read with
  | nil =>
    obtain rfl := Except.ok.inj hfinal
    exact hbalanced
  | cons ch rest ih =>
    rw [List.foldlM_cons] at hfinal
    cases hnext : decodeChar state ch with
    | error error =>
      rw [hnext] at hfinal
      cases hfinal
    | ok next =>
      rw [hnext] at hfinal
      have hrest := ih (balanced_decodeChar hbalanced hnext) hfinal
      rwa [List.length_cons, Nat.add_comm rest.length 1, ← Nat.add_assoc]

/-- A decoded id has 16 bytes. -/
theorem decode_length {id : String} {bytes : Bytes} (hdecode : decode id = .ok bytes) :
    bytes.length = rowIdBytes := by
  unfold decode at hdecode
  split_ifs at hdecode with hlength
  rw [not_not] at hlength
  cases hfinal : id.toList.foldlM decodeChar ⟨0, 0, []⟩ with
  | error error =>
    rw [hfinal] at hdecode
    cases hdecode
  | ok final =>
    rw [hfinal] at hdecode
    obtain rfl := Except.ok.inj hdecode
    have hbalanced : final.Balanced (0 + id.toList.length) :=
      balanced_foldlM id.toList ⟨by decide, rfl⟩ hfinal
    obtain ⟨hbits, htotal⟩ := hbalanced
    rw [hlength] at htotal
    simp only [rowIdChars] at htotal
    simp only [rowIdBytes]
    omega

example : encode (List.replicate 16 0xff) = .ok "ZZZZZZZZZZZZZZZZZZZZZZZZZW" := by decide +kernel

end OpfsWebauthn.Storage.RowId
