import Mathlib.Data.List.Induction
import OpfsWebauthn.Share.NoteCodec
import OpfsWebauthn.Share.Session

/-!
# Receiving a share

The decoder of `blob.ts`, the opening half of `share.rs`, and `pollAndDecrypt` of `share.ts`. Each
turn of the polling loop takes the reply to its download and the reading of the clock after it. The
loop goes on as long as no blob is there and the deadline has not come.

`openSealedBlob_sealed` is the round trip of the seal: the recipient derives from the sender's
public key the key that the sender derived from the recipient's, as long as the agreement commutes.
`decodeMintResponse_frame` is what the decoder makes of the frame that the backend answers a mint
request with.
-/

set_option autoImplicit false
set_option relaxedAutoImplicit false

namespace OpfsWebauthn.Share

open Foundation Storage Crypto

/-! ### The blob -/

/-- `SHARE_BLOB_HEADER_LEN`. -/
def shareBlobHeaderLen : ℕ := 1 + x25519PubkeyLen + aesGcmNonceLen

/-- `decodeShareBlob(bytes)`. -/
def decodeShareBlob (bytes : Bytes) : Except ShareError ShareBlobParts :=
  if bytes.length < shareBlobHeaderLen then
    .error (.of .protocol ("share blob shorter than header (" ++ toString bytes.length ++ " < " ++
      toString shareBlobHeaderLen ++ ")"))
  else if bytes.getD 0 0 ≠ protocolVersion then
    .error (.of .protocol ("unknown share-blob version " ++ toString (bytes.getD 0 0) ++
      ", expected " ++ toString protocolVersion))
  else
    .ok ⟨(bytes.drop 1).take x25519PubkeyLen,
      (bytes.drop (1 + x25519PubkeyLen)).take aesGcmNonceLen, bytes.drop shareBlobHeaderLen⟩

/-- A blob that was encoded is decoded to its parts. -/
theorem decodeShareBlob_of_encodeShareBlob {parts : ShareBlobParts} {bytes : Bytes}
    (hbytes : encodeShareBlob parts = .ok bytes) : decodeShareBlob bytes = .ok parts := by
  unfold encodeShareBlob at hbytes
  split_ifs at hbytes with hkey hnonce
  obtain ⟨key, nonce, ciphertext⟩ := parts
  have hkeyLength : key.length = 32 := not_not.mp hkey
  have hnonceLength : nonce.length = 12 := not_not.mp hnonce
  obtain rfl := Except.ok.inj hbytes
  have hlength : ¬ (protocolVersion :: (key ++ nonce ++ ciphertext)).length <
      shareBlobHeaderLen := by
    simp only [List.length_cons, List.length_append, shareBlobHeaderLen, x25519PubkeyLen,
      aesGcmNonceLen]
    omega
  have hversion : ¬ (protocolVersion :: (key ++ nonce ++ ciphertext)).getD 0 0 ≠
      protocolVersion := not_not.mpr rfl
  rw [decodeShareBlob, if_neg hlength, if_neg hversion]
  have hfirst : ((protocolVersion :: (key ++ nonce ++ ciphertext)).drop 1).take
      x25519PubkeyLen = key := by
    rw [List.drop_succ_cons, List.drop_zero, List.append_assoc, x25519PubkeyLen, ← hkeyLength,
      List.take_left]
  have hrest : (protocolVersion :: (key ++ nonce ++ ciphertext)).drop (1 + x25519PubkeyLen) =
      nonce ++ ciphertext := by
    rw [Nat.add_comm, List.drop_succ_cons, List.append_assoc, x25519PubkeyLen, ← hkeyLength,
      List.drop_left]
  have hlast : (protocolVersion :: (key ++ nonce ++ ciphertext)).drop shareBlobHeaderLen =
      ciphertext := by
    rw [shareBlobHeaderLen, ← List.drop_drop, hrest, aesGcmNonceLen, ← hnonceLength,
      List.drop_left]
  rw [hfirst, hrest, hlast, aesGcmNonceLen, ← hnonceLength, List.take_left]

/-! ### Opening -/

variable (primitives : Primitives)

/-- `open(recipient_secret, sender_pubkey, nonce, ciphertext, info)`. -/
def openShare (recipientSecret senderPubkey : ByteArrayN keyLen) (nonce : ByteArrayN nonceLen)
    (ciphertext info : Bytes) : Except String Bytes := do
  let recipientPubkey := primitives.publicKey recipientSecret
  let dh := primitives.diffieHellman recipientSecret senderPubkey
  let key ← deriveShareKey primitives dh senderPubkey recipientPubkey info
  match primitives.aeadDecrypt key nonce (aadBytes senderPubkey recipientPubkey info)
      ciphertext with
  | some plaintext => return plaintext
  | none => throw "aead: decryption failed (tag mismatch or truncated ciphertext)"

/-- `handle.openShare(senderPubkey, nonce, ciphertext)`. -/
def RecipientHandle.openShare (handle : RecipientHandle) (senderPubkey nonce ciphertext : Bytes) :
    Except String Bytes :=
  match toArray? keyLen senderPubkey with
  | none => .error ("senderPubkey must be " ++ toString keyLen ++ " bytes, got " ++
      toString senderPubkey.length)
  | some senderPk =>
    match toArray? nonceLen nonce with
    | none => .error ("nonce must be " ++ toString nonceLen ++ " bytes, got " ++
        toString nonce.length)
    | some nonce =>
      (Share.openShare primitives handle.secret senderPk nonce ciphertext shareInfo).mapError
        fun message ↦ "share crypto failure: " ++ message

/-- `openSealedBlob(handle, blob)`. -/
def openSealedBlob (handle : RecipientHandle) (blob : Bytes) : Except Thrown Bytes :=
  match decodeShareBlob blob with
  | .error error => .error (.share error)
  | .ok parts =>
    (handle.openShare primitives parts.senderPubkey parts.nonce parts.ciphertext).mapError
      fun message ↦ .share (.of .protocol ("share decryption failed: " ++ message))

/-! ### Polling -/

/-- `RendezvousClient.tryDownloadBlob(code)`: nothing when no blob is there. -/
def tryDownloadBlob : RelayReply → Except Thrown (Option Bytes)
  | .failed cause => .error (networkSafe "downloadBlob request failed" cause)
  | .response status body =>
    if isOk status then (body.mapError .foreign).map some
    else if status = 404 then .ok none
    else .error (.share (shareErrorForStatus status .downloadBlob))

/-- `DEFAULT_POLL_TIMEOUT_MS`. -/
def defaultPollTimeoutMs : ℕ := 300000

/-- The deadline of `pollAndDecrypt(client, session, { timeoutMs })` that starts at `now`, in
milliseconds. -/
def pollDeadline (session : RecipientSession) (now : ℕ) (timeoutMs : Option ℕ) : ℕ :=
  min (now + timeoutMs.getD defaultPollTimeoutMs) (session.expiresAt * 1000)

/-- One turn of the loop of `pollAndDecrypt`, after which the clock shows `now`: what the promise is
settled with, or nothing when the loop goes on. -/
def pollTurn (handle : RecipientHandle) (deadline now : ℕ) (reply : RelayReply) :
    Option (Except Thrown Bytes) :=
  match tryDownloadBlob reply with
  | .error cause => some (.error cause)
  | .ok (some blob) => some (openSealedBlob primitives handle blob)
  | .ok none =>
    if now ≥ deadline then
      some (.error (.share (.of .rendezvousExpired "timed out waiting for the sender")))
    else none

/-! ### What was sealed is opened -/

/-- The assumption on the key agreement: both sides compute the same. -/
def AgreementCommutes : Prop :=
  ∀ first second, primitives.diffieHellman first (primitives.publicKey second) =
    primitives.diffieHellman second (primitives.publicKey first)

variable {primitives}

/-- What was sealed for a secret's public key is opened with the secret. -/
theorem openShare_sealed (hcommutes : AgreementCommutes primitives)
    (hcorrect : primitives.CorrectAead) {secret : ByteArrayN keyLen} {plaintext info : Bytes}
    {entropy : SealEntropy} {sealed : SealedShare}
    (hsealed : sealWithComponents primitives (primitives.publicKey secret) plaintext info entropy =
      .ok sealed) :
    openShare primitives secret sealed.senderPubkey sealed.nonce sealed.ciphertext info =
      .ok plaintext := by
  obtain ⟨key, hkey, hcipher⟩ := bind_eq_ok_iff.mp hsealed
  cases hencrypt : primitives.aeadEncrypt key entropy.nonce
      (aadBytes (primitives.publicKey entropy.senderSecret) (primitives.publicKey secret) info)
      plaintext with
  | none =>
    rw [hencrypt] at hcipher
    cases hcipher
  | some ciphertext =>
    rw [hencrypt] at hcipher
    obtain rfl := Except.ok.inj hcipher
    have hdecrypt := hcorrect _ _ _ _ _ hencrypt
    rw [hcommutes entropy.senderSecret secret] at hkey
    refine bind_eq_ok_iff.mpr ⟨key, hkey, ?_⟩
    dsimp only
    rw [hdecrypt]
    rfl

/-- A blob that was sealed for the public key of a handle opens to the plaintext. -/
theorem openSealedBlob_sealed (hcommutes : AgreementCommutes primitives)
    (hcorrect : primitives.CorrectAead) {handle : RecipientHandle} {plaintext : Bytes}
    {entropy : Option SealEntropy} {sealed : SealedShare}
    (hsealed : sealShare primitives (handle.pubkey primitives) plaintext entropy = .ok sealed) :
    openSealedBlob primitives handle (protocolVersion ::
      (sealed.senderPubkey.val ++ sealed.nonce.val ++ sealed.ciphertext)) = .ok plaintext := by
  have hdecoded := decodeShareBlob_of_encodeShareBlob (encodeShareBlob_sealed sealed)
  rw [sealShare, toArray?_coe] at hsealed
  cases entropy with
  | none => cases hsealed
  | some drawn =>
    dsimp only at hsealed
    cases hcomponents : sealWithComponents primitives (handle.pubkey primitives) plaintext shareInfo
        drawn with
    | error message =>
      rw [hcomponents] at hsealed
      cases hsealed
    | ok made =>
      rw [hcomponents] at hsealed
      obtain rfl := Except.ok.inj hsealed
      have hopened := openShare_sealed hcommutes hcorrect hcomponents
      unfold openSealedBlob
      rw [hdecoded]
      dsimp only
      unfold RecipientHandle.openShare
      rw [toArray?_coe, toArray?_coe]
      dsimp only
      rw [hopened]
      rfl

/-! ### The mint response -/

theorem bigEndian_concat (bytes : Bytes) (byte : UInt8) :
    bigEndian (bytes ++ [byte]) = 256 * bigEndian bytes + byte.toNat := by
  simp [bigEndian]

/-- A number in two groups of bytes. -/
theorem bigEndian_append (first second : Bytes) :
    bigEndian (first ++ second) = bigEndian first * 256 ^ second.length + bigEndian second := by
  induction second using List.reverseRecOn with
  | nil => simp [bigEndian]
  | append_singleton bytes byte ih =>
    rw [← List.append_assoc, bigEndian_concat, bigEndian_concat, ih, List.length_append,
      List.length_singleton, Nat.pow_succ]
    ring

/-- Some bytes hold numbers below a power of 256. -/
theorem bigEndian_lt (bytes : Bytes) : bigEndian bytes < 256 ^ bytes.length := by
  induction bytes using List.reverseRecOn with
  | nil => exact Nat.one_pos
  | append_singleton bytes byte ih =>
    have hbyte : byte.toNat < 256 := byte.toNat_lt
    rw [bigEndian_concat, List.length_append, List.length_singleton, Nat.pow_succ]
    omega

/-- The bytes of a number are read as the number. -/
theorem bigEndian_bytesOf (length number : ℕ) :
    bigEndian (bytesOf length number) = number % 256 ^ length := by
  induction length with
  | zero => simp [bytesOf, bigEndian, Nat.mod_one]
  | succ length ih =>
    have hbytes : bytesOf (length + 1) number =
        [UInt8.ofNat (number / 256 ^ length % 256)] ++ bytesOf length number := by
      simp [bytesOf, List.range_succ]
    have hlength : (bytesOf length number).length = length := by simp [bytesOf]
    have hfirst : bigEndian [UInt8.ofNat (number / 256 ^ length % 256)] =
        number / 256 ^ length % 256 := by
      simp [bigEndian]
    rw [hbytes, bigEndian_append, hlength, hfirst, ih, Nat.mod_pow_succ]
    ring

/-- A text in ASCII has the numbers of its characters as its bytes. -/
theorem utf8_of_ascii {chars : List Char} (hchars : ∀ ch ∈ chars, ch.val ≤ 0x7f) :
    utf8 (String.ofList chars) = chars.map fun ch ↦ UInt8.ofNat ch.toNat := by
  have hsingle : ∀ ch ∈ chars, String.utf8EncodeChar ch = [UInt8.ofNat ch.toNat] := by
    intro ch hch
    have hnat : ch.val.toNat ≤ 0x7f := hchars ch hch
    unfold String.utf8EncodeChar
    simp only [if_pos hnat]
    rfl
  rw [utf8_ofList, List.flatMap_congr hsingle, ← List.map_eq_flatMap]

/-- The byte of a character in ASCII is its number. -/
theorem toNat_byte_of_ascii {ch : Char} (hch : ch.val ≤ 0x7f) :
    (UInt8.ofNat ch.toNat).toNat = ch.toNat ∧ ch.toNat ≤ 0x7f := by
  have hsmall : ch.toNat ≤ 0x7f := hch
  rw [UInt8.toNat_ofNat']
  omega

/-- The bytes of a text in ASCII are in ASCII, and are read as its characters. -/
theorem ascii_utf8 {chars : List Char} (hchars : ∀ ch ∈ chars, ch.val ≤ 0x7f) :
    (∀ byte ∈ utf8 (String.ofList chars), byte.toNat ≤ 0x7f) ∧
      ((utf8 (String.ofList chars)).map fun byte ↦ Char.ofNat byte.toNat) = chars := by
  rw [utf8_of_ascii hchars]
  constructor
  · intro byte hbyte
    obtain ⟨ch, hch, rfl⟩ := List.mem_map.mp hbyte
    obtain ⟨hnumber, hsmall⟩ := toNat_byte_of_ascii (hchars ch hch)
    rw [hnumber]
    exact hsmall
  · rw [List.map_map]
    refine (List.map_congr_left fun ch hch ↦ ?_).trans (List.map_id chars)
    change Char.ofNat (UInt8.ofNat ch.toNat).toNat = ch
    rw [(toNat_byte_of_ascii (hchars ch hch)).1, Char.ofNat_toNat]

/-- Bytes in ASCII have none outside. -/
theorem nonAscii?_eq_none {bytes : Bytes} (hbytes : ∀ byte ∈ bytes, byte.toNat ≤ 0x7f) :
    ∀ offset, nonAscii? bytes offset = none := by
  induction bytes with
  | nil => exact fun _ ↦ rfl
  | cons byte rest ih =>
    intro offset
    rw [List.forall_mem_cons] at hbytes
    have hle : ¬ byte > 0x7f := by
      intro hlarge
      have hnat : 0x7f < byte.toNat := hlarge
      omega
    rw [nonAscii?, if_neg hle]
    exact ih hbytes.2 (offset + 1)

/-- A frame with a code in ASCII is decoded to the code and the deadline in 64 bits, unless that
exceeds `Number.MAX_SAFE_INTEGER`. -/
theorem decodeMintResponse_frame {code : Bytes} (expiresAt : ℕ) (hlength : code.length = codeLen)
    (hcode : ∀ byte ∈ code, byte.toNat ≤ 0x7f) :
    decodeMintResponse (protocolVersion :: (bytesOf 8 expiresAt ++ code)) =
      if 2 ^ 53 ≤ expiresAt % 2 ^ 64 then
        .error (.of .protocol "mint response expiresAt exceeds Number.MAX_SAFE_INTEGER")
      else .ok ⟨String.ofList (code.map fun byte ↦ Char.ofNat byte.toNat), expiresAt % 2 ^ 64⟩ := by
  have height : (bytesOf 8 expiresAt).length = 8 := by simp [bytesOf]
  have hnumber : bigEndian ((bytesOf 8 expiresAt).take 4) * 256 ^ 4 +
      bigEndian ((bytesOf 8 expiresAt).drop 4) = expiresAt % 2 ^ 64 := by
    have hall := bigEndian_append ((bytesOf 8 expiresAt).take 4) ((bytesOf 8 expiresAt).drop 4)
    have hfour : ((bytesOf 8 expiresAt).drop 4).length = 4 := by rw [List.length_drop, height]
    rw [List.take_append_drop, bigEndian_bytesOf, hfour] at hall
    exact hall.symm
  have hlow := bigEndian_lt ((bytesOf 8 expiresAt).drop 4)
  rw [List.length_drop, height] at hlow
  have hfirst : (bytesOf 8 expiresAt ++ code).take 4 = (bytesOf 8 expiresAt).take 4 :=
    List.take_append_of_le_length (by omega)
  have hsecond : ((bytesOf 8 expiresAt ++ code).drop 4).take 4 = (bytesOf 8 expiresAt).drop 4 := by
    rw [List.drop_append_of_le_length (by omega), List.take_left']
    rw [List.length_drop, height]
  have hrest : (bytesOf 8 expiresAt ++ code).drop 8 = code := List.drop_left' height
  have hframe : ¬ (protocolVersion :: (bytesOf 8 expiresAt ++ code)).length ≠ mintResponseLen := by
    rw [List.length_cons, List.length_append, height, hlength]
    decide
  have hversion : ¬ (protocolVersion :: (bytesOf 8 expiresAt ++ code)).getD 0 0 ≠ protocolVersion :=
    not_not.mpr rfl
  unfold decodeMintResponse
  rw [if_neg hframe, if_neg hversion]
  simp only [List.drop_succ_cons, List.drop_zero, hfirst, hsecond, hrest, nonAscii?_eq_none hcode]
  by_cases hlarge : 2 ^ 53 ≤ expiresAt % 2 ^ 64
  · have hhigh : bigEndian ((bytesOf 8 expiresAt).take 4) > 0x1fffff := by omega
    rw [if_pos hhigh, if_pos hlarge]
  · have hhigh : ¬ bigEndian ((bytesOf 8 expiresAt).take 4) > 0x1fffff := by omega
    have hwhole : bigEndian ((bytesOf 8 expiresAt).take 4) * 0x100000000 +
        bigEndian ((bytesOf 8 expiresAt).drop 4) = expiresAt % 2 ^ 64 := hnumber
    rw [if_neg hhigh, if_neg hlarge, hwhole]

/-- The frame of a text in ASCII. -/
theorem decodeMintResponse_text {chars : List Char} {expiresAt : ℕ}
    (hlength : chars.length = codeLen) (hchars : ∀ ch ∈ chars, ch.val ≤ 0x7f)
    (hexpires : expiresAt < 2 ^ 64) :
    decodeMintResponse (protocolVersion :: (bytesOf 8 expiresAt ++ utf8 (String.ofList chars))) =
      if 2 ^ 53 ≤ expiresAt then
        .error (.of .protocol "mint response expiresAt exceeds Number.MAX_SAFE_INTEGER")
      else .ok ⟨String.ofList chars, expiresAt⟩ := by
  have hcode : (utf8 (String.ofList chars)).length = codeLen := by
    rw [utf8_of_ascii hchars, List.length_map, hlength]
  obtain ⟨hascii, hback⟩ := ascii_utf8 hchars
  rw [decodeMintResponse_frame expiresAt hcode hascii, hback, Nat.mod_eq_of_lt hexpires]

end OpfsWebauthn.Share
