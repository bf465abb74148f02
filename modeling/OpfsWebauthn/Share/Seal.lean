import OpfsWebauthn.Crypto.Primitives
import OpfsWebauthn.Share.Wire

/-!
# The pickup code and the seal

`commitment.rs`, the sealing half of `share.rs`, and the functions of `core.rs` and `lib.rs` that
hand them to the page. A pickup code is the first 60 bits of the BLAKE3 digest of a public key in
base32. `sealShare` encrypts under a key derived from the sender's ephemeral secret and the
recipient's public key, and binds both public keys into the salt and the associated data.

The entropy that the wasm side draws is an argument: the sender's secret and the nonce, or nothing
when the source failed.
-/

set_option autoImplicit false
set_option relaxedAutoImplicit false

namespace OpfsWebauthn.Share

open Storage Crypto

variable (primitives : Primitives)

/-! ### The commitment -/

/-- `commitment::code_for_pubkey(epk)`: eight bytes of the digest, the last four bits cleared, in
base32 without the thirteenth character. -/
def commitmentCode (epk : Bytes) : String :=
  let digest := (primitives.blake3 epk).val.take 8
  let buf := digest.take 7 ++ (digest.drop 7).map (· &&& 0xf0)
  String.ofList ((primitives.base32Encode buf).toList.take codeLen)

/-- `codeForPubkey(epk)` of `lib.rs`: the empty text for a key of the wrong length. -/
def codeForPubkey (epk : Bytes) : String :=
  if epk.length ≠ x25519PubkeyLen then "" else commitmentCode primitives epk

/-- `commitment::verify_code(code, epk)`. -/
def commitmentVerify (code : String) (epk : Bytes) : Bool :=
  if utf8Length code ≠ codeLen then false else code = commitmentCode primitives epk

/-- `verifyCode(code, epk)` of `lib.rs`. -/
def verifyCode (code : String) (epk : Bytes) : Bool :=
  if epk.length ≠ x25519PubkeyLen ∨ utf8Length code ≠ codeLen then false
  else commitmentVerify primitives code epk

/-- A code of twelve bytes verifies exactly for the keys of 32 bytes whose code it is. -/
theorem verifyCode_iff {code : String} (hlength : utf8Length code = codeLen) (epk : Bytes) :
    verifyCode primitives code epk = true ↔
      epk.length = x25519PubkeyLen ∧ codeForPubkey primitives epk = code := by
  unfold verifyCode commitmentVerify codeForPubkey
  by_cases hkey : epk.length = x25519PubkeyLen
  · simp [hkey, hlength, eq_comm]
  · simp [hkey]

/-! ### The seal -/

/-- `SealedShare`. -/
structure SealedShare where
  senderPubkey : ByteArrayN keyLen
  nonce : ByteArrayN nonceLen
  ciphertext : Bytes
deriving DecidableEq, Repr

/-- The entropy of one seal: the sender's secret and the nonce. -/
structure SealEntropy where
  senderSecret : ByteArrayN keyLen
  nonce : ByteArrayN nonceLen
deriving DecidableEq, Repr

/-- `SHARE_INFO`. -/
def shareInfo : Bytes :=
  "opfs-webauthn/v1/share".toList.map fun ch ↦ UInt8.ofNat ch.toNat

/-- `derive_share_key(dh, sender_pubkey, recipient_pubkey, info)`. -/
def deriveShareKey (dh senderPubkey recipientPubkey : ByteArrayN keyLen) (info : Bytes) :
    Except String (ByteArrayN keyLen) :=
  match primitives.hkdf (senderPubkey.val ++ recipientPubkey.val) dh.val info with
  | some key => .ok key
  | none => .error "hkdf: HKDF expand failed"

/-- `aad_bytes(sender_pubkey, recipient_pubkey, info)`. -/
def aadBytes (senderPubkey recipientPubkey : ByteArrayN keyLen) (info : Bytes) : Bytes :=
  senderPubkey.val ++ recipientPubkey.val ++ info

/-- `seal_with_components`. -/
def sealWithComponents (recipientPubkey : ByteArrayN keyLen) (plaintext info : Bytes)
    (entropy : SealEntropy) : Except String SealedShare := do
  let senderPubkey := primitives.publicKey entropy.senderSecret
  let dh := primitives.diffieHellman entropy.senderSecret recipientPubkey
  let key ← deriveShareKey primitives dh senderPubkey recipientPubkey info
  match primitives.aeadEncrypt key entropy.nonce (aadBytes senderPubkey recipientPubkey info)
      plaintext with
  | some ciphertext => return ⟨senderPubkey, entropy.nonce, ciphertext⟩
  | none => throw "aead: encryption failed"

/-- `sealShare(recipientPubkey, plaintext)`. -/
def sealShare (recipientPubkey plaintext : Bytes) (entropy : Option SealEntropy) :
    Except String SealedShare :=
  match toArray? keyLen recipientPubkey with
  | none => .error ("recipientPubkey must be " ++ toString keyLen ++ " bytes, got " ++
      toString recipientPubkey.length)
  | some pk =>
    match entropy with
    | none => .error "entropy source (crypto.getRandomValues / OS RNG) failed"
    | some drawn =>
      (sealWithComponents primitives pk plaintext shareInfo drawn).mapError
        fun message ↦ "share crypto failure: " ++ message

/-- The parts of a seal have the lengths that the blob format asks for. -/
theorem encodeShareBlob_sealed (sealed : SealedShare) :
    encodeShareBlob ⟨sealed.senderPubkey.val, sealed.nonce.val, sealed.ciphertext⟩ =
      .ok (protocolVersion ::
        (sealed.senderPubkey.val ++ sealed.nonce.val ++ sealed.ciphertext)) := by
  have hkey : sealed.senderPubkey.val.length = x25519PubkeyLen := sealed.senderPubkey.property
  have hnonce : sealed.nonce.val.length = aesGcmNonceLen := sealed.nonce.property
  simp [encodeShareBlob, hkey, hnonce]

end OpfsWebauthn.Share
