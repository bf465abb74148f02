import Mathlib.Algebra.Group.Nat.Defs
import OpfsWebauthn.Storage.Rpc

/-!
# The primitives of the crypto crate

The crates below `opfs-crypto`: BLAKE3, base32, X25519, HKDF-SHA-256 and AES-256-GCM. The code uses
them as functions, so they are the fields of one structure, and what a result needs of them is a
hypothesis of that result. Fixed-length arrays carry their length.
-/

set_option autoImplicit false
set_option relaxedAutoImplicit false

namespace OpfsWebauthn.Crypto

open Storage

/-- A `[u8; length]`. -/
abbrev ByteArrayN (length : ℕ) := {bytes : Bytes // bytes.length = length}

/-- `try_into()` from a slice to an array. -/
def toArray? (length : ℕ) (bytes : Bytes) : Option (ByteArrayN length) :=
  if hlength : bytes.length = length then some ⟨bytes, hlength⟩ else none

/-- A slice of the right length becomes the array of its bytes. -/
theorem toArray?_coe {length : ℕ} (array : ByteArrayN length) :
    toArray? length array = some array := by
  rw [toArray?, dif_pos array.property]

/-- An array has the bytes of the slice it was made from. -/
theorem val_of_toArray? {length : ℕ} {bytes : Bytes} {array : ByteArrayN length}
    (harray : toArray? length bytes = some array) : array.val = bytes := by
  unfold toArray? at harray
  split_ifs at harray
  exact (congrArg Subtype.val (Option.some.inj harray)).symm

/-- The bytes of a number, most significant first. -/
def bytesOf (length number : ℕ) : Bytes :=
  (List.range length).reverse.map fun position ↦ UInt8.ofNat (number / 256 ^ position % 256)

/-- An array of the bytes of a number. -/
def arrayOf (length number : ℕ) : ByteArrayN length :=
  ⟨bytesOf length number, by simp [bytesOf]⟩

/-- `KEY_LEN`, and the length of an X25519 key and of a BLAKE3 digest. -/
def keyLen : ℕ := 32

/-- `NONCE_LEN`. -/
def nonceLen : ℕ := 12

/-- The primitives. -/
structure Primitives where
  /-- `blake3::hash`. -/
  blake3 : Bytes → ByteArrayN keyLen
  /-- `base32::encode(Alphabet::Crockford, _)`. -/
  base32Encode : Bytes → String
  /-- `PublicKey::from(&secret)`. -/
  publicKey : ByteArrayN keyLen → ByteArrayN keyLen
  /-- `secret.diffie_hellman(&public)`. -/
  diffieHellman : ByteArrayN keyLen → ByteArrayN keyLen → ByteArrayN keyLen
  /-- `Hkdf::<Sha256>::new(Some(salt), ikm)` expanded to 32 bytes under `info`. -/
  hkdf : (salt ikm info : Bytes) → Option (ByteArrayN keyLen)
  /-- `Aes256Gcm` in place, with the tag at the end. -/
  aeadEncrypt : ByteArrayN keyLen → ByteArrayN nonceLen → (aad plaintext : Bytes) → Option Bytes
  /-- The inverse of `aeadEncrypt`, or nothing when the tag does not verify. -/
  aeadDecrypt : ByteArrayN keyLen → ByteArrayN nonceLen → (aad ciphertext : Bytes) → Option Bytes

end OpfsWebauthn.Crypto
