import OpfsWebauthn.Crypto.Primitives

/-!
# Histories of encryptions

An ideal AES-GCM accepts what was encrypted, and nothing else. What was encrypted grows, so it is an
argument: `Primitives.after` restricts the decryption to a history of encryptions. That a ciphertext
decrypts under no other key, nonce or associated data is then a property of the history: it has no
ciphertext twice, for two different encryptions (`DistinctCiphertexts`).
-/

set_option autoImplicit false
set_option relaxedAutoImplicit false

namespace OpfsWebauthn.Crypto

open Storage

/-- One encryption. -/
structure AeadEntry where
  key : ByteArrayN keyLen
  nonce : ByteArrayN nonceLen
  aad : Bytes
  plaintext : Bytes
  ciphertext : Bytes
deriving DecidableEq, Repr

/-- An encryption produced the ciphertext under the key, the nonce and the associated data. -/
def Produced (history : List AeadEntry) (key : ByteArrayN keyLen) (nonce : ByteArrayN nonceLen)
    (aad ciphertext : Bytes) : Prop :=
  ∃ entry ∈ history, entry.key = key ∧ entry.nonce = nonce ∧ entry.aad = aad ∧
    entry.ciphertext = ciphertext

instance (history : List AeadEntry) (key : ByteArrayN keyLen) (nonce : ByteArrayN nonceLen)
    (aad ciphertext : Bytes) : Decidable (Produced history key nonce aad ciphertext) := by
  unfold Produced
  infer_instance

/-- A longer history has produced as much. -/
theorem Produced.mono {history later : List AeadEntry} {key : ByteArrayN keyLen}
    {nonce : ByteArrayN nonceLen} {aad ciphertext : Bytes}
    (hproduced : Produced history key nonce aad ciphertext)
    (hlater : ∀ entry ∈ history, entry ∈ later) : Produced later key nonce aad ciphertext := by
  obtain ⟨entry, hentry, hparts⟩ := hproduced
  exact ⟨entry, hlater entry hentry, hparts⟩

/-- The ideal primitives after a history of encryptions: what was not produced is not accepted. -/
def Primitives.after (primitives : Primitives) (history : List AeadEntry) : Primitives :=
  { primitives with
    aeadDecrypt := fun key nonce aad ciphertext ↦
      if Produced history key nonce aad ciphertext then
        primitives.aeadDecrypt key nonce aad ciphertext
      else none }

/-- What is accepted was produced, and is decrypted as before. -/
theorem aeadDecrypt_after {primitives : Primitives} {history : List AeadEntry}
    {key : ByteArrayN keyLen} {nonce : ByteArrayN nonceLen} {aad ciphertext plaintext : Bytes} :
    (primitives.after history).aeadDecrypt key nonce aad ciphertext = some plaintext ↔
      Produced history key nonce aad ciphertext ∧
        primitives.aeadDecrypt key nonce aad ciphertext = some plaintext := by
  show (if Produced history key nonce aad ciphertext then
    primitives.aeadDecrypt key nonce aad ciphertext else none) = some plaintext ↔ _
  exact Option.ite_none_right_eq_some

/-- Different encryptions have different ciphertexts. -/
def DistinctCiphertexts (history : List AeadEntry) : Prop :=
  ∀ entry ∈ history, ∀ other ∈ history, entry.ciphertext = other.ciphertext →
    entry.key = other.key ∧ entry.nonce = other.nonce ∧ entry.aad = other.aad

instance (history : List AeadEntry) : Decidable (DistinctCiphertexts history) := by
  unfold DistinctCiphertexts
  infer_instance

/-- A ciphertext of the history decrypts only under the key and for the associated data it was made
with. -/
theorem DistinctCiphertexts.of_decrypt {primitives : Primitives} {history : List AeadEntry}
    (hdistinct : DistinctCiphertexts history) {made : AeadEntry} (hmade : made ∈ history)
    {key : ByteArrayN keyLen} {nonce : ByteArrayN nonceLen} {aad plaintext : Bytes}
    (hdecrypt : (primitives.after history).aeadDecrypt key nonce aad made.ciphertext =
      some plaintext) : key = made.key ∧ nonce = made.nonce ∧ aad = made.aad := by
  obtain ⟨⟨entry, hentry, rfl, rfl, rfl, hciphertext⟩, -⟩ := aeadDecrypt_after.mp hdecrypt
  exact hdistinct entry hentry made hmade hciphertext

end OpfsWebauthn.Crypto
