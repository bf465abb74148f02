import Mathlib.Data.List.Nodup
import OpfsWebauthn.Crypto.CryptoVault
import OpfsWebauthn.Crypto.History

/-!
# Tabulated primitives

An authenticated encryption that is known at finitely many points: it encrypts exactly the entries
of a table, and decrypts exactly their ciphertexts. It is correct as soon as the ciphertexts are
distinct (`correctAead_of_table`), and tagged when they carry the tag (`taggedAead_of_table`). A run
that uses the primitives only at the points of a table can be computed with the real values there.
-/

set_option autoImplicit false
set_option relaxedAutoImplicit false

namespace OpfsWebauthn.Crypto

open Storage

/-- The encryption of a table. -/
def tableEncrypt (table : List AeadEntry) (key : ByteArrayN keyLen) (nonce : ByteArrayN nonceLen)
    (aad plaintext : Bytes) : Option Bytes :=
  (table.find? fun entry ↦ entry.key = key ∧ entry.nonce = nonce ∧ entry.aad = aad ∧
    entry.plaintext = plaintext).map AeadEntry.ciphertext

/-- The decryption of a table. -/
def tableDecrypt (table : List AeadEntry) (key : ByteArrayN keyLen) (nonce : ByteArrayN nonceLen)
    (aad ciphertext : Bytes) : Option Bytes :=
  (table.find? fun entry ↦ entry.key = key ∧ entry.nonce = nonce ∧ entry.aad = aad ∧
    entry.ciphertext = ciphertext).map AeadEntry.plaintext

/-- What is encrypted is an entry. -/
theorem entry_of_tableEncrypt {table : List AeadEntry} {key : ByteArrayN keyLen}
    {nonce : ByteArrayN nonceLen} {aad plaintext ciphertext : Bytes}
    (hencrypt : tableEncrypt table key nonce aad plaintext = some ciphertext) :
    ⟨key, nonce, aad, plaintext, ciphertext⟩ ∈ table := by
  obtain ⟨entry, hfind, rfl⟩ := Option.map_eq_some_iff.mp hencrypt
  have hmatch := List.find?_some hfind
  rw [decide_eq_true_eq] at hmatch
  obtain ⟨rfl, rfl, rfl, rfl⟩ := hmatch
  exact List.mem_of_find?_eq_some hfind

/-- What is decrypted is an entry. -/
theorem entry_of_tableDecrypt {table : List AeadEntry} {key : ByteArrayN keyLen}
    {nonce : ByteArrayN nonceLen} {aad ciphertext plaintext : Bytes}
    (hdecrypt : tableDecrypt table key nonce aad ciphertext = some plaintext) :
    ⟨key, nonce, aad, plaintext, ciphertext⟩ ∈ table := by
  obtain ⟨entry, hfind, rfl⟩ := Option.map_eq_some_iff.mp hdecrypt
  have hmatch := List.find?_some hfind
  rw [decide_eq_true_eq] at hmatch
  obtain ⟨rfl, rfl, rfl, rfl⟩ := hmatch
  exact List.mem_of_find?_eq_some hfind

/-- A table with distinct ciphertexts is a correct authenticated encryption. -/
theorem correctAead_of_table {primitives : Primitives} {table : List AeadEntry}
    (hencrypt : primitives.aeadEncrypt = tableEncrypt table)
    (hdecrypt : primitives.aeadDecrypt = tableDecrypt table)
    (hdistinct : (table.map AeadEntry.ciphertext).Nodup) : primitives.CorrectAead := by
  intro key nonce aad plaintext ciphertext hcipher
  rw [hencrypt] at hcipher
  have hentry := entry_of_tableEncrypt hcipher
  rw [hdecrypt, tableDecrypt]
  cases hfind : table.find? fun entry ↦ entry.key = key ∧ entry.nonce = nonce ∧
      entry.aad = aad ∧ entry.ciphertext = ciphertext with
  | none =>
    have hnone := List.find?_eq_none.mp hfind _ hentry
    simp at hnone
  | some entry =>
    have hmatch := List.find?_some hfind
    rw [decide_eq_true_eq] at hmatch
    have hsame := List.inj_on_of_nodup_map hdistinct (List.mem_of_find?_eq_some hfind) hentry
      hmatch.2.2.2
    rw [hsame]
    rfl

/-- A table whose ciphertexts carry the tag is a tagged encryption. -/
theorem taggedAead_of_table {primitives : Primitives} {table : List AeadEntry}
    (hencrypt : primitives.aeadEncrypt = tableEncrypt table)
    (htagged : ∀ entry ∈ table, entry.ciphertext.length = entry.plaintext.length + tagLen) :
    primitives.TaggedAead := by
  intro key nonce aad plaintext ciphertext hcipher
  rw [hencrypt] at hcipher
  exact htagged _ (entry_of_tableEncrypt hcipher)

end OpfsWebauthn.Crypto
