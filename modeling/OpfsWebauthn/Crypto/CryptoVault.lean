import OpfsWebauthn.Crypto.Primitives

/-!
# The vault

`core.rs` of the wasm crate. A vault holds the data encryption key of the notes. `enroll` draws the
key, derives a key encryption key from the PRF output of a passkey, and wraps the one under the
other; `unlock` derives the same key encryption key and unwraps. `encrypt` and `decrypt` use the
data encryption key for the fields of the rows.

`CorrectAead` and `TaggedAead` are what the results about vaults assume of AES-GCM: a ciphertext
decrypts to what was encrypted, under the key, nonce and associated data it was made with, and
carries a tag.
-/

set_option autoImplicit false
set_option relaxedAutoImplicit false

namespace OpfsWebauthn.Crypto

open Storage

/-- `TAG_LEN`. -/
def tagLen : ℕ := 16

/-- What was encrypted is recovered under the same key, nonce and associated data. -/
def Primitives.CorrectAead (primitives : Primitives) : Prop :=
  ∀ key nonce aad plaintext ciphertext,
    primitives.aeadEncrypt key nonce aad plaintext = some ciphertext →
      primitives.aeadDecrypt key nonce aad ciphertext = some plaintext

/-- A ciphertext is as long as its plaintext, and the tag. -/
def Primitives.TaggedAead (primitives : Primitives) : Prop :=
  ∀ key nonce aad plaintext ciphertext,
    primitives.aeadEncrypt key nonce aad plaintext = some ciphertext →
      ciphertext.length = plaintext.length + tagLen

/-- `VaultError`. -/
inductive VaultError
  | badPrfOutputLength (got : ℕ)
  | badWrapNonceLength (got : ℕ)
  | badWrappedDekLength (got expected : ℕ)
  | badRowNonceLength (got : ℕ)
  | hkdf
  | aeadEncrypt
  | aeadDecrypt
  | keyBadLength (got : ℕ)
  | random
  | authFailure
deriving DecidableEq, Repr

/-- `PRF_OUTPUT_LEN`. -/
def prfOutputLen : ℕ := 32

/-- `to_string()` of a vault error. -/
def VaultError.text : VaultError → String
  | .badPrfOutputLength got =>
    "prfOutput must be " ++ toString prfOutputLen ++ " bytes (W3C WebAuthn PRF), got " ++
      toString got
  | .badWrapNonceLength got =>
    "wrapNonce must be " ++ toString nonceLen ++ " bytes, got " ++ toString got
  | .badWrappedDekLength got expected =>
    "wrappedDek must be " ++ toString expected ++ " bytes (DEK + GCM tag), got " ++ toString got
  | .badRowNonceLength got =>
    "nonce must be " ++ toString nonceLen ++ " bytes, got " ++ toString got
  | .hkdf => "KEK derivation failed"
  | .aeadEncrypt => "AEAD operation failed: encryption failed"
  | .aeadDecrypt =>
    "AEAD operation failed: decryption failed (tag mismatch or truncated ciphertext)"
  | .keyBadLength got =>
    "invalid key: invalid key length: expected " ++ toString keyLen ++ ", got " ++ toString got
  | .random => "entropy source (crypto.getRandomValues / OS RNG) failed"
  | .authFailure => "vault unlock failed (wrong passkey or tampered data)"

/-- `CryptoVault`. -/
structure CryptoVault where
  dek : ByteArrayN keyLen
deriving DecidableEq, Repr

/-- The entropy of an enrollment: the data encryption key and the wrap nonce. -/
structure EnrollEntropy where
  dek : ByteArrayN keyLen
  wrapNonce : ByteArrayN nonceLen
deriving DecidableEq, Repr

/-- `EnrollResult` before `take_vault`. -/
structure EnrollResult where
  vault : CryptoVault
  wrappedDek : Bytes
  wrapNonce : Bytes
deriving DecidableEq, Repr

/-- The bytes of an ASCII label. -/
def label (text : String) : Bytes :=
  text.toList.map fun ch ↦ UInt8.ofNat ch.toNat

/-- `KEK_INFO`. -/
def kekInfo : Bytes := label "opfs-webauthn/v1/kek"

/-- `DEK_WRAP_AAD`. -/
def dekWrapAad : Bytes := label "opfs-webauthn/v1/dek-wrap"

variable (primitives : Primitives)

/-- `derive_kek(prf_output, salt, info)`. -/
def deriveKek (prfOutput salt info : Bytes) : Except VaultError (ByteArrayN keyLen) :=
  match primitives.hkdf salt prfOutput info with
  | some kek => .ok kek
  | none => .error .hkdf

namespace CryptoVault

/-- `CryptoVault::enroll(prf_output, prf_salt)`. -/
def enroll (prfOutput prfSalt : Bytes) (entropy : Option EnrollEntropy) :
    Except VaultError EnrollResult :=
  if prfOutput.length ≠ prfOutputLen then .error (.badPrfOutputLength prfOutput.length)
  else
    match entropy with
    | none => .error .random
    | some drawn => do
      let kek ← deriveKek primitives prfOutput prfSalt kekInfo
      match primitives.aeadEncrypt kek drawn.wrapNonce dekWrapAad drawn.dek with
      | none => throw .aeadEncrypt
      | some wrapped => return ⟨⟨drawn.dek⟩, wrapped, drawn.wrapNonce⟩

/-- `CryptoVault::unlock(prf_output, prf_salt, wrapped_dek, wrap_nonce)`. -/
def unlock (prfOutput prfSalt wrappedDek wrapNonce : Bytes) : Except VaultError CryptoVault :=
  if prfOutput.length ≠ prfOutputLen then .error (.badPrfOutputLength prfOutput.length)
  else
    match toArray? nonceLen wrapNonce with
    | none => .error (.badWrapNonceLength wrapNonce.length)
    | some nonce =>
      if wrappedDek.length ≠ keyLen + tagLen then
        .error (.badWrappedDekLength wrappedDek.length (keyLen + tagLen))
      else do
        let kek ← deriveKek primitives prfOutput prfSalt kekInfo
        match primitives.aeadDecrypt kek nonce dekWrapAad wrappedDek with
        | none => throw .authFailure
        | some dekBytes =>
          match toArray? keyLen dekBytes with
          | none => throw (.keyBadLength dekBytes.length)
          | some dek => return ⟨dek⟩

/-- `encrypt(nonce, aad, plaintext)`. -/
def encrypt (vault : CryptoVault) (nonce aad plaintext : Bytes) : Except VaultError Bytes :=
  match toArray? nonceLen nonce with
  | none => .error (.badRowNonceLength nonce.length)
  | some array =>
    match primitives.aeadEncrypt vault.dek array aad plaintext with
    | none => .error .aeadEncrypt
    | some ciphertext => .ok ciphertext

/-- `decrypt(nonce, aad, ciphertext)`. -/
def decrypt (vault : CryptoVault) (nonce aad ciphertext : Bytes) : Except VaultError Bytes :=
  match toArray? nonceLen nonce with
  | none => .error (.badRowNonceLength nonce.length)
  | some array =>
    match primitives.aeadDecrypt vault.dek array aad ciphertext with
    | none => .error .aeadDecrypt
    | some plaintext => .ok plaintext

variable {primitives}

/-- A successful enrollment: the drawn key is in the vault, and wrapped under the derived key. -/
theorem enroll_eq_ok_iff {prfOutput prfSalt : Bytes} {entropy : Option EnrollEntropy}
    {result : EnrollResult} :
    enroll primitives prfOutput prfSalt entropy = .ok result ↔
      prfOutput.length = prfOutputLen ∧ ∃ drawn, entropy = some drawn ∧
        result.vault = ⟨drawn.dek⟩ ∧ result.wrapNonce = drawn.wrapNonce ∧
        ∃ kek, primitives.hkdf prfSalt prfOutput kekInfo = some kek ∧
          primitives.aeadEncrypt kek drawn.wrapNonce dekWrapAad drawn.dek =
            some result.wrappedDek := by
  unfold enroll
  split_ifs with hlength
  · simp [hlength]
  · rw [not_not] at hlength
    cases entropy with
    | none => simp
    | some drawn =>
      cases hkek : primitives.hkdf prfSalt prfOutput kekInfo with
      | none => simp [deriveKek, hkek, bind, Except.bind]
      | some kek =>
        cases hwrap : primitives.aeadEncrypt kek drawn.wrapNonce dekWrapAad drawn.dek with
        | none => simp [deriveKek, hkek, hwrap, bind, Except.bind, throw, throwThe,
            MonadExceptOf.throw]
        | some wrapped =>
          obtain ⟨vault, wrappedDek, wrapNonce⟩ := result
          simp only [deriveKek, hkek, hwrap, hlength, bind, Except.bind, pure, Except.pure,
            Except.ok.injEq, EnrollResult.mk.injEq, Option.some.injEq, exists_eq_left', true_and]
          exact ⟨fun ⟨hvault, hwrapped, hnonce⟩ ↦ ⟨hvault.symm, hnonce.symm, hwrapped⟩,
            fun ⟨hvault, hnonce, hwrapped⟩ ↦ ⟨hvault.symm, hwrapped, hnonce.symm⟩⟩

/-- A successful unlock: the wrapped key decrypts under the derived key to the key of the vault. -/
theorem unlock_eq_ok_iff {prfOutput prfSalt wrappedDek wrapNonce : Bytes} {vault : CryptoVault} :
    unlock primitives prfOutput prfSalt wrappedDek wrapNonce = .ok vault ↔
      prfOutput.length = prfOutputLen ∧ wrappedDek.length = keyLen + tagLen ∧
        ∃ nonce, toArray? nonceLen wrapNonce = some nonce ∧
        ∃ kek, primitives.hkdf prfSalt prfOutput kekInfo = some kek ∧
          primitives.aeadDecrypt kek nonce dekWrapAad wrappedDek = some vault.dek.val := by
  unfold unlock
  by_cases hlength : prfOutput.length = prfOutputLen
  · rw [if_neg (not_not_intro hlength)]
    cases hnonce : toArray? nonceLen wrapNonce with
    | none => simp
    | some nonce =>
      by_cases hwrapped : wrappedDek.length = keyLen + tagLen
      · cases hkek : primitives.hkdf prfSalt prfOutput kekInfo with
        | none => simp [deriveKek, hkek, hwrapped, bind, Except.bind]
        | some kek =>
          cases hdek : primitives.aeadDecrypt kek nonce dekWrapAad wrappedDek with
          | none => simp [deriveKek, hkek, hdek, hwrapped, bind, Except.bind, throw, throwThe,
              MonadExceptOf.throw]
          | some dekBytes =>
            cases harray : toArray? keyLen dekBytes with
            | none =>
              have hne : dekBytes ≠ vault.dek.val := by
                intro heq
                rw [heq, toArray?_coe] at harray
                cases harray
              simp [deriveKek, hkek, hdek, harray, hwrapped, hne, bind, Except.bind, throw,
                throwThe, MonadExceptOf.throw]
            | some dek =>
              obtain rfl : dek.val = dekBytes := val_of_toArray? harray
              obtain ⟨vaultDek⟩ := vault
              simp [deriveKek, hkek, hdek, harray, hwrapped, hlength, bind, Except.bind, pure,
                Except.pure, Subtype.ext_iff, kek.property, nonce.property]
      · simp [hwrapped]
  · simp [hlength]

/-- A fresh enrollment can be unlocked with the PRF output it was made with. -/
theorem unlock_of_enroll (hcorrect : primitives.CorrectAead) (htagged : primitives.TaggedAead)
    {prfOutput prfSalt : Bytes} {entropy : Option EnrollEntropy} {result : EnrollResult}
    (henroll : enroll primitives prfOutput prfSalt entropy = .ok result) :
    unlock primitives prfOutput prfSalt result.wrappedDek result.wrapNonce = .ok result.vault := by
  obtain ⟨hlength, drawn, -, hvault, hnonce, kek, hkek, hwrapped⟩ := enroll_eq_ok_iff.mp henroll
  have hdek : result.vault.dek = drawn.dek := by rw [hvault]
  refine unlock_eq_ok_iff.mpr ⟨hlength, ?_, drawn.wrapNonce, ?_, kek, hkek, ?_⟩
  · rw [htagged _ _ _ _ _ hwrapped, drawn.dek.property]
  · rw [hnonce, toArray?_coe]
  · rw [hdek]
    exact hcorrect _ _ _ _ _ hwrapped

end CryptoVault

end OpfsWebauthn.Crypto
