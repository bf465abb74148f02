import Mathlib.Logic.Equiv.Basic
import OpfsWebauthn.Crypto.Tabulated

/-!
# Unlocking is exact

`core.rs` checks the lengths of its slices and converts them afterwards with `expect`. Here the
conversions are written out, with the panic that they end in on a slice of another length;
`unlockSteps_eq` and its companions say that the checks exclude it.

AES-GCM is ideal after a history of encryptions. `unlock_exact` says what an enrollment and an
unlock give under such a history, when the enrollment made its only key wrap.
-/

set_option autoImplicit false
set_option relaxedAutoImplicit false

namespace OpfsWebauthn.Crypto

open Storage

/-! ### Conversions that panic -/

/-- A panic, with its message. -/
structure Panic where
  message : String
deriving DecidableEq, Repr

/-- `try_into().expect("len checked above")`. -/
def expectArray (length : ℕ) (bytes : Bytes) : Except Panic (ByteArrayN length) :=
  match toArray? length bytes with
  | some array => .ok array
  | none => .error ⟨"len checked above"⟩

namespace CryptoVault

section Steps

variable (primitives : Primitives)

/-- The body of `unlock`. -/
def unlockSteps (prfOutput prfSalt wrappedDek wrapNonce : Bytes) :
    Except Panic (Except VaultError CryptoVault) :=
  if prfOutput.length ≠ prfOutputLen then .ok (.error (.badPrfOutputLength prfOutput.length))
  else if wrapNonce.length ≠ nonceLen then .ok (.error (.badWrapNonceLength wrapNonce.length))
  else if wrappedDek.length ≠ keyLen + tagLen then
    .ok (.error (.badWrappedDekLength wrappedDek.length (keyLen + tagLen)))
  else
    match deriveKek primitives prfOutput prfSalt kekInfo with
    | .error cause => .ok (.error cause)
    | .ok kek => do
      let nonce ← expectArray nonceLen wrapNonce
      match primitives.aeadDecrypt kek nonce dekWrapAad wrappedDek with
      | none => return .error .authFailure
      | some dekBytes =>
        match toArray? keyLen dekBytes with
        | none => return .error (.keyBadLength dekBytes.length)
        | some dek => return .ok ⟨dek⟩

/-- The body of `encrypt`. -/
def encryptSteps (vault : CryptoVault) (nonce aad plaintext : Bytes) :
    Except Panic (Except VaultError Bytes) :=
  if nonce.length ≠ nonceLen then .ok (.error (.badRowNonceLength nonce.length))
  else do
    let array ← expectArray nonceLen nonce
    match primitives.aeadEncrypt vault.dek array aad plaintext with
    | none => return .error .aeadEncrypt
    | some ciphertext => return .ok ciphertext

/-- The body of `decrypt`. -/
def decryptSteps (vault : CryptoVault) (nonce aad ciphertext : Bytes) :
    Except Panic (Except VaultError Bytes) :=
  if nonce.length ≠ nonceLen then .ok (.error (.badRowNonceLength nonce.length))
  else do
    let array ← expectArray nonceLen nonce
    match primitives.aeadDecrypt vault.dek array aad ciphertext with
    | none => return .error .aeadDecrypt
    | some plaintext => return .ok plaintext

end Steps

variable {primitives : Primitives}

/-- A slice of another length is no array. -/
theorem toArray?_of_ne {length : ℕ} {bytes : Bytes} (hlength : bytes.length ≠ length) :
    toArray? length bytes = none :=
  dif_neg hlength

/-- A slice of the right length is the array of its bytes. -/
theorem exists_toArray? {length : ℕ} {bytes : Bytes} (hlength : bytes.length = length) :
    ∃ array : ByteArrayN length, array.val = bytes ∧ toArray? length bytes = some array ∧
      expectArray length bytes = .ok array := by
  have harray : toArray? length bytes = some ⟨bytes, hlength⟩ := dif_pos hlength
  refine ⟨⟨bytes, hlength⟩, rfl, harray, ?_⟩
  rw [expectArray, harray]

/-- `unlock` does not panic. -/
theorem unlockSteps_eq (prfOutput prfSalt wrappedDek wrapNonce : Bytes) :
    unlockSteps primitives prfOutput prfSalt wrappedDek wrapNonce =
      .ok (unlock primitives prfOutput prfSalt wrappedDek wrapNonce) := by
  unfold unlockSteps unlock
  by_cases hprf : prfOutput.length = prfOutputLen
  · rw [if_neg (not_not.mpr hprf), if_neg (not_not.mpr hprf)]
    by_cases hnonce : wrapNonce.length = nonceLen
    · obtain ⟨array, -, harray, hexpect⟩ := exists_toArray? hnonce
      rw [if_neg (not_not.mpr hnonce), harray, hexpect]
      dsimp only
      by_cases hwrapped : wrappedDek.length = keyLen + tagLen
      · rw [if_neg (not_not.mpr hwrapped), if_neg (not_not.mpr hwrapped)]
        cases deriveKek primitives prfOutput prfSalt kekInfo with
        | error cause => rfl
        | ok kek =>
          simp only [bind, Except.bind]
          cases primitives.aeadDecrypt kek array dekWrapAad wrappedDek with
          | none => rfl
          | some dekBytes =>
            dsimp only
            cases toArray? keyLen dekBytes with
            | none => rfl
            | some dek => rfl
      · rw [if_pos hwrapped, if_pos hwrapped]
    · rw [if_pos hnonce, toArray?_of_ne hnonce]
  · rw [if_pos hprf, if_pos hprf]

/-- `encrypt` does not panic. -/
theorem encryptSteps_eq (vault : CryptoVault) (nonce aad plaintext : Bytes) :
    encryptSteps primitives vault nonce aad plaintext =
      .ok (encrypt primitives vault nonce aad plaintext) := by
  unfold encryptSteps encrypt
  by_cases hnonce : nonce.length = nonceLen
  · obtain ⟨array, -, harray, hexpect⟩ := exists_toArray? hnonce
    rw [if_neg (not_not.mpr hnonce), harray, hexpect]
    simp only [bind, Except.bind]
    cases primitives.aeadEncrypt vault.dek array aad plaintext with
    | none => rfl
    | some ciphertext => rfl
  · rw [if_pos hnonce, toArray?_of_ne hnonce]

/-- `decrypt` does not panic. -/
theorem decryptSteps_eq (vault : CryptoVault) (nonce aad ciphertext : Bytes) :
    decryptSteps primitives vault nonce aad ciphertext =
      .ok (decrypt primitives vault nonce aad ciphertext) := by
  unfold decryptSteps decrypt
  by_cases hnonce : nonce.length = nonceLen
  · obtain ⟨array, -, harray, hexpect⟩ := exists_toArray? hnonce
    rw [if_neg (not_not.mpr hnonce), harray, hexpect]
    simp only [bind, Except.bind]
    cases primitives.aeadDecrypt vault.dek array aad ciphertext with
    | none => rfl
    | some plaintext => rfl
  · rw [if_pos hnonce, toArray?_of_ne hnonce]

end CryptoVault

/-! ### Ideal primitives -/

/-- A decryption strips the tag. -/
def Primitives.StripsTag (primitives : Primitives) : Prop :=
  ∀ key nonce aad ciphertext plaintext,
    primitives.aeadDecrypt key nonce aad ciphertext = some plaintext →
      ciphertext.length = plaintext.length + tagLen

/-- For every salt and purpose, different PRF outputs give different keys. -/
def Primitives.KdfInjective (primitives : Primitives) : Prop :=
  ∀ salt info first second key, first.length = prfOutputLen → second.length = prfOutputLen →
    primitives.hkdf salt first info = some key → primitives.hkdf salt second info = some key →
      first = second

namespace CryptoVault

variable {primitives : Primitives}

/-- `Key::from_slice` does not fail on what was decrypted from a ciphertext of the checked
length. -/
theorem unlock_ne_keyBadLength (hstrips : primitives.StripsTag)
    (prfOutput prfSalt wrappedDek wrapNonce : Bytes) (got : ℕ) :
    unlock primitives prfOutput prfSalt wrappedDek wrapNonce ≠ .error (.keyBadLength got) := by
  unfold unlock
  by_cases hprf : prfOutput.length = prfOutputLen
  · rw [if_neg (not_not.mpr hprf)]
    cases hnonce : toArray? nonceLen wrapNonce with
    | none => simp
    | some nonce =>
      dsimp only
      by_cases hwrapped : wrappedDek.length = keyLen + tagLen
      · rw [if_neg (not_not.mpr hwrapped)]
        cases hkek : primitives.hkdf prfSalt prfOutput kekInfo with
        | none => simp [deriveKek, hkek, bind, Except.bind]
        | some kek =>
          cases hdek : primitives.aeadDecrypt kek nonce dekWrapAad wrappedDek with
          | none => simp [deriveKek, hkek, hdek, bind, Except.bind, throw, throwThe,
              MonadExceptOf.throw]
          | some dekBytes =>
            have hlength : dekBytes.length = keyLen := by
              have hstripped := hstrips _ _ _ _ _ hdek
              omega
            obtain ⟨dek, -, harray, -⟩ := exists_toArray? hlength
            simp [deriveKek, hkek, hdek, harray, bind, Except.bind, pure, Except.pure]
      · rw [if_pos hwrapped]
        simp
  · rw [if_pos hprf]
    simp

/-- The ideal decryption strips the tag as well. -/
theorem stripsTag_after (hstrips : primitives.StripsTag) (history : List AeadEntry) :
    (primitives.after history).StripsTag :=
  fun key nonce aad ciphertext plaintext hdecrypt ↦
    hstrips key nonce aad ciphertext plaintext (aeadDecrypt_after.mp hdecrypt).2

/-! ### Exactness -/

/-- What `encrypt` does is one encryption under the key of the vault. -/
theorem encrypt_eq_ok_iff {vault : CryptoVault} {nonce aad plaintext ciphertext : Bytes} :
    encrypt primitives vault nonce aad plaintext = .ok ciphertext ↔
      ∃ array, toArray? nonceLen nonce = some array ∧
        primitives.aeadEncrypt vault.dek array aad plaintext = some ciphertext := by
  unfold encrypt
  cases toArray? nonceLen nonce with
  | none => simp
  | some array =>
    cases hencrypt : primitives.aeadEncrypt vault.dek array aad plaintext with
    | none => simp [hencrypt]
    | some other => simp [hencrypt]

/-- What was encrypted under the key of a vault is decrypted by it. -/
theorem decrypt_after (hcorrect : primitives.CorrectAead) {vault : CryptoVault}
    {nonce aad plaintext ciphertext : Bytes} {array : ByteArrayN nonceLen}
    (harray : toArray? nonceLen nonce = some array)
    (hencrypt : primitives.aeadEncrypt vault.dek array aad plaintext = some ciphertext)
    {history : List AeadEntry} (hproduced : Produced history vault.dek array aad ciphertext) :
    decrypt (primitives.after history) vault nonce aad ciphertext = .ok plaintext := by
  have hdecrypt : (primitives.after history).aeadDecrypt vault.dek array aad ciphertext =
      some plaintext := aeadDecrypt_after.mpr ⟨hproduced, hcorrect _ _ _ _ _ hencrypt⟩
  rw [decrypt, harray]
  simp only [hdecrypt]

/-- The history of the encryptions holds the key wrap of an enrollment, and no other encryption
under the associated data of a key wrap. -/
def WrapsOnce (history : List AeadEntry) (kek : ByteArrayN keyLen) (result : EnrollResult) : Prop :=
  (∃ nonce : ByteArrayN nonceLen, nonce.val = result.wrapNonce ∧
    Produced history kek nonce dekWrapAad result.wrappedDek) ∧
  ∀ entry ∈ history, entry.aad = dekWrapAad → entry.key = kek ∧
    entry.nonce.val = result.wrapNonce ∧ entry.ciphertext = result.wrappedDek

/-- With HKDF injective in the PRF output and AES-GCM ideal, after an enrollment that made the only
key wrap of the history:

* the inputs of the enrollment unlock the vault, and each of the two vaults decrypts what the other
  encrypts;
* no other PRF output, wrapped key or nonce unlocks a vault.

On all slices, whatever was encrypted, nothing panics, and the key that was unwrapped has its
length. -/
theorem unlock_exact (hcorrect : primitives.CorrectAead) (hstrips : primitives.StripsTag)
    (hkdf : primitives.KdfInjective) :
    (∀ prfOutput prfSalt entropy result,
      enroll primitives prfOutput prfSalt entropy = .ok result →
      ∃ kek, primitives.hkdf prfSalt prfOutput kekInfo = some kek ∧
      ∀ history, WrapsOnce history kek result →
        (∃ vault, unlock (primitives.after history) prfOutput prfSalt result.wrappedDek
            result.wrapNonce = .ok vault ∧
          ∀ first ∈ [result.vault, vault], ∀ second ∈ [result.vault, vault],
            ∀ nonce aad plaintext ciphertext,
              encrypt primitives first nonce aad plaintext = .ok ciphertext →
                ∀ later array, toArray? nonceLen nonce = some array →
                  Produced later first.dek array aad ciphertext →
                    decrypt (primitives.after later) second nonce aad ciphertext =
                      .ok plaintext) ∧
        ∀ otherOutput otherWrapped otherNonce,
          (otherOutput, otherWrapped, otherNonce) ≠
              (prfOutput, result.wrappedDek, result.wrapNonce) →
            ∃ cause, unlock (primitives.after history) otherOutput prfSalt otherWrapped
              otherNonce = .error cause) ∧
    ∀ history,
      (∀ prfOutput prfSalt wrappedDek wrapNonce,
        (∃ outcome, unlockSteps (primitives.after history) prfOutput prfSalt wrappedDek
            wrapNonce = .ok outcome) ∧
          ∀ got, unlockSteps (primitives.after history) prfOutput prfSalt wrappedDek wrapNonce ≠
            .ok (.error (.keyBadLength got))) ∧
      ∀ vault nonce aad bytes,
        (∃ outcome, encryptSteps (primitives.after history) vault nonce aad bytes = .ok outcome) ∧
          ∃ outcome, decryptSteps (primitives.after history) vault nonce aad bytes =
            .ok outcome := by
  refine ⟨fun prfOutput prfSalt entropy result henroll ↦ ?_, fun history ↦ ⟨?_, ?_⟩⟩
  · obtain ⟨hlength, drawn, -, hvault, hnonce, kek, hkek, hwrapped⟩ := enroll_eq_ok_iff.mp henroll
    refine ⟨kek, hkek, fun history ⟨⟨wrapNonce, hwrapNonce, hproduced⟩, honly⟩ ↦
      ⟨⟨result.vault, ?_, ?_⟩, ?_⟩⟩
    · have hdek : result.vault.dek = drawn.dek := by rw [hvault]
      have hsame : wrapNonce = drawn.wrapNonce := Subtype.ext (hwrapNonce.trans hnonce)
      have hdecrypt := hcorrect _ _ _ _ _ hwrapped
      refine unlock_eq_ok_iff.mpr ⟨hlength, ?_, drawn.wrapNonce, ?_, kek, hkek, ?_⟩
      · rw [hstrips _ _ _ _ _ hdecrypt, drawn.dek.property]
      · rw [hnonce, toArray?_coe]
      · rw [hdek]
        exact aeadDecrypt_after.mpr ⟨hsame ▸ hproduced, hdecrypt⟩
    · intro first hfirst second hsecond nonce aad plaintext ciphertext hencrypt later array harray
        hlater
      have hboth : ∀ vault ∈ [result.vault, result.vault], vault = result.vault := by simp
      rw [hboth first hfirst] at hencrypt hlater
      obtain ⟨other, hother, hcipher⟩ := encrypt_eq_ok_iff.mp hencrypt
      obtain rfl := Option.some.inj (harray.symm.trans hother)
      rw [hboth second hsecond]
      exact decrypt_after hcorrect harray hcipher hlater
    · intro otherOutput otherWrapped otherNonce hother
      cases hunlock : unlock (primitives.after history) otherOutput prfSalt otherWrapped
          otherNonce with
      | error cause => exact ⟨cause, rfl⟩
      | ok vault =>
        -- an accepted key wrap is the one of the enrollment
        obtain ⟨hotherLength, -, array, harray, otherKek, hotherKek, hdecrypt⟩ :=
          unlock_eq_ok_iff.mp hunlock
        obtain ⟨⟨entry, hentry, hkey, hentryNonce, haad, hciphertext⟩, -⟩ :=
          aeadDecrypt_after.mp hdecrypt
        obtain ⟨hentryKek, hwrap, hwrappedDek⟩ := honly entry hentry haad
        have houtput : otherOutput = prfOutput := by
          refine hkdf prfSalt kekInfo otherOutput prfOutput kek hotherLength hlength ?_ hkek
          rw [← hentryKek, hkey]
          exact hotherKek
        have hsameNonce : otherNonce = result.wrapNonce := by
          rw [← val_of_toArray? harray, ← hentryNonce, hwrap]
        have hsameWrapped : otherWrapped = result.wrappedDek := hciphertext.symm.trans hwrappedDek
        exact absurd (by rw [houtput, hsameWrapped, hsameNonce]) hother
  · intro prfOutput prfSalt wrappedDek wrapNonce
    rw [unlockSteps_eq]
    refine ⟨⟨_, rfl⟩, fun got heq ↦ ?_⟩
    exact unlock_ne_keyBadLength (stripsTag_after hstrips history) _ _ _ _ got (Except.ok.inj heq)
  · intro vault nonce aad bytes
    exact ⟨⟨_, encryptSteps_eq vault nonce aad bytes⟩, ⟨_, decryptSteps_eq vault nonce aad bytes⟩⟩

/-! ### An enrollment and a note -/

/-- The PRF output `99..` of the passkey. -/
def passkeyOutput : ByteArrayN prfOutputLen := ⟨List.replicate 32 0x99, rfl⟩

/-- The salt `aa..`. -/
def passkeySalt : Bytes := List.replicate 32 0xaa

/-- The entropy of the enrollment: the key `bb..` and the nonce `cc..`. -/
def passkeyEntropy : EnrollEntropy := ⟨⟨List.replicate 32 0xbb, rfl⟩, ⟨List.replicate 12 0xcc, rfl⟩⟩

/-- The key encryption key of the passkey. -/
def passkeyKek : ByteArrayN keyLen :=
  arrayOf 32 0x247dd7a94c3d9ba09c7fa2ee60595af9153d19bfe56f7683b799c123113d5206

/-- The key `bb..` wrapped under it. -/
def passkeyWrapped : Bytes :=
  bytesOf 24 0x413811223ba57e2ce7a9804c450e2f6813aafb45be634b57 ++
    bytesOf 24 0xf26ca75b341f250f3cd4ced66e673467025a92f2bf97664a

/-- The key wrap. -/
def wrapEntry : AeadEntry :=
  ⟨passkeyKek, passkeyEntropy.wrapNonce, dekWrapAad, passkeyEntropy.dek.val, passkeyWrapped⟩

/-- The title `hi` encrypted under the key `bb..`. -/
def titleEntry : AeadEntry where
  key := passkeyEntropy.dek
  nonce := ⟨List.replicate 12 0xdd, rfl⟩
  aad := label "title"
  plaintext := label "hi"
  ciphertext := bytesOf 18 0xee926ad71e4115157e38b22ab5e6af23c0eb

/-- The primitives at the values of the enrollment and the title. -/
def onePasskey : Primitives where
  blake3 _ := passkeyEntropy.dek
  base32Encode _ := ""
  publicKey secret := secret
  diffieHellman secret _ := secret
  hkdf _ ikm _ := (toArray? prfOutputLen ikm).map (Equiv.swap passkeyOutput passkeyKek)
  aeadEncrypt := tableEncrypt [wrapEntry, titleEntry]
  aeadDecrypt := tableDecrypt [wrapEntry, titleEntry]

/-- The enrollment. -/
def passkeyResult : EnrollResult :=
  ⟨⟨passkeyEntropy.dek⟩, passkeyWrapped, passkeyEntropy.wrapNonce.val⟩

/-- The table is correct. -/
theorem correctAead_onePasskey : onePasskey.CorrectAead :=
  @correctAead_of_table onePasskey [wrapEntry, titleEntry] rfl rfl (by decide +kernel)

/-- Each ciphertext of the table carries the tag. -/
theorem stripsTag_onePasskey : onePasskey.StripsTag := by
  intro key nonce aad ciphertext plaintext hdecrypt
  have hentry : _ ∈ [wrapEntry, titleEntry] := entry_of_tableDecrypt hdecrypt
  have htagged : ∀ entry ∈ [wrapEntry, titleEntry],
      entry.ciphertext.length = entry.plaintext.length + tagLen := by decide +kernel
  exact htagged _ hentry

/-- A swap of two keys is injective. -/
theorem kdfInjective_onePasskey : onePasskey.KdfInjective := by
  intro salt info first second key hfirst hsecond hfirstKey hsecondKey
  obtain ⟨firstArray, hfirstVal, hfirstArray, -⟩ := exists_toArray? hfirst
  obtain ⟨secondArray, hsecondVal, hsecondArray, -⟩ := exists_toArray? hsecond
  have hkeys : (some firstArray).map (Equiv.swap passkeyOutput passkeyKek) =
      (some secondArray).map (Equiv.swap passkeyOutput passkeyKek) := by
    rw [← hfirstArray, ← hsecondArray]
    exact hfirstKey.trans hsecondKey.symm
  have harrays := (Equiv.swap passkeyOutput passkeyKek).injective (Option.some.inj hkeys)
  rw [← hfirstVal, ← hsecondVal, harrays]

/-- The passkey unlocks its vault, and a key wrap with one other byte is refused. -/
theorem unlock_exact_onePasskey :
    enroll onePasskey passkeyOutput passkeySalt passkeyEntropy = .ok passkeyResult ∧
    (∃ vault, unlock (onePasskey.after [wrapEntry, titleEntry]) passkeyOutput passkeySalt
        passkeyWrapped passkeyResult.wrapNonce = .ok vault ∧
      decrypt (onePasskey.after [wrapEntry, titleEntry]) vault titleEntry.nonce titleEntry.aad
        titleEntry.ciphertext = .ok titleEntry.plaintext) ∧
    ∃ cause, unlock (onePasskey.after [wrapEntry, titleEntry]) passkeyOutput passkeySalt
      (passkeyWrapped.set 7 0) passkeyResult.wrapNonce = .error cause := by
  have henroll : enroll onePasskey passkeyOutput passkeySalt passkeyEntropy =
      .ok passkeyResult := by decide +kernel
  obtain ⟨kek, hkek, hhistory⟩ := (unlock_exact correctAead_onePasskey stripsTag_onePasskey
    kdfInjective_onePasskey).1 _ _ _ _ henroll
  have hpasskey : onePasskey.hkdf passkeySalt passkeyOutput kekInfo = some passkeyKek := by
    decide +kernel
  have hsame : passkeyKek = kek := Option.some.inj (hpasskey.symm.trans hkek)
  rw [← hsame] at hhistory
  have honce : WrapsOnce [wrapEntry, titleEntry] passkeyKek passkeyResult :=
    ⟨⟨passkeyEntropy.wrapNonce, rfl, by decide +kernel⟩, by decide +kernel⟩
  obtain ⟨⟨vault, hunlock, hshared⟩, hrefused⟩ := hhistory _ honce
  refine ⟨henroll, ⟨vault, hunlock, ?_⟩, ?_⟩
  · have hencrypt : encrypt onePasskey passkeyResult.vault titleEntry.nonce titleEntry.aad
        titleEntry.plaintext = .ok titleEntry.ciphertext := by decide +kernel
    exact hshared passkeyResult.vault (by simp) vault (by simp) _ _ _ _ hencrypt
      [wrapEntry, titleEntry] titleEntry.nonce (toArray?_coe _) (by decide +kernel)
  · exact hrefused _ _ _ (by decide +kernel)

end CryptoVault

end OpfsWebauthn.Crypto
