import Mathlib.Data.Set.Function
import OpfsWebauthn.Share.Session
import OpfsWebauthn.Storage.RowId

/-!
# A share against an arbitrary relay

A recipient prepares a session, shows its code to a sender, and the sender seals a plaintext and
uploads it. The relay answers every request as it likes. `Confidential` says that whatever it
answers to the sender, a plaintext that is uploaded was sealed under the recipient's own key.

The sender compares the fetched key with the code. The recipient compares nothing: the code it
shows is the one in the relay's reply to the mint request. So `confidential_iff` makes the code of
that reply decide: the session is confidential if and only if the code is the recipient's own
commitment, or the commitment of no key involved. The assumption on the commitment is that it has
no collision among these keys.
-/

set_option autoImplicit false
set_option relaxedAutoImplicit false

namespace OpfsWebauthn.Share

open Storage Crypto

variable (primitives : Primitives)

/-- Every upload that a sender reaches with the displayed code, for a fetched key among those
involved, is sealed under the recipient's key. -/
def Confidential (keys : Set Bytes) (session : RecipientSession) : Prop :=
  ∀ typed plaintext fetchReply entropy upload,
    typed = session.code ∨ typed = formatCodeForDisplay session.code →
    (∀ key, fetchEpk fetchReply = .ok key → key ∈ keys) →
    prepareUpload primitives typed plaintext fetchReply entropy = .ok upload →
    upload.sealedUnder = session.handle.pubkey primitives

/-- The pickup code in a mint reply, as the sender will read it. -/
def mintedCode (mintReply : RelayReply) : Option String :=
  match mint mintReply with
  | .ok parts => normalizeCode parts.code
  | .error _ => none

/-- The code of a session is the one the relay sent. -/
theorem normalizeCode_session {drawn : Option (ByteArrayN keyLen)} {mintReply : RelayReply}
    {session : RecipientSession} (hsession : prepareReceive drawn mintReply = .ok session) :
    normalizeCode session.code = mintedCode mintReply := by
  have hmint := (session_of_prepareReceive hsession).2
  rw [mintedCode, hmint]

/-- The sender reaches an upload only with the key that the displayed code commits to. -/
theorem code_of_upload {session : RecipientSession} {typed : String} {plaintext : Bytes}
    {fetchReply : RelayReply} {entropy : Option SealEntropy} {upload : Upload}
    (htyped : typed = session.code ∨ typed = formatCodeForDisplay session.code)
    (hupload : prepareUpload primitives typed plaintext fetchReply entropy = .ok upload) :
    upload.sealedUnder.length = x25519PubkeyLen ∧
      normalizeCode session.code = some (codeForPubkey primitives upload.sealedUnder) := by
  obtain ⟨hcode, -, hverify, -⟩ := prepareUpload_eq_ok_iff.mp hupload
  have hsession : normalizeCode session.code = some upload.code := by
    rcases htyped with rfl | rfl
    · exact hcode
    · rwa [normalizeCode_formatCodeForDisplay] at hcode
  have hlength := utf8Length_of_normalizeCode hcode
  obtain ⟨hkey, hcommitted⟩ := (verifyCode_iff primitives hlength upload.sealedUnder).mp hverify
  exact ⟨hkey, by rw [hsession, hcommitted]⟩

/-- With the key that the displayed code commits to, a sender whose seal succeeds reaches the
upload. -/
theorem upload_of_code (session : RecipientSession) {key plaintext : Bytes}
    {entropy : Option SealEntropy} {sealed : SealedShare} (hlength : key.length = x25519PubkeyLen)
    (hcode : normalizeCode session.code = some (codeForPubkey primitives key))
    (hseal : sealShare primitives key plaintext entropy = .ok sealed) :
    ∃ upload, prepareUpload primitives session.code plaintext (.response 200 (.ok key)) entropy =
      .ok upload ∧ upload.sealedUnder = key := by
  refine ⟨⟨codeForPubkey primitives key, _, key⟩, prepareUpload_eq_ok_iff.mpr
    ⟨hcode, rfl, ?_, sealed, hseal, rfl⟩, rfl⟩
  exact (verifyCode_iff primitives (utf8Length_of_normalizeCode hcode) key).mpr ⟨hlength, rfl⟩

/-- A session is confidential if and only if the relay minted it the recipient's own code, or a
code that no key involved has. -/
theorem confidential_iff {keys : Set Bytes} {drawn : Option (ByteArrayN keyLen)}
    {mintReply : RelayReply} {session : RecipientSession}
    (hsession : prepareReceive drawn mintReply = .ok session)
    (hpubkey : (session.handle.pubkey primitives).val ∈ keys)
    (hcollision : Set.InjOn (codeForPubkey primitives)
      {key | key ∈ keys ∧ key.length = x25519PubkeyLen})
    (hseals : ∀ key ∈ keys, key.length = x25519PubkeyLen →
      ∃ plaintext entropy sealed, sealShare primitives key plaintext entropy = .ok sealed) :
    Confidential primitives keys session ↔
      mintedCode mintReply = some (codeForPubkey primitives (session.handle.pubkey primitives)) ∨
        ∀ key ∈ keys, key.length = x25519PubkeyLen →
          mintedCode mintReply ≠ some (codeForPubkey primitives key) := by
  have hcode := normalizeCode_session hsession
  have howned : (session.handle.pubkey primitives).val.length = x25519PubkeyLen :=
    (session.handle.pubkey primitives).property
  constructor
  · intro hconfidential
    by_cases hnone : ∀ key ∈ keys, key.length = x25519PubkeyLen →
        mintedCode mintReply ≠ some (codeForPubkey primitives key)
    · exact Or.inr hnone
    · push Not at hnone
      obtain ⟨key, hkey, hlength, hminted⟩ := hnone
      obtain ⟨plaintext, entropy, sealed, hseal⟩ := hseals key hkey hlength
      obtain ⟨upload, hupload, hunder⟩ :=
        upload_of_code primitives session hlength (hcode.trans hminted) hseal
      have hfetched : ∀ other, fetchEpk (.response 200 (.ok key)) = .ok other → other ∈ keys := by
        intro other hother
        have heq : key = other := Except.ok.inj hother
        exact heq ▸ hkey
      have hown := hconfidential session.code plaintext _ entropy upload (Or.inl rfl) hfetched
        hupload
      rw [hunder] at hown
      exact Or.inl (hown ▸ hminted)
  · intro hminted typed plaintext fetchReply entropy upload htyped hfetched hupload
    obtain ⟨hlength, hsealed⟩ := code_of_upload primitives htyped hupload
    have hinvolved : upload.sealedUnder ∈ keys :=
      hfetched _ (prepareUpload_eq_ok_iff.mp hupload).2.1
    rw [hcode] at hsealed
    rcases hminted with hown | hnone
    · have hsame : codeForPubkey primitives upload.sealedUnder =
          codeForPubkey primitives (session.handle.pubkey primitives) :=
        Option.some.inj (hsealed.symm.trans hown)
      exact hcollision ⟨hinvolved, hlength⟩ ⟨hpubkey, howned⟩ hsame
    · exact absurd hsealed (hnone _ hinvolved hlength)

/-! ### A relay that answers with the code of its own key -/

/-- The recipient's secret, 32 bytes `01`. -/
def recipientSecret : ByteArrayN keyLen := ⟨List.replicate 32 1, rfl⟩

/-- The sender's ephemeral secret, 32 bytes `03`. -/
def senderSecret : ByteArrayN keyLen := ⟨List.replicate 32 3, rfl⟩

/-- The public key of `recipientSecret`. -/
def recipientKey : ByteArrayN keyLen :=
  arrayOf 32 0xa4e09292b651c278b9772c569f5fa9bb13d906b46ab68c9df9dc2b4409f8a209

/-- The public key of the relay, whose secret is 32 bytes `02`. -/
def relayKey : ByteArrayN keyLen :=
  arrayOf 32 0xce8d3ad1ccb633ec7b70c17814a5c76ecd029685050d344745ba05870e587d59

/-- The public key of `senderSecret`. -/
def senderKey : ByteArrayN keyLen :=
  arrayOf 32 0x5dfedd3b6bd47f6fa28ee15d969d5bb0ea53774d488bdaf9df1c6e0124b3ef22

/-- The agreement of `senderSecret` with `recipientKey`. -/
def recipientAgreement : ByteArrayN keyLen :=
  arrayOf 32 0xb0190541a2abb8bc163b6eef0fae7ba0179004b444326f73809563164d47c521

/-- The agreement of `senderSecret` with `relayKey`. -/
def relayAgreement : ByteArrayN keyLen :=
  arrayOf 32 0x7c425a51f6a7f2e60012b0a34dd6511017807708b502ee66a2a247f171fda96c

/-- The share key derived from `recipientAgreement`. -/
def recipientShareKey : ByteArrayN keyLen :=
  arrayOf 32 0x1c89782fc1d1a28147d416667404559cb2580a5f4d0d51a7aa17490e38462228

/-- The share key derived from `relayAgreement`. -/
def relayShareKey : ByteArrayN keyLen :=
  arrayOf 32 0x13b38b81504769605d301aafd0e80a48c021d549481344f977c2864b9a6e3d07

/-- The plaintext `hi`. -/
def greeting : Bytes := [0x68, 0x69]

/-- The primitives, tabulated at the values of one run: the digests of the two keys, the agreements
of the sender with both, the share keys derived from these, and the encryption of `greeting` under
each with the zero nonce. -/
def tabulated : Primitives where
  blake3 input :=
    if input = recipientKey then
      arrayOf 32 0x9314efbc51e58f3f0549e713e46bc2ebb4732955631db0bc584eb3186633c31f
    else arrayOf 32 0xfa2f41624216f70e25e4f0073609f2af78eb592fe4bb197c8ed8a75865d597a8
  base32Encode bytes :=
    let final := bytes.foldl RowId.encodeByte ⟨0, 0, []⟩
    if final.bits > 0 then
      String.ofList (final.out ++ [RowId.digit (final.value <<< UInt32.ofNat (5 - final.bits))])
    else String.ofList final.out
  publicKey secret :=
    if secret = recipientSecret then recipientKey
    else if secret = senderSecret then senderKey
    else relayKey
  diffieHellman _ pubkey := if pubkey = recipientKey then recipientAgreement else relayAgreement
  hkdf _ ikm _ := some (if ikm = recipientAgreement then recipientShareKey else relayShareKey)
  aeadEncrypt key _ _ _ :=
    some (if key = recipientShareKey then bytesOf 18 0x4befd3f08cbb18c37006ff1d8df8b1a4bb74
      else bytesOf 18 0x2c52c72f57849cc24ac711df356feaa2562d)
  aeadDecrypt _ _ _ _ := some greeting

/-- The entropy of the sender in the run. -/
def drawnEntropy : SealEntropy := ⟨senderSecret, arrayOf 12 0⟩

/-- The reply of a relay that mints a code. -/
def mintsCode (code : String) : RelayReply :=
  .response 201 (.ok (protocolVersion :: bytesOf 8 1700000300 ++
    code.toList.map fun ch ↦ UInt8.ofNat ch.toNat))

/-- The two keys of the run have different codes. -/
theorem injOn_codeForPubkey_tabulated : Set.InjOn (codeForPubkey tabulated)
    {key | key ∈ ({recipientKey.val, relayKey.val} : Set Bytes) ∧
      key.length = x25519PubkeyLen} := by
  have hne : codeForPubkey tabulated recipientKey ≠ codeForPubkey tabulated relayKey := by
    decide +kernel
  rintro first ⟨hfirst, -⟩ second ⟨hsecond, -⟩ heq
  rcases hfirst with rfl | rfl
  · rcases hsecond with rfl | rfl
    · rfl
    · exact absurd heq hne
  · rcases hsecond with rfl | rfl
    · exact absurd heq.symm hne
    · rfl

/-- The tabulated seal succeeds for every key. -/
theorem sealShare_tabulated {key : Bytes} (hlength : key.length = x25519PubkeyLen) :
    ∃ plaintext entropy sealed, sealShare tabulated key plaintext entropy = .ok sealed := by
  have harray : toArray? keyLen key = some ⟨key, hlength⟩ := toArray?_coe ⟨key, hlength⟩
  refine ⟨greeting, some drawnEntropy, ?_⟩
  rw [sealShare, harray]
  exact ⟨_, rfl⟩

/-- With an honest mint reply the session of the run is confidential. -/
theorem confidential_iff_honestMint : ∃ session,
    prepareReceive (some recipientSecret) (mintsCode "JCAEZF2HWP7K") = .ok session ∧
      Confidential tabulated {recipientKey.val, relayKey.val} session := by
  have hsession : prepareReceive (some recipientSecret) (mintsCode "JCAEZF2HWP7K") =
      .ok ⟨"JCAEZF2HWP7K", 1700000300, ⟨recipientSecret⟩⟩ := by decide +kernel
  refine ⟨_, hsession, (confidential_iff tabulated hsession (Or.inl rfl)
    injOn_codeForPubkey_tabulated fun _ _ hlength ↦ sealShare_tabulated hlength).mpr (Or.inl ?_)⟩
  decide +kernel

/-- A relay that mints the code of its own key and answers the sender with that key has the
plaintext sealed to itself. -/
theorem not_confidential_relayKey : ∃ session upload,
    prepareReceive (some recipientSecret) (mintsCode "Z8QM2RJ22VVG") = .ok session ∧
      prepareUpload tabulated session.code greeting (.response 200 (.ok relayKey))
        (some drawnEntropy) = .ok upload ∧
      upload.sealedUnder = relayKey ∧
      upload.sealedUnder ≠ session.handle.pubkey tabulated ∧
      ¬ Confidential tabulated {recipientKey.val, relayKey.val} session := by
  have hsession : prepareReceive (some recipientSecret) (mintsCode "Z8QM2RJ22VVG") =
      .ok ⟨"Z8QM2RJ22VVG", 1700000300, ⟨recipientSecret⟩⟩ := by decide +kernel
  have hkeys : relayKey.val ≠ RecipientHandle.pubkey tabulated ⟨recipientSecret⟩ := by
    decide +kernel
  obtain ⟨upload, hupload, hunder⟩ : ∃ upload, prepareUpload tabulated "Z8QM2RJ22VVG" greeting
      (.response 200 (.ok relayKey)) (some drawnEntropy) = .ok upload ∧
        upload.sealedUnder = relayKey := by
    refine upload_of_code tabulated ⟨"Z8QM2RJ22VVG", 1700000300, ⟨recipientSecret⟩⟩
      relayKey.property ?_ rfl
    decide +kernel
  refine ⟨_, upload, hsession, hupload, hunder, hunder ▸ hkeys, fun hconfidential ↦ ?_⟩
  have hfetched : ∀ key, fetchEpk (.response 200 (.ok relayKey)) = .ok key →
      key ∈ ({recipientKey.val, relayKey.val} : Set Bytes) := by
    intro key hkey
    have heq : relayKey.val = key := Except.ok.inj hkey
    exact Or.inr heq.symm
  exact (hunder ▸ hkeys) (hconfidential _ _ _ _ _ (Or.inl rfl) hfetched hupload)

end OpfsWebauthn.Share
