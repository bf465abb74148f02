import OpfsWebauthn.Share.Seal

/-!
# The recipient and the sender

`transport.ts`, and `prepareReceive` and `sendShare` of `share.ts`. The relay is whoever answers
the requests, so each function takes the reply to each request it makes: a reply is a failed fetch,
or any status with any body. `prepareReceive` asks for a code for the public key of a fresh handle,
and `prepareUpload` is `sendShare` up to its last request; it records under which key it sealed.
-/

set_option autoImplicit false
set_option relaxedAutoImplicit false

namespace OpfsWebauthn.Share

open Storage Crypto

/-- What a promise of the share client is rejected with. -/
inductive Thrown
  /-- A typed error. -/
  | share (error : ShareError)
  /-- Any other error, with its message. -/
  | foreign (message : String)
deriving DecidableEq, Repr

/-- The reply of the relay to one request. -/
inductive RelayReply
  /-- The fetch was rejected. -/
  | failed (cause : Thrown)
  /-- A response: its status, and its body, which may break off while it is read. -/
  | response (status : ℕ) (body : Except String Bytes)

/-- `response.ok`. -/
def isOk (status : ℕ) : Prop :=
  200 ≤ status ∧ status ≤ 299

instance (status : ℕ) : Decidable (isOk status) := by
  unfold isOk
  infer_instance

/-- `networkSafe(op, message)` on a rejection: a typed error passes, any other becomes a `network`
error. -/
def networkSafe (message : String) : Thrown → Thrown
  | .share error => .share error
  | .foreign cause => .share (.of .network (message ++ ": " ++ cause))

/-- `RendezvousClient.mint(epk)`. -/
def mint : RelayReply → Except Thrown MintResponseParts
  | .failed cause => .error (networkSafe "mint request failed" cause)
  | .response status body =>
    if isOk status then
      match body with
      | .error cause => .error (networkSafe "mint response read failed" (.foreign cause))
      | .ok bytes => (decodeMintResponse bytes).mapError .share
    else .error (.share (shareErrorForStatus status .mint))

/-- `RendezvousClient.fetchEpk(code)`: the body is read outside `networkSafe`. -/
def fetchEpk : RelayReply → Except Thrown Bytes
  | .failed cause => .error (networkSafe "fetchEpk request failed" cause)
  | .response status body =>
    if isOk status then body.mapError .foreign
    else .error (.share (shareErrorForStatus status .fetchRendezvous))

/-- `RendezvousClient.uploadBlob(code, blob)`. -/
def uploadBlob : RelayReply → Except Thrown Unit
  | .failed cause => .error (networkSafe "uploadBlob request failed" cause)
  | .response status _ =>
    if isOk status then .ok ()
    else .error (.share (shareErrorForStatus status .uploadBlob))

/-- `RecipientHandle`: the X25519 secret. -/
structure RecipientHandle where
  secret : ByteArrayN keyLen
deriving DecidableEq, Repr

/-- `RecipientSession`. -/
structure RecipientSession where
  code : String
  expiresAt : ℕ
  handle : RecipientHandle
deriving DecidableEq, Repr

/-- What the sender is about to upload, and the key it sealed the plaintext under. -/
structure Upload where
  code : String
  blob : Bytes
  sealedUnder : Bytes
deriving DecidableEq, Repr

variable (primitives : Primitives)

/-- `handle.pubkey`. -/
def RecipientHandle.pubkey (handle : RecipientHandle) : ByteArrayN keyLen :=
  primitives.publicKey handle.secret

/-- `prepareReceive(client)`: the handle of the drawn secret, and the code that the relay sent. -/
def prepareReceive (drawn : Option (ByteArrayN keyLen)) (mintReply : RelayReply) :
    Except Thrown RecipientSession :=
  match drawn with
  | none => .error (.foreign "entropy source (crypto.getRandomValues / OS RNG) failed")
  | some secret => (mint mintReply).map fun parts ↦ ⟨parts.code, parts.expiresAt, ⟨secret⟩⟩

/-- `sendShare(client, code, plaintext)` up to `client.uploadBlob`. -/
def prepareUpload (code : String) (plaintext : Bytes) (fetchReply : RelayReply)
    (entropy : Option SealEntropy) : Except Thrown Upload :=
  match normalizeCode code with
  | none => .error (.share (.of .protocol
      ("code must be " ++ toString codeLen ++ " Crockford-base32 characters")))
  | some normalized => do
    let recipientPubkey ← fetchEpk fetchReply
    if verifyCode primitives normalized recipientPubkey then
      let sealed ← (sealShare primitives recipientPubkey plaintext entropy).mapError .foreign
      let blob ← (encodeShareBlob
        ⟨sealed.senderPubkey.val, sealed.nonce.val, sealed.ciphertext⟩).mapError .share
      return ⟨normalized, blob, recipientPubkey⟩
    else throw (.share (.of .commitmentMismatch "rendezvous pubkey does not match the code"))

/-- `sendShare(client, code, plaintext)`. -/
def sendShare (code : String) (plaintext : Bytes) (fetchReply : RelayReply)
    (entropy : Option SealEntropy) (uploadReply : RelayReply) : Except Thrown Unit := do
  let _ ← prepareUpload primitives code plaintext fetchReply entropy
  uploadBlob uploadReply

section Reach

variable {primitives}

/-- A session has the drawn secret and the code of the mint reply. -/
theorem session_of_prepareReceive {drawn : Option (ByteArrayN keyLen)} {mintReply : RelayReply}
    {session : RecipientSession} (hsession : prepareReceive drawn mintReply = .ok session) :
    drawn = some session.handle.secret ∧
      mint mintReply = .ok ⟨session.code, session.expiresAt⟩ := by
  unfold prepareReceive at hsession
  cases drawn with
  | none => cases hsession
  | some secret =>
    cases hmint : mint mintReply with
    | error cause =>
      rw [hmint] at hsession
      cases hsession
    | ok parts =>
      rw [hmint] at hsession
      obtain rfl := Except.ok.inj hsession
      exact ⟨rfl, rfl⟩

/-- What it takes to reach the upload: a code that normalizes to the code of the fetched key, and a
seal. -/
theorem prepareUpload_eq_ok_iff {code : String} {plaintext : Bytes} {fetchReply : RelayReply}
    {entropy : Option SealEntropy} {upload : Upload} :
    prepareUpload primitives code plaintext fetchReply entropy = .ok upload ↔
      normalizeCode code = some upload.code ∧ fetchEpk fetchReply = .ok upload.sealedUnder ∧
        verifyCode primitives upload.code upload.sealedUnder = true ∧
        ∃ sealed, sealShare primitives upload.sealedUnder plaintext entropy = .ok sealed ∧
          upload.blob = protocolVersion ::
            (sealed.senderPubkey.val ++ sealed.nonce.val ++ sealed.ciphertext) := by
  unfold prepareUpload
  cases hcode : normalizeCode code with
  | none => simp
  | some normalized =>
    cases hfetch : fetchEpk fetchReply with
    | error cause => simp [bind, Except.bind]
    | ok key =>
      cases hverify : verifyCode primitives normalized key with
      | false =>
        simp only [bind, Except.bind, hverify, Bool.false_eq_true, if_false]
        constructor
        · intro hthrown
          cases hthrown
        · rintro ⟨hnormalized, hkey, hverified, -⟩
          rw [← Option.some.inj hnormalized, ← Except.ok.inj hkey, hverify] at hverified
          cases hverified
      | true =>
        cases hseal : sealShare primitives key plaintext entropy with
        | error message =>
          simp only [bind, Except.bind, hverify, if_true, Except.mapError, hseal]
          constructor
          · intro hthrown
            cases hthrown
          · rintro ⟨-, hkey, -, sealed, hsealed, -⟩
            rw [← Except.ok.inj hkey, hseal] at hsealed
            cases hsealed
        | ok sealed =>
          simp only [bind, Except.bind, hverify, if_true, Except.mapError, encodeShareBlob_sealed,
            hseal]
          constructor
          · intro hupload
            obtain rfl := Except.ok.inj hupload
            exact ⟨rfl, rfl, hverify, sealed, hseal, rfl⟩
          · rintro ⟨hnormalized, hkey, -, other, hother, hblob⟩
            obtain ⟨uploadCode, blob, sealedUnder⟩ := upload
            obtain rfl : normalized = uploadCode := Option.some.inj hnormalized
            obtain rfl : key = sealedUnder := Except.ok.inj hkey
            rw [hseal, Except.ok.injEq] at hother
            subst hother
            obtain rfl : blob = _ := hblob
            rfl

end Reach

end OpfsWebauthn.Share
