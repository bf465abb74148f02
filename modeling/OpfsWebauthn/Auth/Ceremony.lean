import OpfsWebauthn.Foundation.Outcome
import OpfsWebauthn.Crypto.CryptoVault

/-!
# The passkey ceremonies

`types.ts` and `ceremony.ts`. `enroll` asks the browser for a new passkey with the PRF extension and
makes a vault from the PRF output; `unlock` asks for an assertion of a stored passkey and opens the
vault with it. The replies of the browser are arguments. A ceremony is rejected with the message of
its error, which is all that the screen shows of it.

A credential `Opens` a vault when some PRF output unlocks it to that vault.
-/

set_option autoImplicit false
set_option relaxedAutoImplicit false

namespace OpfsWebauthn.Auth

open Foundation Storage Crypto

/-- `VaultCredential`. -/
structure VaultCredential where
  credentialId : Bytes
  prfSalt : Bytes
  wrappedDek : Bytes
  wrapNonce : Bytes
  rpId : String
  createdAt : ℕ
deriving DecidableEq, Repr

/-- What `navigator.credentials.create` or `get` comes back with. -/
inductive CeremonyReply (α : Type)
  /-- A rejection with a `DOMException`. -/
  | domException (name message : String)
  /-- Any other rejection. -/
  | threw (message : String)
  /-- `null`. -/
  | nothing
  | credential (credential : α)
deriving DecidableEq, Repr

/-- What the code reads of a created passkey. -/
structure CreatedPasskey where
  rawId : Bytes
  authenticatorAttachment : Option String
  prf : Option Bytes
deriving DecidableEq, Repr

/-- `runCeremony(what, fn)` and the test for `null` that follows it. -/
def runCeremony {α : Type} (what nothing : String) : CeremonyReply α → Except String α
  | .domException name message => .error (what ++ " failed: " ++ name ++ " — " ++ message)
  | .threw message => .error message
  | .nothing => .error nothing
  | .credential credential => .ok credential

/-- What an enrollment meets: whether the browser has WebAuthn and the wasm module loads, the
random salt, the replies of the browser, the entropy of the wasm side, and the clock. -/
structure Enrollment where
  environment : Except String Unit
  prfSalt : Bytes
  rpId : String
  creation : CeremonyReply CreatedPasskey
  assertion : CeremonyReply (Option Bytes)
  entropy : Option EnrollEntropy
  now : ℕ

/-- The check of the attachment that the caller asked for. -/
def checkAttachment (requestedAttachment : Option String) (actual : Option String) :
    Except String Unit :=
  match requestedAttachment with
  | none => .ok ()
  | some requested =>
    match actual with
    | none => .error ("enrollment requested authenticator attachment \"" ++ requested ++ "\" " ++
        "but the browser did not report the credential's actual attachment; " ++
        "unable to verify the request was honoured")
    | some reported =>
      if reported ≠ requested then
        .error ("enrollment requested authenticator attachment \"" ++ requested ++ "\" " ++
          "but the user picked \"" ++ reported ++ "\"")
      else .ok ()

/-- The PRF output of an enrollment: from the creation, or from a follow-up assertion. -/
def enrolledPrf (enrollment : Enrollment) (created : CreatedPasskey) : Except String Bytes :=
  match created.prf with
  | some output => .ok output
  | none => do
    let followUp ← runCeremony "passkey assertion"
      "passkey created but follow-up PRF assertion returned nothing" enrollment.assertion
    match followUp with
    | some output => return output
    | none => throw "this authenticator does not implement the WebAuthn PRF extension"

/-- The PRF output that `enroll` comes to. -/
def enrollmentOutput (requestedAttachment : Option String) (enrollment : Enrollment) :
    Except String Bytes := do
  enrollment.environment
  let created ← runCeremony "passkey creation" "passkey creation returned no credential"
    enrollment.creation
  checkAttachment requestedAttachment created.authenticatorAttachment
  enrolledPrf enrollment created

variable (primitives : Primitives)

/-- `enroll({authenticatorAttachment})`. -/
def enroll (requestedAttachment : Option String) (enrollment : Enrollment) :
    Except String (CryptoVault × VaultCredential) := do
  enrollment.environment
  let created ← runCeremony "passkey creation" "passkey creation returned no credential"
    enrollment.creation
  checkAttachment requestedAttachment created.authenticatorAttachment
  let prfOutput ← enrolledPrf enrollment created
  let result ← (CryptoVault.enroll primitives prfOutput enrollment.prfSalt
    enrollment.entropy).mapError VaultError.text
  return (result.vault,
    { credentialId := created.rawId
      prfSalt := enrollment.prfSalt
      wrappedDek := result.wrappedDek
      wrapNonce := result.wrapNonce
      rpId := enrollment.rpId
      createdAt := enrollment.now })

/-- What an unlock meets. -/
structure Assertion where
  environment : Except String Unit
  reply : CeremonyReply (Option Bytes)

/-- `unlock({credential})`. -/
def unlock (credential : VaultCredential) (assertion : Assertion) : Except String CryptoVault := do
  assertion.environment
  let reply ← runCeremony "passkey assertion" "vault unlock returned no assertion" assertion.reply
  match reply with
  | none => throw "authenticator did not return a PRF result — vault cannot be unlocked"
  | some prfOutput =>
    (CryptoVault.unlock primitives prfOutput credential.prfSalt credential.wrappedDek
      credential.wrapNonce).mapError VaultError.text

/-- A credential opens a vault when some PRF output unlocks it to that vault. -/
def Opens (credential : VaultCredential) (vault : CryptoVault) : Prop :=
  ∃ prfOutput, CryptoVault.unlock primitives prfOutput credential.prfSalt credential.wrappedDek
    credential.wrapNonce = .ok vault

section Outcomes

variable {primitives}

/-- What a successful enrollment returns: a vault and a credential that wraps its key. -/
theorem enroll_spec {requestedAttachment : Option String} {enrollment : Enrollment}
    {vault : CryptoVault} {credential : VaultCredential}
    (henroll : enroll primitives requestedAttachment enrollment = .ok (vault, credential)) :
    ∃ prfOutput, enrollmentOutput requestedAttachment enrollment = .ok prfOutput ∧
      credential.prfSalt = enrollment.prfSalt ∧
      CryptoVault.enroll primitives prfOutput enrollment.prfSalt enrollment.entropy =
        .ok ⟨vault, credential.wrappedDek, credential.wrapNonce⟩ := by
  unfold enroll at henroll
  obtain ⟨done, henvironment, henroll⟩ := bind_eq_ok_iff.mp henroll
  obtain ⟨created, hcreated, henroll⟩ := bind_eq_ok_iff.mp henroll
  obtain ⟨checked, hchecked, henroll⟩ := bind_eq_ok_iff.mp henroll
  obtain ⟨prfOutput, hprf, henroll⟩ := bind_eq_ok_iff.mp henroll
  obtain ⟨result, hresult, henroll⟩ := bind_eq_ok_iff.mp henroll
  rw [mapError_eq_ok_iff] at hresult
  have hpair := Prod.mk.inj (Except.ok.inj henroll)
  obtain ⟨rfl, rfl⟩ := hpair
  refine ⟨prfOutput, ?_, rfl, hresult⟩
  exact bind_eq_ok_iff.mpr ⟨done, henvironment, bind_eq_ok_iff.mpr ⟨created, hcreated,
    bind_eq_ok_iff.mpr ⟨checked, hchecked, hprf⟩⟩⟩

/-- A successful enrollment returns a vault that its credential opens. -/
theorem opens_of_enroll (hcorrect : primitives.CorrectAead) (htagged : primitives.TaggedAead)
    {requestedAttachment : Option String} {enrollment : Enrollment} {vault : CryptoVault}
    {credential : VaultCredential}
    (henroll : enroll primitives requestedAttachment enrollment = .ok (vault, credential)) :
    Opens primitives credential vault := by
  obtain ⟨prfOutput, -, hsalt, hresult⟩ := enroll_spec henroll
  refine ⟨prfOutput, ?_⟩
  rw [hsalt]
  exact CryptoVault.unlock_of_enroll hcorrect htagged hresult

/-- A successful unlock returns a vault that the credential opens. -/
theorem opens_of_unlock {credential : VaultCredential} {assertion : Assertion}
    {vault : CryptoVault} (hunlock : unlock primitives credential assertion = .ok vault) :
    Opens primitives credential vault := by
  unfold unlock at hunlock
  obtain ⟨-, -, hunlock⟩ := bind_eq_ok_iff.mp hunlock
  obtain ⟨reply, -, hunlock⟩ := bind_eq_ok_iff.mp hunlock
  cases reply with
  | none => cases hunlock
  | some prfOutput => exact ⟨prfOutput, mapError_eq_ok_iff.mp hunlock⟩

end Outcomes

end OpfsWebauthn.Auth
