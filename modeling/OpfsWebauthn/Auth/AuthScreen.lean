import Mathlib.Logic.Function.Basic
import OpfsWebauthn.Auth.Ceremony
import OpfsWebauthn.Foundation.Automaton

/-!
# The auth screen over the vault file

`auth-screen.tsx` in any number of tabs, over the file of `credential-store.ts`. A tab shows one
screen, and runs at most one asynchronous task: the read of the bootstrap, a ceremony, a write of
the file or its removal. The screen decides what can be started, and the task what can settle.
`enroll`, `unlock`, `lock`, `forget` and `retry` are the handlers of the buttons.

A text in the vault file is the serialization of a credential or any other text, which
deserializes to nothing. The file is written in two visible moments: `getFileHandle` creates an
empty file when there is none, and `close` commits the text.

The state also counts the completed removals of the file, and each tab remembers the count at the
moment it was unlocked; no handler reads these.
-/

set_option autoImplicit false
set_option relaxedAutoImplicit false

namespace OpfsWebauthn.Auth

open Foundation Storage Crypto

/-- What the `retry` closure of an error screen sets. -/
inductive Retry
  | fresh
  | locked (credential : VaultCredential)
deriving DecidableEq, Repr

/-- What a busy screen is busy with. -/
inductive Busy
  | enrolling
  | unlocking
deriving DecidableEq, Repr

/-- `State` of the auth screen. -/
inductive Screen
  | loading
  | unsupported
  | fresh
  | locked (credential : VaultCredential)
  | busy (what : Busy)
  | unlocked (vault : CryptoVault) (credential : VaultCredential)
  | error (message : String) (retry : Retry)
deriving DecidableEq, Repr

/-- What a tab awaits. -/
inductive Task
  | idle
  /-- `credentialStore.get()` of the bootstrap. -/
  | reading
  /-- `enroll(...)` of `doEnroll`. -/
  | enrolling
  /-- `credentialStore.set(...)` of `doEnroll`. -/
  | storing (vault : CryptoVault) (credential : VaultCredential)
  /-- `unlock(...)` of `doUnlock`. -/
  | unlocking (credential : VaultCredential)
  /-- `credentialStore.clear()` of `doForget`, with the snapshot for its retry. -/
  | clearing (snapshot : Option VaultCredential)
deriving DecidableEq, Repr

/-- A tab: its screen and its task, and the number of removals before it was unlocked. -/
structure Tab where
  screen : Screen
  task : Task
  unlockedAt : ℕ
deriving DecidableEq, Repr

/-- A text in the vault file. -/
inductive VaultText
  | serialized (credential : VaultCredential)
  | other (text : String)
deriving DecidableEq, Repr

/-- `deserialize(raw)`. -/
def deserialize : VaultText → Option VaultCredential
  | .serialized credential => some credential
  | .other _ => none

/-- The tabs of an origin, its vault file, and the number of completed removals. -/
structure Origin where
  file : Option VaultText
  tabs : ℕ → Tab
  forgets : ℕ

/-- How a read of the vault file ends. -/
inductive ReadOutcome
  /-- `CredentialStoreUnavailableError`. -/
  | unavailable
  /-- Any other error. -/
  | failed (message : String)
  | succeeded
deriving DecidableEq, Repr

/-- What can happen: a page loads, a button is pressed, or a task of a tab makes progress. -/
inductive AuthEvent
  | mount (tab : ℕ) (webauthn : Bool)
  | readSettled (tab : ℕ) (outcome : ReadOutcome)
  | enroll (tab : ℕ)
  | enrollSettled (tab : ℕ) (enrollment : Enrollment)
  | vaultFileCreated (tab : ℕ)
  | storeSettled (tab : ℕ) (outcome : Except String Unit)
  | unlock (tab : ℕ)
  | unlockSettled (tab : ℕ) (assertion : Assertion)
  | lock (tab : ℕ)
  | forget (tab : ℕ)
  | clearSettled (tab : ℕ) (outcome : Except String Unit)
  | retry (tab : ℕ)

/-- The tab in which an event happens. -/
def AuthEvent.tab : AuthEvent → ℕ
  | .mount tab _ | .readSettled tab _ | .enroll tab | .enrollSettled tab _ | .vaultFileCreated tab
  | .storeSettled tab _ | .unlock tab | .unlockSettled tab _ | .lock tab | .forget tab
  | .clearSettled tab _ | .retry tab => tab

/-- A tab holds a credential when it can still show or unlock it. -/
def Tab.Holds (tab : Tab) (credential : VaultCredential) : Prop :=
  tab.screen = .locked credential ∨ (∃ vault, tab.screen = .unlocked vault credential) ∨
    (∃ message, tab.screen = .error message (.locked credential)) ∨
    tab.task = .unlocking credential ∨ tab.task = .clearing (some credential)

namespace Origin

/-- An origin without tabs on a given vault file. -/
def initial (file : Option VaultText) : Origin where
  file := file
  tabs := fun _ ↦ ⟨.unsupported, .idle, 0⟩
  forgets := 0

/-- The credential in the vault file: what `readVaultFile()` resolves with. -/
def stored? (origin : Origin) : Option VaultCredential :=
  origin.file.bind deserialize

/-- The origin with another state of one tab. -/
def setTab (origin : Origin) (tab : ℕ) (next : Tab) : Origin :=
  { origin with tabs := Function.update origin.tabs tab next }

/-- The screen that the bootstrap shows. -/
def bootstrapScreen (origin : Origin) : ReadOutcome → Screen
  | .unavailable => .unsupported
  | .failed message => .error message .fresh
  | .succeeded =>
    match origin.stored? with
    | some credential => .locked credential
    | none => .fresh

/-- The credential that `doForget` keeps for its retry. -/
def snapshot : Screen → Option VaultCredential
  | .locked credential => some credential
  | .unlocked _ credential => some credential
  | _ => none

/-- What the retry of `doForget` sets. -/
def forgetRetry : Option VaultCredential → Retry
  | some credential => .locked credential
  | none => .fresh

/-- The screen that a retry sets. -/
def retryScreen : Retry → Screen
  | .fresh => .fresh
  | .locked credential => .locked credential

variable (primitives : Primitives)

/-- The transition function. -/
def step (origin : Origin) : AuthEvent → Option Origin
  | .mount tab webauthn =>
    some (origin.setTab tab
      (if webauthn then ⟨.loading, .reading, 0⟩ else ⟨.unsupported, .idle, 0⟩))
  | .readSettled tab outcome =>
    match (origin.tabs tab).task with
    | .reading => some (origin.setTab tab ⟨origin.bootstrapScreen outcome, .idle, 0⟩)
    | _ => none
  | .enroll tab =>
    match (origin.tabs tab).screen with
    | .fresh => some (origin.setTab tab ⟨.busy .enrolling, .enrolling, 0⟩)
    | _ => none
  | .enrollSettled tab enrollment =>
    match (origin.tabs tab).task with
    | .enrolling =>
      some (origin.setTab tab
        (match Auth.enroll primitives (some "platform") enrollment with
        | .ok (vault, credential) => ⟨.busy .enrolling, .storing vault credential, 0⟩
        | .error message => ⟨.error message .fresh, .idle, 0⟩))
    | _ => none
  | .vaultFileCreated tab =>
    match (origin.tabs tab).task, origin.file with
    | .storing _ _, none => some { origin with file := some (.other "") }
    | _, _ => none
  | .storeSettled tab outcome =>
    match (origin.tabs tab).task, outcome with
    | .storing vault credential, .ok () =>
      some { origin.setTab tab ⟨.unlocked vault credential, .idle, origin.forgets⟩ with
        file := some (.serialized credential) }
    | .storing _ _, .error message =>
      some (origin.setTab tab ⟨.error message .fresh, .idle, 0⟩)
    | _, _ => none
  | .unlock tab =>
    match (origin.tabs tab).screen with
    | .locked credential => some (origin.setTab tab ⟨.busy .unlocking, .unlocking credential, 0⟩)
    | _ => none
  | .unlockSettled tab assertion =>
    match (origin.tabs tab).task with
    | .unlocking credential =>
      some (origin.setTab tab
        (match Auth.unlock primitives credential assertion with
        | .ok vault => ⟨.unlocked vault credential, .idle, origin.forgets⟩
        | .error message => ⟨.error message (.locked credential), .idle, 0⟩))
    | _ => none
  | .lock tab =>
    match (origin.tabs tab).screen with
    | .unlocked _ credential => some (origin.setTab tab ⟨.locked credential, .idle, 0⟩)
    | _ => none
  | .forget tab =>
    match snapshot (origin.tabs tab).screen with
    | some credential =>
      some (origin.setTab tab ⟨.busy .enrolling, .clearing (some credential), 0⟩)
    | none => none
  | .clearSettled tab outcome =>
    match (origin.tabs tab).task, outcome with
    | .clearing _, .ok () =>
      some { origin.setTab tab ⟨.fresh, .idle, 0⟩ with
        file := none
        forgets := origin.forgets + 1 }
    | .clearing snapshot, .error message =>
      some (origin.setTab tab ⟨.error message (forgetRetry snapshot), .idle, 0⟩)
    | _, _ => none
  | .retry tab =>
    match (origin.tabs tab).screen with
    | .error _ retry => some (origin.setTab tab ⟨retryScreen retry, .idle, 0⟩)
    | _ => none

/-- The origin as an automaton. -/
def automaton : Automaton Origin AuthEvent :=
  ⟨step primitives⟩

/-! ### What one step can do -/

/-- What an event does to the origin. -/
inductive StepEffect (origin : Origin) : AuthEvent → Origin → Prop
  /-- One tab shows a screen that is not unlocked; what it is about to store comes from an
  enrollment, and a credential it holds was stored or held before. -/
  | shown (event : AuthEvent) (replaced : Tab)
      (hlocked : ∀ vault credential, replaced.screen ≠ .unlocked vault credential)
      (henrolled : ∀ vault credential, replaced.task = .storing vault credential →
        ∃ enrollment, event = .enrollSettled event.tab enrollment ∧
          Auth.enroll primitives (some "platform") enrollment = .ok (vault, credential))
      (hheld : ∀ credential, replaced.Holds credential →
        origin.stored? = some credential ∨ (origin.tabs event.tab).Holds credential) :
      StepEffect origin event (origin.setTab event.tab replaced)
  /-- An empty vault file appears where there was none. -/
  | created (tab : ℕ) (habsent : origin.file = none) :
      StepEffect origin (.vaultFileCreated tab) { origin with file := some (.other "") }
  /-- The write of an enrollment commits. -/
  | stored (tab : ℕ) (vault : CryptoVault) (credential : VaultCredential)
      (htask : (origin.tabs tab).task = .storing vault credential) :
      StepEffect origin (.storeSettled tab (.ok ()))
        { origin.setTab tab ⟨.unlocked vault credential, .idle, origin.forgets⟩ with
          file := some (.serialized credential) }
  /-- An unlock succeeds. -/
  | opened (tab : ℕ) (assertion : Assertion) (vault : CryptoVault) (credential : VaultCredential)
      (htask : (origin.tabs tab).task = .unlocking credential)
      (hunlock : Auth.unlock primitives credential assertion = .ok vault) :
      StepEffect origin (.unlockSettled tab assertion)
        (origin.setTab tab ⟨.unlocked vault credential, .idle, origin.forgets⟩)
  /-- The removal of the vault file completes. -/
  | cleared (tab : ℕ) (snapshot : Option VaultCredential)
      (htask : (origin.tabs tab).task = .clearing snapshot) :
      StepEffect origin (.clearSettled tab (.ok ()))
        { origin.setTab tab ⟨.fresh, .idle, 0⟩ with
          file := none
          forgets := origin.forgets + 1 }

/-- The screens of the bootstrap are not unlocked. -/
theorem bootstrapScreen_ne_unlocked (origin : Origin) (outcome : ReadOutcome) (vault : CryptoVault)
    (credential : VaultCredential) :
    origin.bootstrapScreen outcome ≠ .unlocked vault credential := by
  unfold bootstrapScreen
  cases outcome with
  | unavailable => simp
  | failed message => simp
  | succeeded => cases origin.stored? <;> simp

/-- The bootstrap shows the stored credential and no other. -/
theorem stored?_of_bootstrapScreen {origin : Origin} {outcome : ReadOutcome}
    {credential : VaultCredential}
    (hholds : Tab.Holds ⟨origin.bootstrapScreen outcome, .idle, 0⟩ credential) :
    origin.stored? = some credential := by
  unfold bootstrapScreen at hholds
  cases outcome with
  | unavailable => simp [Tab.Holds] at hholds
  | failed message => simp [Tab.Holds] at hholds
  | succeeded =>
    cases hstored : origin.stored? with
    | none => simp [Tab.Holds, hstored] at hholds
    | some stored =>
      simp only [Tab.Holds, hstored, Screen.locked.injEq, reduceCtorEq, exists_false,
        or_false] at hholds
      rw [hholds]

/-- Every step has one of these effects. -/
theorem step_effect {origin next : Origin} {event : AuthEvent}
    (hstep : step primitives origin event = some next) :
    StepEffect primitives origin event next := by
  cases event with
  | mount tab webauthn =>
    rw [step, Option.some.injEq] at hstep
    subst hstep
    cases webauthn <;>
      exact .shown (.mount tab _) _ (by simp) (by simp) (by simp [Tab.Holds])
  | readSettled tab outcome =>
    simp only [step] at hstep
    split at hstep
    · obtain rfl := Option.some.inj hstep
      exact .shown (.readSettled tab outcome) _ (bootstrapScreen_ne_unlocked origin outcome)
        (by simp) fun credential hholds ↦ Or.inl (stored?_of_bootstrapScreen hholds)
    · cases hstep
  | enroll tab =>
    simp only [step] at hstep
    split at hstep
    · obtain rfl := Option.some.inj hstep
      exact .shown (.enroll tab) _ (by simp) (by simp) (by simp [Tab.Holds])
    · cases hstep
  | enrollSettled tab enrollment =>
    simp only [step] at hstep
    split at hstep
    · obtain rfl := Option.some.inj hstep
      cases henroll : Auth.enroll primitives (some "platform") enrollment with
      | error message =>
        exact .shown (.enrollSettled tab enrollment) _ (by simp) (by simp) (by simp [Tab.Holds])
      | ok result =>
        refine .shown (.enrollSettled tab enrollment) _ (by simp)
          (fun vault credential htask ↦ ⟨enrollment, rfl, ?_⟩) (by simp [Tab.Holds])
        obtain ⟨hvault, hcredential⟩ := Task.storing.inj htask
        rw [henroll, ← hvault, ← hcredential]
    · cases hstep
  | vaultFileCreated tab =>
    simp only [step] at hstep
    split at hstep
    · next habsent =>
      obtain rfl := Option.some.inj hstep
      exact .created tab habsent
    · cases hstep
  | storeSettled tab outcome =>
    simp only [step] at hstep
    split at hstep
    · next vault credential htask =>
      obtain rfl := Option.some.inj hstep
      exact .stored tab vault credential htask
    · next message _ =>
      obtain rfl := Option.some.inj hstep
      exact .shown (.storeSettled tab (.error message)) _ (by simp) (by simp)
        (by simp [Tab.Holds])
    · cases hstep
  | unlock tab =>
    simp only [step] at hstep
    split at hstep
    · next credential hscreen =>
      obtain rfl := Option.some.inj hstep
      exact .shown (.unlock tab) _ (by simp) (by simp)
        (by simp [Tab.Holds, AuthEvent.tab, hscreen])
    · cases hstep
  | unlockSettled tab assertion =>
    simp only [step] at hstep
    split at hstep
    · next credential htask =>
      obtain rfl := Option.some.inj hstep
      cases hunlock : Auth.unlock primitives credential assertion with
      | error message =>
        exact .shown (.unlockSettled tab assertion) _ (by simp) (by simp)
          (by simp [Tab.Holds, AuthEvent.tab, htask])
      | ok vault => exact .opened tab assertion vault credential htask hunlock
    · cases hstep
  | lock tab =>
    simp only [step] at hstep
    split at hstep
    · next vault credential hscreen =>
      obtain rfl := Option.some.inj hstep
      exact .shown (.lock tab) _ (by simp) (by simp)
        (by simp [Tab.Holds, AuthEvent.tab, hscreen])
    · cases hstep
  | forget tab =>
    simp only [step] at hstep
    split at hstep
    · next credential hsnapshot =>
      obtain rfl := Option.some.inj hstep
      refine .shown (.forget tab) _ (by simp) (by simp) fun other hholds ↦ Or.inr ?_
      obtain rfl : credential = other := by simpa [Tab.Holds] using hholds
      unfold snapshot at hsnapshot
      split at hsnapshot
      · next hscreen =>
        obtain rfl := Option.some.inj hsnapshot
        exact Or.inl hscreen
      · next vault _ hscreen =>
        obtain rfl := Option.some.inj hsnapshot
        exact Or.inr (Or.inl ⟨vault, hscreen⟩)
      · cases hsnapshot
    · cases hstep
  | clearSettled tab outcome =>
    simp only [step] at hstep
    split at hstep
    · next snapshot htask =>
      obtain rfl := Option.some.inj hstep
      exact .cleared tab snapshot htask
    · next snapshot message htask =>
      obtain rfl := Option.some.inj hstep
      refine .shown (.clearSettled tab (.error message)) _ (by simp) (by simp)
        fun credential hholds ↦ Or.inr ?_
      cases snapshot with
      | none => simp [Tab.Holds, forgetRetry] at hholds
      | some kept =>
        obtain rfl : kept = credential := by simpa [Tab.Holds, forgetRetry] using hholds
        exact Or.inr (Or.inr (Or.inr (Or.inr htask)))
    · cases hstep
  | retry tab =>
    simp only [step] at hstep
    split at hstep
    · next message retry hscreen =>
      obtain rfl := Option.some.inj hstep
      refine .shown (.retry tab) _ (by cases retry <;> simp [retryScreen]) (by simp)
        fun credential hholds ↦ Or.inr ?_
      cases retry with
      | fresh => simp [Tab.Holds, retryScreen] at hholds
      | locked kept =>
        obtain rfl : kept = credential := by simpa [Tab.Holds, retryScreen] using hholds
        exact Or.inr (Or.inr (Or.inl ⟨message, hscreen⟩))
    · cases hstep

/-- The write of an enrollment commits in the tab that awaits it. -/
theorem step_storeSettled {origin : Origin} {tab : ℕ} {vault : CryptoVault}
    {credential : VaultCredential} (htask : (origin.tabs tab).task = .storing vault credential) :
    step primitives origin (.storeSettled tab (.ok ())) =
      some { origin.setTab tab ⟨.unlocked vault credential, .idle, origin.forgets⟩ with
        file := some (.serialized credential) } := by
  simp only [step, htask]

/-- A successful unlock shows its vault in the tab that awaits it. -/
theorem step_unlockSettled {origin : Origin} {tab : ℕ} {assertion : Assertion}
    {vault : CryptoVault} {credential : VaultCredential}
    (htask : (origin.tabs tab).task = .unlocking credential)
    (hunlock : Auth.unlock primitives credential assertion = .ok vault) :
    step primitives origin (.unlockSettled tab assertion) =
      some (origin.setTab tab ⟨.unlocked vault credential, .idle, origin.forgets⟩) := by
  simp only [step, htask, hunlock]

end Origin

end OpfsWebauthn.Auth
