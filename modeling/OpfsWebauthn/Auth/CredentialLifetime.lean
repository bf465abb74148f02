import OpfsWebauthn.Auth.AuthScreen
import OpfsWebauthn.Crypto.Tabulated

/-!
# The lifetime of a stored credential

A vault credential wraps the only key of the notes, so it must stay in the vault file until the
vault is forgotten. `KeepsCredential` says this of one step: the credential in the file is still
there afterwards, unless the step is the removal inside `doForget`; and every tab that is unlocked,
and was unlocked after the last removal, has the stored credential, which opens its vault.

`doEnroll` overwrites the file without a look at it. It runs from the screen `fresh`, which may
have been shown long before, in another tab, or by the retry of a failed read. `credential_kept_iff`
says when this is harmless: a run keeps the credential at every step if and only if each write that
commits finds no other credential in the file, and each unlock that succeeds finds in the file the
credential it unlocks.
-/

set_option autoImplicit false
set_option relaxedAutoImplicit false

namespace OpfsWebauthn.Auth.Origin

open Foundation Storage Crypto

variable (primitives : Primitives)

/-- A tab that was unlocked after the last removal has the stored credential, and this credential
opens its vault. -/
def TabAttached (stored : Option VaultCredential) (forgets : ℕ) (tab : Tab) : Prop :=
  ∀ vault credential, tab.screen = .unlocked vault credential → tab.unlockedAt = forgets →
    stored = some credential ∧ Opens primitives credential vault

/-- Every tab is attached to the vault file. -/
def Attached (origin : Origin) : Prop :=
  ∀ tab, TabAttached primitives origin.stored? origin.forgets (origin.tabs tab)

/-- A step does not replace or remove the stored credential, unless it is the removal of a
`doForget`, and leaves the unlocked tabs attached. -/
def KeepsCredential (origin : Origin) (event : AuthEvent) : Prop :=
  ∀ next, step primitives origin event = some next →
    (∀ credential, origin.stored? = some credential →
      next.stored? = some credential ∨ ∃ tab, event = .clearSettled tab (.ok ())) ∧
    Attached primitives next

/-- A write that is about to commit finds no other credential in the file. -/
def CommitsOver (stored : Option VaultCredential) : Task → Prop
  | .storing _ credential => ∀ present ∈ stored, present = credential
  | _ => True

/-- An unlock that is about to succeed finds its credential in the file. -/
def UnlocksStored (stored : Option VaultCredential) (assertion : Assertion) : Task → Prop
  | .unlocking credential =>
    (Auth.unlock primitives credential assertion).isOk → stored = some credential
  | _ => True

/-- The condition on a step: a write of an enrollment does not commit over another credential, and
an unlock does not succeed with a credential that is no longer in the file. -/
def RespectsFile (origin : Origin) : AuthEvent → Prop
  | .storeSettled tab (.ok ()) => CommitsOver origin.stored? (origin.tabs tab).task
  | .unlockSettled tab assertion =>
    UnlocksStored primitives origin.stored? assertion (origin.tabs tab).task
  | _ => True

instance (stored : Option VaultCredential) : ∀ task, Decidable (CommitsOver stored task)
  | .storing _ credential => inferInstanceAs (Decidable (∀ present ∈ stored, present = credential))
  | .idle | .reading | .enrolling | .unlocking _ | .clearing _ => .isTrue trivial

instance (stored : Option VaultCredential) (assertion : Assertion) :
    ∀ task, Decidable (UnlocksStored primitives stored assertion task)
  | .unlocking credential => inferInstanceAs (Decidable
      ((Auth.unlock primitives credential assertion).isOk → stored = some credential))
  | .idle | .reading | .enrolling | .storing _ _ | .clearing _ => .isTrue trivial

instance (origin : Origin) : ∀ event, Decidable (RespectsFile primitives origin event)
  | .storeSettled tab (.ok ()) =>
    inferInstanceAs (Decidable (CommitsOver origin.stored? (origin.tabs tab).task))
  | .unlockSettled tab assertion => inferInstanceAs
      (Decidable (UnlocksStored primitives origin.stored? assertion (origin.tabs tab).task))
  | .storeSettled _ (.error _) | .mount _ _ | .readSettled _ _ | .enroll _ | .enrollSettled _ _
  | .vaultFileCreated _ | .unlock _ | .lock _ | .forget _ | .clearSettled _ _ | .retry _ =>
    .isTrue trivial

/-- The invariant of a tab: the vault it shows or is about to store is opened by its credential,
and it was unlocked after no more removals than there were. -/
structure TabSound (forgets : ℕ) (tab : Tab) : Prop where
  opens : ∀ vault credential, tab.screen = .unlocked vault credential →
    Opens primitives credential vault
  counted : ∀ vault credential, tab.screen = .unlocked vault credential →
    tab.unlockedAt ≤ forgets
  storing : ∀ vault credential, tab.task = .storing vault credential →
    Opens primitives credential vault

/-- The invariant of every run. -/
def Sound (origin : Origin) : Prop :=
  ∀ tab, TabSound primitives origin.forgets (origin.tabs tab)

variable {primitives}

/-- A property of the replaced tab and of the other tabs is one of all tabs. -/
theorem forall_update (property : Tab → Prop) {tabs : ℕ → Tab} {tab : ℕ} {replaced : Tab}
    (hreplaced : property replaced) (hothers : ∀ other, property (tabs other)) :
    ∀ other, property (Function.update tabs tab replaced other) := by
  intro other
  by_cases hother : other = tab
  · subst hother
    rw [Function.update_self]
    exact hreplaced
  · rw [Function.update_of_ne hother]
    exact hothers other

/-- A tab that is not unlocked and stores nothing is sound. -/
theorem tabSound_of_idle (forgets : ℕ) {tab : Tab}
    (hlocked : ∀ vault credential, tab.screen ≠ .unlocked vault credential)
    (hidle : ∀ vault credential, tab.task ≠ .storing vault credential) :
    TabSound primitives forgets tab where
  opens := fun vault credential hscreen ↦ absurd hscreen (hlocked vault credential)
  counted := fun vault credential hscreen ↦ absurd hscreen (hlocked vault credential)
  storing := fun vault credential htask ↦ absurd htask (hidle vault credential)

/-- A tab that was just unlocked is sound. -/
theorem tabSound_of_opens (forgets : ℕ) {vault : CryptoVault} {credential : VaultCredential}
    (hopens : Opens primitives credential vault) :
    TabSound primitives forgets ⟨.unlocked vault credential, .idle, forgets⟩ where
  opens := by
    intro other otherCredential hscreen
    obtain ⟨rfl, rfl⟩ := Screen.unlocked.inj hscreen
    exact hopens
  counted := fun _ _ _ ↦ Nat.le_refl forgets
  storing := fun _ _ hidle ↦ by cases hidle

/-- A new origin is sound. -/
theorem sound_initial (file : Option VaultText) : Sound primitives (initial file) :=
  fun _ ↦ tabSound_of_idle 0 (by simp [initial]) (by simp [initial])

/-- Every step keeps the origin sound. -/
theorem sound_step (hcorrect : primitives.CorrectAead) (htagged : primitives.TaggedAead)
    {origin next : Origin} {event : AuthEvent} (hsound : Sound primitives origin)
    (hstep : step primitives origin event = some next) :
    Sound primitives next := by
  cases step_effect primitives hstep with
  | shown event replaced hlocked henrolled hheld =>
    refine forall_update (TabSound primitives origin.forgets) ⟨?_, ?_, ?_⟩ hsound
    · intro vault credential hscreen
      exact absurd hscreen (hlocked vault credential)
    · intro vault credential hscreen
      exact absurd hscreen (hlocked vault credential)
    · intro vault credential htask
      obtain ⟨enrollment, -, henroll⟩ := henrolled vault credential htask
      exact opens_of_enroll hcorrect htagged henroll
  | created tab habsent => exact hsound
  | stored tab vault credential htask =>
    have hopens := (hsound tab).storing vault credential htask
    exact forall_update (TabSound primitives origin.forgets) (tabSound_of_opens _ hopens) hsound
  | opened tab assertion vault credential htask hunlock =>
    have hopens := opens_of_unlock hunlock
    exact forall_update (TabSound primitives origin.forgets) (tabSound_of_opens _ hopens) hsound
  | cleared tab snapshot htask =>
    refine forall_update (TabSound primitives (origin.forgets + 1))
      (tabSound_of_idle _ (by simp) (by simp)) fun other ↦ ?_
    refine ⟨(hsound other).opens, fun vault credential hscreen ↦ ?_, (hsound other).storing⟩
    exact Nat.le_succ_of_le ((hsound other).counted vault credential hscreen)

/-- A tab that is not unlocked is attached. -/
theorem tabAttached_of_locked (stored : Option VaultCredential) (forgets : ℕ) {tab : Tab}
    (hlocked : ∀ vault credential, tab.screen ≠ .unlocked vault credential) :
    TabAttached primitives stored forgets tab :=
  fun vault credential hscreen ↦ absurd hscreen (hlocked vault credential)

/-- A tab that is unlocked with the stored credential is attached. -/
theorem tabAttached_of_stored (forgets : ℕ) {vault : CryptoVault} {credential : VaultCredential}
    (hopens : Opens primitives credential vault) :
    TabAttached primitives (some credential) forgets
      ⟨.unlocked vault credential, .idle, forgets⟩ := by
  intro other otherCredential hscreen _
  obtain ⟨rfl, rfl⟩ := Screen.unlocked.inj hscreen
  exact ⟨rfl, hopens⟩

/-- A step that meets the condition keeps the credential. -/
theorem keepsCredential_of_respectsFile {origin : Origin} {event : AuthEvent}
    (hsound : Sound primitives origin) (hattached : Attached primitives origin)
    (hrespects : RespectsFile primitives origin event) :
    KeepsCredential primitives origin event := by
  intro next hstep
  cases step_effect primitives hstep with
  | shown event replaced hlocked henrolled hheld =>
    refine ⟨fun _ hstored ↦ Or.inl hstored, ?_⟩
    exact forall_update (TabAttached primitives origin.stored? origin.forgets)
      (tabAttached_of_locked _ _ hlocked) hattached
  | created tab habsent =>
    have hnothing : origin.stored? = none := by rw [stored?, habsent, Option.bind_none]
    refine ⟨fun credential hstored ↦ ?_, fun tab vault credential hscreen hunlocked ↦ ?_⟩
    · rw [hnothing] at hstored
      cases hstored
    · have hstored := (hattached tab vault credential hscreen hunlocked).1
      rw [hnothing] at hstored
      cases hstored
  | stored tab vault credential htask =>
    have hpresent : ∀ present ∈ origin.stored?, present = credential := by
      simpa only [RespectsFile, CommitsOver, htask] using hrespects
    refine ⟨fun present hstored ↦ Or.inl ?_, ?_⟩
    · rw [hpresent present hstored]
      rfl
    · refine forall_update (TabAttached primitives (some credential) origin.forgets)
        (tabAttached_of_stored _ ((hsound tab).storing vault credential htask)) fun other ↦ ?_
      intro otherVault otherCredential hscreen hunlocked
      obtain ⟨hstored, hopens⟩ := hattached other otherVault otherCredential hscreen hunlocked
      rw [hpresent otherCredential hstored] at hopens ⊢
      exact ⟨rfl, hopens⟩
  | opened tab assertion vault credential htask hunlock =>
    have hpresent : origin.stored? = some credential := by
      simp only [RespectsFile, UnlocksStored, htask, hunlock] at hrespects
      exact hrespects rfl
    refine ⟨fun _ hstored ↦ Or.inl hstored, ?_⟩
    refine forall_update (TabAttached primitives origin.stored? origin.forgets) ?_ hattached
    rw [hpresent]
    exact tabAttached_of_stored _ (opens_of_unlock hunlock)
  | cleared tab snapshot htask =>
    refine ⟨fun _ _ ↦ Or.inr ⟨tab, rfl⟩, ?_⟩
    refine forall_update (TabAttached primitives none (origin.forgets + 1))
      (tabAttached_of_locked _ _ (by simp)) fun other vault credential hscreen hunlocked ↦ ?_
    have hcounted := (hsound other).counted vault credential hscreen
    omega

/-- A step that keeps the credential meets the condition. -/
theorem respectsFile_of_keepsCredential {origin : Origin} {event : AuthEvent}
    (hkeeps : KeepsCredential primitives origin event) :
    RespectsFile primitives origin event := by
  cases event with
  | storeSettled tab outcome =>
    cases outcome with
    | error message => trivial
    | ok done =>
      show CommitsOver origin.stored? (origin.tabs tab).task
      unfold CommitsOver
      split
      · next vault credential htask =>
        intro present hstored
        have hstep := step_storeSettled primitives htask
        rcases (hkeeps _ hstep).1 present hstored with hkept | ⟨other, hclear⟩
        · exact (Option.some.inj hkept).symm
        · cases hclear
      · trivial
  | unlockSettled tab assertion =>
    show UnlocksStored primitives origin.stored? assertion (origin.tabs tab).task
    unfold UnlocksStored
    split
    · next credential htask =>
      cases hunlock : Auth.unlock primitives credential assertion with
      | error message => exact fun hok ↦ by cases hok
      | ok vault =>
        intro _
        have hstep := step_unlockSettled primitives htask hunlock
        have hattached := (hkeeps _ hstep).2 tab
        simp only [setTab, Function.update_self] at hattached
        exact (hattached vault credential rfl rfl).1
    · trivial
  | _ => trivial

/-- A run keeps the stored credential, and its unlocked tabs attached to it, if and only if each
write of an enrollment commits over no other credential and each unlock succeeds with the stored
one. -/
theorem credential_kept_iff (hcorrect : primitives.CorrectAead)
    (htagged : primitives.TaggedAead) (file : Option VaultText) (events : List AuthEvent) :
    (automaton primitives).RunMeets (KeepsCredential primitives) (initial file) events ↔
      (automaton primitives).RunMeets (RespectsFile primitives) (initial file) events := by
  constructor
  · exact fun hkeeps ↦ hkeeps.mono fun _ _ ↦ respectsFile_of_keepsCredential
  · intro hrespects
    refine hrespects.of_invariant
      (fun origin ↦ Sound primitives origin ∧ Attached primitives origin) ?_ ?_ ?_
    · rintro origin event next ⟨hsound, hattached⟩ hadmits hstep
      exact ⟨sound_step hcorrect htagged hsound hstep,
        (keepsCredential_of_respectsFile hsound hattached hadmits next hstep).2⟩
    · rintro origin event ⟨hsound, hattached⟩ hadmits
      exact keepsCredential_of_respectsFile hsound hattached hadmits
    · refine ⟨sound_initial file, fun tab vault credential hscreen ↦ ?_⟩
      cases hscreen

/-! ### Two runs -/

/-- A byte repeated to an array. -/
def filled (length : ℕ) (byte : UInt8) : ByteArrayN length :=
  ⟨List.replicate length byte, List.length_replicate⟩

/-- An enrollment on a platform authenticator that returns a PRF output at once. -/
def enrollmentOf (id prfSalt prfOutput dek wrapNonce : UInt8) : Enrollment where
  environment := .ok ()
  prfSalt := (filled 32 prfSalt).val
  rpId := "localhost"
  creation := .credential ⟨[id], some "platform", some (filled 32 prfOutput).val⟩
  assertion := .nothing
  entropy := some ⟨filled 32 dek, filled 12 wrapNonce⟩
  now := 1700000000000

/-- The key encryption key for the PRF output `11..` and the salt `22..`. -/
def firstKek : ByteArrayN keyLen :=
  arrayOf 32 0x5272ac2f5f41896190a9bc0697d942a5020b0c54176c79065cb8582826dce58f

/-- The key encryption key for the PRF output `55..` and the salt `66..`. -/
def secondKek : ByteArrayN keyLen :=
  arrayOf 32 0xe0c5322835e6d49f19595ec763a2105e4e601e65fdba3ee2ef1da5411476f764

/-- The key `33..` wrapped under `firstKek`. -/
def firstWrapped : Bytes :=
  bytesOf 24 0x2c32e07ab3843cada34f1f3c46aa758b49f223201e771668 ++
    bytesOf 24 0x0672ff7e006cab8fc2ed41bd6adcadaa67750e0bef3958b9

/-- The key `77..` wrapped under `secondKek`. -/
def secondWrapped : Bytes :=
  bytesOf 24 0x24bc720a0645efc241b917ec8718ffbc5a055277363e47cb ++
    bytesOf 24 0x8d803a3e56076fc85f8bb6bc98e8f4830a36a43b978d86fa

/-- The two wraps. -/
def wraps : List AeadEntry :=
  [⟨firstKek, filled 12 0x44, dekWrapAad, (filled 32 0x33).val, firstWrapped⟩,
    ⟨secondKek, filled 12 0x88, dekWrapAad, (filled 32 0x77).val, secondWrapped⟩]

/-- The primitives at the values of two enrollments. -/
def twoEnrollments : Primitives where
  blake3 _ := filled 32 0
  base32Encode _ := ""
  publicKey secret := secret
  diffieHellman secret _ := secret
  hkdf salt ikm info :=
    if info ≠ kekInfo then none
    else if salt = (filled 32 0x22).val ∧ ikm = (filled 32 0x11).val then some firstKek
    else if salt = (filled 32 0x66).val ∧ ikm = (filled 32 0x55).val then some secondKek
    else none
  aeadEncrypt := tableEncrypt wraps
  aeadDecrypt := tableDecrypt wraps

/-- The credential of the first enrollment. -/
def firstCredential : VaultCredential where
  credentialId := [1]
  prfSalt := (filled 32 0x22).val
  wrappedDek := firstWrapped
  wrapNonce := (filled 12 0x44).val
  rpId := "localhost"
  createdAt := 1700000000000

/-- The table is correct. -/
theorem correctAead_twoEnrollments : twoEnrollments.CorrectAead :=
  @correctAead_of_table twoEnrollments wraps rfl rfl (by decide +kernel)

/-- The ciphertexts of the table carry the tag. -/
theorem taggedAead_twoEnrollments : twoEnrollments.TaggedAead :=
  @taggedAead_of_table twoEnrollments wraps rfl (by decide +kernel)

/-- A tab enrolls on a fresh origin, locks and unlocks. -/
def enrollLockUnlock : List AuthEvent :=
  [.mount 0 true, .readSettled 0 .succeeded, .enroll 0,
    .enrollSettled 0 (enrollmentOf 1 0x22 0x11 0x33 0x44), .vaultFileCreated 0,
    .storeSettled 0 (.ok ()), .lock 0, .unlock 0,
    .unlockSettled 0 ⟨.ok (), .credential (some (filled 32 0x11).val)⟩]

/-- This run ends in an unlocked tab and keeps the credential. -/
theorem credential_kept_iff_enrollLockUnlock :
    ((automaton twoEnrollments).run (initial none) enrollLockUnlock).map
        (fun origin ↦ (origin.tabs 0).screen) =
      some (.unlocked ⟨filled 32 0x33⟩ firstCredential) ∧
    (automaton twoEnrollments).RunMeets (KeepsCredential twoEnrollments) (initial none)
      enrollLockUnlock :=
  ⟨by decide +kernel, (credential_kept_iff correctAead_twoEnrollments
    taggedAead_twoEnrollments none _).mpr (by decide +kernel)⟩

/-- The read of the bootstrap fails; the retry shows the fresh screen, and an enrollment follows. -/
def enrollAfterFailedRead : List AuthEvent :=
  [.mount 0 true, .readSettled 0 (.failed "the file could not be read"), .retry 0, .enroll 0,
    .enrollSettled 0 (enrollmentOf 2 0x66 0x55 0x77 0x88), .storeSettled 0 (.ok ())]

/-- This run replaces the stored credential without a removal. -/
theorem not_keepsCredential_enrollAfterFailedRead :
    ((automaton twoEnrollments).run (initial (some (.serialized firstCredential)))
        enrollAfterFailedRead).map (fun origin ↦ (origin.forgets,
          decide (origin.stored? = some firstCredential))) = some (0, false) ∧
    ¬ (automaton twoEnrollments).RunMeets (KeepsCredential twoEnrollments)
      (initial (some (.serialized firstCredential))) enrollAfterFailedRead := by
  refine ⟨by decide +kernel, fun hkeeps ↦ ?_⟩
  have hrespects := hkeeps.mono fun _ _ ↦ respectsFile_of_keepsCredential
  exact absurd hrespects (by decide +kernel)

end OpfsWebauthn.Auth.Origin
