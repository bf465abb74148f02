import OpfsWebauthn.Auth.CredentialLifetime
import OpfsWebauthn.Storage.ListPages

/-!
# The vault and its rows

One tab of the auth screen next to the `notes` table. The screen decides when a `Repo` exists: only
while the tab is unlocked, under the vault it was unlocked with. The vault file and the table are
separate: `doForget` removes the file and leaves the table, and an enrollment draws a new key.

AES-GCM is ideal after a history of encryptions that has those of the run (`Records`).
`database_readable_iff` says when an unlocked tab can always list its notes: if and only if every
enrollment commits over an empty table, and every id that an upsert is given is canonical.
-/

set_option autoImplicit false
set_option relaxedAutoImplicit false

namespace OpfsWebauthn.Auth

open Foundation Storage Crypto

/-- An origin with one tab, its `notes` table, and the data encryption keys drawn so far. -/
structure VaultOrigin where
  origin : Origin
  table : NotesTable
  drawn : List (ByteArrayN keyLen)

/-- What can happen: an event of the auth screen, or a call of the repository. -/
inductive VaultEvent
  | auth (event : AuthEvent)
  | upsertNote (draw : UpsertDraw) (input : NoteInput)
  | archiveNote (id : String)
  | deleteNote (id : String)

/-- The data encryption key that an event draws. -/
def AuthEvent.drawnDek : AuthEvent → Option (ByteArrayN keyLen)
  | .enrollSettled _ enrollment => enrollment.entropy.map EnrollEntropy.dek
  | _ => none

namespace VaultOrigin

/-- A fresh origin: no vault file, and an empty table. -/
def fresh : VaultOrigin where
  origin := .initial none
  table := .empty
  drawn := []

/-- The vault of the tab while it is unlocked. -/
def vault? (state : VaultOrigin) : Option CryptoVault :=
  match (state.origin.tabs 0).screen with
  | .unlocked vault _ => some vault
  | _ => none

variable (primitives : Primitives)

/-- The transition function. The tab is tab 0, and a key that is drawn was not drawn before. -/
def step (state : VaultOrigin) : VaultEvent → Option VaultOrigin
  | .auth event =>
    if event.tab = 0 ∧ ∀ dek ∈ event.drawnDek, dek ∉ state.drawn then
      (Origin.step primitives state.origin event).map fun origin ↦
        { state with origin := origin, drawn := state.drawn ++ event.drawnDek.toList }
    else none
  | .upsertNote draw input =>
    state.vault?.map fun vault ↦
      { state with table := (Repo.upsertNote primitives vault state.table draw input).1 }
  | .archiveNote id =>
    state.vault?.map fun _ ↦ { state with table := (Repo.archiveNote state.table id).1 }
  | .deleteNote id =>
    state.vault?.map fun _ ↦ { state with table := (Repo.deleteNote state.table id).1 }

/-- The origin as an automaton. -/
def automaton : Automaton VaultOrigin VaultEvent :=
  ⟨step primitives⟩

/-- The cursors of pages: the first page has none, and every other page has one that a listing
returned. -/
def IsPageCursor (cursor : Option String) : Prop :=
  cursor = none ∨ ∃ table input page, NoteRepositorySql.list table input = .ok page ∧
    page.nextCursor = cursor

/-- While the tab is unlocked, every row decrypts under its vault, and every page can be listed. -/
def ReadsDatabase (state : VaultOrigin) : Prop :=
  ∀ vault ∈ state.vault?, Repo.TableReads primitives vault state.table ∧
    ∀ opts : ListOptions, IsPageCursor opts.cursor →
      ∃ page, Repo.listNotes primitives vault state.table opts = .ok page

/-- The step leads to a state in which the database can be read. -/
def KeepsReadable (state : VaultOrigin) (event : VaultEvent) : Prop :=
  ∀ next, step primitives state event = some next → ReadsDatabase primitives next

/-- A write of an enrollment that commits finds an empty table. -/
def CommitsOverEmpty (task : Task) (table : NotesTable) : Prop :=
  match task with
  | .storing _ _ => table.entries = []
  | _ => True

/-- An id that was given is canonical, if it decodes and the note can be encrypted for it. -/
def GivesCanonicalId (vault : Option CryptoVault) (draw : UpsertDraw) (input : NoteInput) : Prop :=
  match vault, input.id with
  | some vault, some id => (RowId.decode id).isOk →
      (Repo.encryptNote primitives vault draw id (todayDayBucket draw.now) input).isOk →
        RowId.Canonical id
  | _, _ => True

/-- The condition on a step. -/
def KeepsOneKey (state : VaultOrigin) : VaultEvent → Prop
  | .auth (.storeSettled 0 (.ok ())) => CommitsOverEmpty (state.origin.tabs 0).task state.table
  | .upsertNote draw input => GivesCanonicalId primitives state.vault? draw input
  | _ => True

instance (task : Task) (table : NotesTable) : Decidable (CommitsOverEmpty task table) := by
  unfold CommitsOverEmpty
  split <;> infer_instance

instance (vault : Option CryptoVault) (draw : UpsertDraw) (input : NoteInput) :
    Decidable (GivesCanonicalId primitives vault draw input) := by
  unfold GivesCanonicalId
  split <;> infer_instance

instance (state : VaultOrigin) (event : VaultEvent) :
    Decidable (KeepsOneKey primitives state event) := by
  unfold KeepsOneKey
  split <;> infer_instance

/-- The key wrap of an enrollment. -/
def keyWraps (requestedAttachment : Option String) (enrollment : Enrollment) : List AeadEntry :=
  match enrollmentOutput requestedAttachment enrollment with
  | .error _ => []
  | .ok prfOutput =>
    match CryptoVault.enroll primitives prfOutput enrollment.prfSalt enrollment.entropy,
      primitives.hkdf enrollment.prfSalt prfOutput kekInfo, enrollment.entropy with
    | .ok result, some kek, some drawn =>
      [⟨kek, drawn.wrapNonce, dekWrapAad, drawn.dek, result.wrappedDek⟩]
    | _, _, _ => []

/-- What an event encrypts. -/
def encryptedBy (state : VaultOrigin) : VaultEvent → List AeadEntry
  | .auth (.enrollSettled _ enrollment) => keyWraps primitives (some "platform") enrollment
  | .upsertNote draw input =>
    match state.vault? with
    | some vault => Repo.encryptions primitives vault draw input
    | none => []
  | _ => []

/-- The history has what the event encrypts. -/
def Records (history : List AeadEntry) (state : VaultOrigin) (event : VaultEvent) : Prop :=
  ∀ entry ∈ encryptedBy primitives state event, entry ∈ history

instance (history : List AeadEntry) (state : VaultOrigin) (event : VaultEvent) :
    Decidable (Records primitives history state event) := by
  unfold Records
  infer_instance

variable (history : List AeadEntry)

/-- The history has an encryption of a data encryption key as the wrapped key of a credential. -/
def Wraps (credential : VaultCredential) (dek : ByteArrayN keyLen) : Prop :=
  ∃ kek nonce, primitives.aeadEncrypt kek nonce dekWrapAad dek = some credential.wrappedDek ∧
    Produced history kek nonce dekWrapAad credential.wrappedDek

/-- The credentials that can still unlock the tab. -/
def Held (state : VaultOrigin) (credential : VaultCredential) : Prop :=
  state.origin.stored? = some credential ∨ (state.origin.tabs 0).Holds credential

/-- The invariant: one drawn key that every held credential wraps, that the tab is unlocked with,
and that every row is encrypted under. What is about to be stored wraps another drawn key, unless
there are no rows. -/
structure KeptUnder (dek : ByteArrayN keyLen) (state : VaultOrigin) : Prop where
  held : ∀ credential, state.Held credential → Wraps primitives history credential dek
  unlocked : ∀ vault ∈ state.vault?, vault = ⟨dek⟩
  idle : ∀ vault ∈ state.vault?, (state.origin.tabs 0).task = .idle
  reads : ∀ row ∈ state.table.entries, Repo.Reads (primitives.after history) ⟨dek⟩ row
  made : ∀ row ∈ state.table.entries, Repo.MadeUnder history dek row
  drawn : dek ∈ state.drawn ∨ state.table.entries = [] ∧ ∀ credential, ¬ state.Held credential
  storing : ∀ vault credential, (state.origin.tabs 0).task = .storing vault credential →
    Wraps primitives history credential vault.dek ∧ vault.dek ∈ state.drawn ∧
      (state.table.entries ≠ [] → vault.dek ≠ dek)

variable {primitives} {history}

/-- A credential opens no other vault than the one of the key it wraps. -/
theorem dek_of_opens (hcorrect : primitives.CorrectAead)
    (hdistinct : DistinctCiphertexts history) {credential : VaultCredential}
    {dek : ByteArrayN keyLen} (hwraps : Wraps primitives history credential dek)
    {vault : CryptoVault} (hopens : Opens (primitives.after history) credential vault) :
    vault = ⟨dek⟩ := by
  obtain ⟨kek, nonce, hwrapped, made, hmade, rfl, rfl, -, hciphertext⟩ := hwraps
  obtain ⟨prfOutput, hunlock⟩ := hopens
  obtain ⟨-, -, otherNonce, -, otherKek, -, hdecrypt⟩ := CryptoVault.unlock_eq_ok_iff.mp hunlock
  rw [← hciphertext] at hdecrypt hwrapped
  obtain ⟨rfl, rfl, -⟩ := hdistinct.of_decrypt hmade hdecrypt
  have hplain := (hcorrect _ _ _ _ _ hwrapped).symm.trans (aeadDecrypt_after.mp hdecrypt).2
  have hdek : dek = vault.dek := Subtype.ext (Option.some.inj hplain)
  rw [hdek]

/-- A new credential wraps the key that was drawn for it. -/
theorem wraps_of_enroll {attachment : Option String} {enrollment : Enrollment}
    (hmade : ∀ entry ∈ keyWraps primitives attachment enrollment, entry ∈ history)
    {vault : CryptoVault} {credential : VaultCredential}
    (henroll : Auth.enroll primitives attachment enrollment = .ok (vault, credential)) :
    Wraps primitives history credential vault.dek ∧
      enrollment.entropy.map EnrollEntropy.dek = some vault.dek := by
  obtain ⟨prfOutput, houtput, -, hresult⟩ := enroll_spec henroll
  obtain ⟨-, drawn, hentropy, hvault, -, kek, hkek, hwrapped⟩ :=
    CryptoVault.enroll_eq_ok_iff.mp hresult
  have hdek : vault.dek = drawn.dek := congrArg CryptoVault.dek hvault
  have hwraps : keyWraps primitives attachment enrollment =
      [⟨kek, drawn.wrapNonce, dekWrapAad, drawn.dek, credential.wrappedDek⟩] := by
    unfold keyWraps
    rw [houtput]
    dsimp only
    rw [hresult, hkek, hentropy]
  rw [hwraps] at hmade
  constructor
  · rw [hdek]
    exact ⟨kek, drawn.wrapNonce, hwrapped, _, hmade _ List.mem_cons_self, rfl, rfl, rfl, rfl⟩
  · rw [hentropy, Option.map_some, hdek]

/-- A tab is unlocked exactly when it has a vault. -/
theorem mem_vault? {state : VaultOrigin} {vault : CryptoVault} :
    vault ∈ state.vault? ↔
      ∃ credential, (state.origin.tabs 0).screen = .unlocked vault credential := by
  unfold vault?
  cases (state.origin.tabs 0).screen with
  | unlocked shown credential =>
    constructor
    · intro hvault
      obtain rfl := Option.some.inj hvault
      exact ⟨credential, rfl⟩
    · rintro ⟨other, hscreen⟩
      exact congrArg some (Screen.unlocked.inj hscreen).1
  | _ => simp

/-- An unlocked tab can list every page when every row reads. -/
theorem readsDatabase_of_tableReads {state : VaultOrigin}
    (hreads : ∀ vault ∈ state.vault?, Repo.TableReads primitives vault state.table) :
    ReadsDatabase primitives state := by
  intro vault hvault
  refine ⟨hreads vault hvault, fun opts hcursor ↦ ?_⟩
  rcases hcursor with hfirst | ⟨table, input, page, hpage, hnext⟩
  · apply Repo.listNotes_ok (hreads vault hvault)
    · rw [hfirst]
      rfl
  · obtain ⟨condition, hcondition⟩ := NoteRepositorySql.cursorWhere_nextCursor hpage
    rw [hnext] at hcondition
    exact Repo.listNotes_ok (hreads vault hvault) hcondition

/-- The invariant makes the database readable. -/
theorem KeptUnder.readsDatabase {dek : ByteArrayN keyLen} {state : VaultOrigin}
    (hkept : KeptUnder primitives history dek state) :
    ReadsDatabase (primitives.after history) state := by
  apply readsDatabase_of_tableReads
  intro vault hvault row hrow
  rw [hkept.unlocked vault hvault]
  exact hkept.reads row hrow

/-- A fresh origin is kept under any key. -/
theorem keptUnder_fresh (dek : ByteArrayN keyLen) : KeptUnder primitives history dek fresh where
  held := by simp [Held, fresh, Origin.initial, Origin.stored?, Tab.Holds]
  unlocked := by simp [fresh, Origin.initial, vault?]
  idle := by simp [fresh, Origin.initial, vault?]
  reads := by simp [fresh]
  made := by simp [fresh]
  drawn := by simp [fresh, Held, Origin.initial, Origin.stored?, Tab.Holds]
  storing := by simp [fresh, Origin.initial]

/-! ### Writes of the repository -/

/-- While the tab is unlocked, the key was drawn. -/
theorem KeptUnder.mem_drawn {dek : ByteArrayN keyLen} {state : VaultOrigin}
    (hkept : KeptUnder primitives history dek state) {vault : CryptoVault}
    (hvault : vault ∈ state.vault?) :
    dek ∈ state.drawn := by
  obtain ⟨credential, hscreen⟩ := mem_vault?.mp hvault
  rcases hkept.drawn with hdrawn | ⟨-, hnone⟩
  · exact hdrawn
  · exact absurd (Or.inr (Or.inr (Or.inl ⟨vault, hscreen⟩))) (hnone credential)

/-- A write that leaves rows under the key keeps the invariant. -/
theorem KeptUnder.of_rows {dek : ByteArrayN keyLen} {state : VaultOrigin}
    (hkept : KeptUnder primitives history dek state) {vault : CryptoVault}
    (hvault : vault ∈ state.vault?)
    {table : NotesTable} (hrows : ∀ row ∈ table.entries,
      Repo.Reads (primitives.after history) ⟨dek⟩ row ∧ Repo.MadeUnder history dek row) :
    KeptUnder primitives history dek { state with table := table } where
  held := hkept.held
  unlocked := hkept.unlocked
  idle := hkept.idle
  reads := fun row hrow ↦ (hrows row hrow).1
  made := fun row hrow ↦ (hrows row hrow).2
  drawn := Or.inl (hkept.mem_drawn hvault)
  storing := by
    intro stored credential htask
    have hidle : (state.origin.tabs 0).task = .idle := hkept.idle vault hvault
    rw [hidle] at htask
    cases htask

/-- An upsert keeps the invariant if the row that it sends has a canonical id. -/
theorem KeptUnder.upsertNote {dek : ByteArrayN keyLen} {state : VaultOrigin}
    (hcorrect : primitives.CorrectAead) (hdistinct : DistinctCiphertexts history)
    (hkept : KeptUnder primitives history dek state) {vault : CryptoVault}
    (hvault : vault ∈ state.vault?) {draw : UpsertDraw} {input : NoteInput}
    (hmade : ∀ entry ∈ Repo.encryptions primitives vault draw input, entry ∈ history)
    (hcanonical : ∀ row key, Repo.upsertRow primitives vault draw input = .ok row →
      RowId.decode row.id = .ok key → RowId.Canonical row.id) :
    KeptUnder primitives history dek { state with
      table := (Repo.upsertNote primitives vault state.table draw input).1 } := by
  apply hkept.of_rows hvault
  intro row hrow
  have hold : row ∈ state.table.entries →
      Repo.Reads (primitives.after history) ⟨dek⟩ row ∧ Repo.MadeUnder history dek row :=
    fun hrow ↦ ⟨hkept.reads row hrow, hkept.made row hrow⟩
  rcases Repo.upsertNote_cases primitives vault state.table draw input with hsame | hset
  · rw [hsame] at hrow
    exact hold hrow
  · obtain ⟨sent, key, hsent, hkey, htable⟩ := hset
    rw [htable] at hrow
    rcases Repo.mem_set hrow with rfl | hrow
    · have hreads := (Repo.reads_upsertRow_iff hcorrect hsent hdistinct hmade hkey).mpr
        (hcanonical sent key hsent hkey)
      have hunder := Repo.madeUnder_upsertRow hsent hmade key
      rw [hkept.unlocked vault hvault] at hreads hunder
      exact ⟨hreads, hunder⟩
    · exact hold hrow

/-- The row of an upsert that meets the condition has a canonical id. -/
theorem canonical_of_givesCanonicalId {vault : CryptoVault} {draw : UpsertDraw} {input : NoteInput}
    (hgives : GivesCanonicalId primitives (some vault) draw input) {row : EncryptedNoteRow}
    {key : Bytes} (hrow : Repo.upsertRow primitives vault draw input = .ok row)
    (hkey : RowId.decode row.id = .ok key) : RowId.Canonical row.id := by
  rcases (Repo.upsertRow_spec hrow).1 with hgiven | hgenerated
  · obtain ⟨id, hid, hencrypt⟩ := bind_eq_ok_iff.mp hrow
    rw [Repo.noteId, hgiven] at hid
    obtain rfl := Except.ok.inj hid
    simp only [GivesCanonicalId, hgiven, hkey, hencrypt] at hgives
    exact hgives rfl rfl
  · exact RowId.canonical_of_encode hgenerated

/-- Archiving keeps the invariant. -/
theorem KeptUnder.archiveNote {dek : ByteArrayN keyLen} {state : VaultOrigin}
    (hkept : KeptUnder primitives history dek state) {vault : CryptoVault}
    (hvault : vault ∈ state.vault?)
    (id : String) :
    KeptUnder primitives history dek
      { state with table := (Repo.archiveNote state.table id).1 } := by
  apply hkept.of_rows hvault
  intro row hrow
  rcases Repo.mem_archiveNote hrow with hold | ⟨old, hold, rfl⟩
  · exact ⟨hkept.reads row hold, hkept.made row hold⟩
  · exact ⟨Repo.reads_archived (hkept.reads old hold) 1, hkept.made old hold⟩

/-- Deleting keeps the invariant. -/
theorem KeptUnder.deleteNote {dek : ByteArrayN keyLen} {state : VaultOrigin}
    (hkept : KeptUnder primitives history dek state) {vault : CryptoVault}
    (hvault : vault ∈ state.vault?)
    (id : String) :
    KeptUnder primitives history dek
      { state with table := (Repo.deleteNote state.table id).1 } := by
  apply hkept.of_rows hvault
  intro row hrow
  have hold := Repo.mem_deleteNote hrow
  exact ⟨hkept.reads row hold, hkept.made row hold⟩

/-! ### Steps of the screen -/

/-- The tab shows a screen that is not unlocked, and holds no other credentials than before. -/
theorem KeptUnder.shown {dek : ByteArrayN keyLen} {state : VaultOrigin}
    (hkept : KeptUnder primitives history dek state) {event : AuthEvent} (htab : event.tab = 0)
    (hfresh : ∀ drawn ∈ event.drawnDek, drawn ∉ state.drawn) {replaced : Tab}
    (hlocked : ∀ vault credential, replaced.screen ≠ .unlocked vault credential)
    (henrolled : ∀ vault credential, replaced.task = .storing vault credential →
      ∃ enrollment, event = .enrollSettled event.tab enrollment ∧
        Auth.enroll primitives (some "platform") enrollment = .ok (vault, credential))
    (hmade : ∀ entry ∈ encryptedBy primitives state (.auth event), entry ∈ history)
    (hheld : ∀ credential, replaced.Holds credential →
      state.origin.stored? = some credential ∨ (state.origin.tabs event.tab).Holds credential) :
    KeptUnder primitives history dek { state with
      origin := state.origin.setTab event.tab replaced
      drawn := state.drawn ++ event.drawnDek.toList } := by
  rw [htab] at hheld ⊢
  have htabs : ((state.origin.setTab 0 replaced).tabs 0) = replaced := by
    simp [Origin.setTab]
  have hnothing : ∀ vault, vault ∉ VaultOrigin.vault? { state with
      origin := state.origin.setTab 0 replaced
      drawn := state.drawn ++ event.drawnDek.toList } := by
    intro vault hvault
    obtain ⟨credential, hscreen⟩ := mem_vault?.mp hvault
    rw [htabs] at hscreen
    exact hlocked vault credential hscreen
  have hsubset : ∀ credential, VaultOrigin.Held { state with
      origin := state.origin.setTab 0 replaced
      drawn := state.drawn ++ event.drawnDek.toList } credential → state.Held credential := by
    intro credential hholds
    rcases hholds with hstored | htabHolds
    · exact Or.inl hstored
    · rw [htabs] at htabHolds
      exact hheld credential htabHolds
  constructor
  · exact fun credential hholds ↦ hkept.held credential (hsubset credential hholds)
  · exact fun vault hvault ↦ absurd hvault (hnothing vault)
  · exact fun vault hvault ↦ absurd hvault (hnothing vault)
  · exact hkept.reads
  · exact hkept.made
  · rcases hkept.drawn with hdrawn | ⟨hempty, hnone⟩
    · exact Or.inl (List.mem_append_left _ hdrawn)
    · exact Or.inr ⟨hempty, fun credential hholds ↦ hnone credential (hsubset credential hholds)⟩
  · intro vault credential htask
    rw [htabs] at htask
    obtain ⟨enrollment, hevent, henroll⟩ := henrolled vault credential htask
    have hrecorded : ∀ entry ∈ keyWraps primitives (some "platform") enrollment,
        entry ∈ history := by
      rw [hevent] at hmade
      exact hmade
    obtain ⟨hwraps, hentropy⟩ := wraps_of_enroll hrecorded henroll
    have hdrawn : event.drawnDek = some vault.dek := by
      rw [hevent]
      exact hentropy
    refine ⟨hwraps, ?_, fun hrows hsame ↦ ?_⟩
    · rw [hdrawn]
      exact List.mem_append_right _ List.mem_cons_self
    · rcases hkept.drawn with hold | ⟨hempty, -⟩
      · exact hfresh vault.dek hdrawn (hsame ▸ hold)
      · exact hrows hempty

/-- An enrollment that commits over an empty table starts over with its own key. -/
theorem KeptUnder.stored {dek : ByteArrayN keyLen} {state : VaultOrigin}
    (hkept : KeptUnder primitives history dek state) {vault : CryptoVault}
    {credential : VaultCredential}
    (htask : (state.origin.tabs 0).task = .storing vault credential)
    (hempty : state.table.entries = []) :
    KeptUnder primitives history vault.dek { state with
      origin := {
        state.origin.setTab 0 ⟨.unlocked vault credential, .idle, state.origin.forgets⟩ with
        file := some (.serialized credential) } } := by
  obtain ⟨hwraps, hdrawn, -⟩ := hkept.storing vault credential htask
  constructor
  · rintro other (hstored | hholds)
    · obtain rfl : credential = other := Option.some.inj hstored
      exact hwraps
    · obtain rfl : credential = other := by simpa [Tab.Holds, Origin.setTab] using hholds
      exact hwraps
  · intro other hother
    obtain ⟨otherCredential, hscreen⟩ := mem_vault?.mp hother
    simp only [Origin.setTab, Function.update_self, Screen.unlocked.injEq] at hscreen
    rw [hscreen.1]
  · intro other _
    simp [Origin.setTab]
  · intro row hrow
    rw [hempty] at hrow
    cases hrow
  · intro row hrow
    rw [hempty] at hrow
    cases hrow
  · exact Or.inl hdrawn
  · intro other otherCredential hother
    simp [Origin.setTab] at hother

/-- An unlock opens the vault of the key. -/
theorem KeptUnder.opened {dek : ByteArrayN keyLen} {state : VaultOrigin}
    (hcorrect : primitives.CorrectAead) (hdistinct : DistinctCiphertexts history)
    (hkept : KeptUnder primitives history dek state) {vault : CryptoVault}
    {credential : VaultCredential}
    (htask : (state.origin.tabs 0).task = .unlocking credential)
    (hopens : Opens (primitives.after history) credential vault) :
    KeptUnder primitives history dek { state with
      origin := state.origin.setTab 0
        ⟨.unlocked vault credential, .idle, state.origin.forgets⟩ } := by
  have hcredential : state.Held credential := Or.inr (Or.inr (Or.inr (Or.inr (Or.inl htask))))
  have hvault := dek_of_opens hcorrect hdistinct (hkept.held credential hcredential) hopens
  constructor
  · rintro other (hstored | hholds)
    · exact hkept.held other (Or.inl hstored)
    · obtain rfl : credential = other := by simpa [Tab.Holds, Origin.setTab] using hholds
      exact hkept.held credential hcredential
  · intro other hother
    obtain ⟨otherCredential, hscreen⟩ := mem_vault?.mp hother
    simp only [Origin.setTab, Function.update_self, Screen.unlocked.injEq] at hscreen
    rw [← hscreen.1, hvault]
  · intro other _
    simp [Origin.setTab]
  · exact hkept.reads
  · exact hkept.made
  · rcases hkept.drawn with hdrawn | ⟨-, hnone⟩
    · exact Or.inl hdrawn
    · exact absurd hcredential (hnone credential)
  · intro other otherCredential hother
    simp [Origin.setTab] at hother

/-- When nothing is held any more, the rows stay under their key. -/
theorem KeptUnder.released {dek : ByteArrayN keyLen} {state : VaultOrigin}
    (hkept : KeptUnder primitives history dek state) {origin : Origin}
    (hstored : origin.stored? = none) (htab : (origin.tabs 0).screen = .fresh)
    (hidle : (origin.tabs 0).task = .idle) :
    KeptUnder primitives history dek { state with origin := origin } := by
  have hnone : ∀ credential, ¬ VaultOrigin.Held { state with origin := origin } credential := by
    rintro credential (hfile | hholds)
    · rw [hstored] at hfile
      cases hfile
    · simp [Tab.Holds, htab, hidle] at hholds
  have hnothing : ∀ vault, vault ∉ VaultOrigin.vault? { state with origin := origin } := by
    intro vault hvault
    obtain ⟨credential, hscreen⟩ := mem_vault?.mp hvault
    rw [htab] at hscreen
    cases hscreen
  constructor
  · exact fun credential hholds ↦ absurd hholds (hnone credential)
  · exact fun vault hvault ↦ absurd hvault (hnothing vault)
  · exact fun vault hvault ↦ absurd hvault (hnothing vault)
  · exact hkept.reads
  · exact hkept.made
  · rcases hkept.drawn with hdrawn | ⟨hempty, -⟩
    · exact Or.inl hdrawn
    · exact Or.inr ⟨hempty, hnone⟩
  · intro vault credential htask
    rw [hidle] at htask
    cases htask

end VaultOrigin

end OpfsWebauthn.Auth
