import OpfsWebauthn.Auth.VaultRows

/-!
# The unlocked vault can read its database

After any history of encryptions that has those of the run: a run from a fresh origin leads only to
states in which an unlocked tab can list every page, if and only if every step of it keeps one key:
each enrollment commits over an empty table, and each id that an upsert is given is canonical.

`doForget` does not empty the table, so a vault, a note, a forget and a second vault are a run that
leaves a row behind which the second vault cannot decrypt; the listing then fails as a whole.
-/

set_option autoImplicit false
set_option relaxedAutoImplicit false

namespace OpfsWebauthn.Auth.VaultOrigin

open Foundation Storage Crypto

variable {primitives : Primitives} {history : List AeadEntry}

/-! ### The step and the run -/

/-- An event of the screen that meets the condition keeps some key. -/
theorem keptUnder_auth (hcorrect : primitives.CorrectAead)
    (hdistinct : DistinctCiphertexts history) {dek : ByteArrayN keyLen}
    {state next : VaultOrigin} {event : AuthEvent} (hkept : KeptUnder primitives history dek state)
    (hrecords : Records primitives history state (.auth event))
    (hkeeps : KeepsOneKey primitives state (.auth event))
    (hstep : step (primitives.after history) state (.auth event) = some next) :
    ∃ key, KeptUnder primitives history key next := by
  simp only [step] at hstep
  split_ifs at hstep with hadmitted
  obtain ⟨htab, hfresh⟩ := hadmitted
  obtain ⟨origin, horigin, rfl⟩ := Option.map_eq_some_iff.mp hstep
  cases Origin.step_effect (primitives.after history) horigin with
  | shown event replaced hlocked henrolled hheld =>
    exact ⟨dek, hkept.shown htab hfresh hlocked henrolled hrecords hheld⟩
  | created tab habsent =>
    have hstored : state.origin.stored? = none := by
      rw [Origin.stored?, habsent, Option.bind_none]
    refine ⟨dek, ⟨fun credential hholds ↦ ?_, hkept.unlocked, hkept.idle, hkept.reads, hkept.made,
      ?_, ?_⟩⟩
    · rcases hholds with hfile | hholds
      · cases hfile
      · exact hkept.held credential (Or.inr hholds)
    · rcases hkept.drawn with hdrawn | ⟨hempty, hnone⟩
      · exact Or.inl (List.mem_append_left _ hdrawn)
      · refine Or.inr ⟨hempty, fun credential hholds ↦ ?_⟩
        rcases hholds with hfile | hholds
        · cases hfile
        · exact hnone credential (Or.inr hholds)
    · intro vault credential htask
      obtain ⟨hwraps, hdrawn, hother⟩ := hkept.storing vault credential htask
      exact ⟨hwraps, List.mem_append_left _ hdrawn, hother⟩
  | stored tab vault credential htask =>
    obtain rfl : tab = 0 := htab
    have hempty : state.table.entries = [] := by
      simpa only [KeepsOneKey, CommitsOverEmpty, htask] using hkeeps
    refine ⟨vault.dek, ?_⟩
    show KeptUnder primitives history vault.dek { state with
      origin := _
      drawn := state.drawn ++ [] }
    rw [List.append_nil]
    exact hkept.stored htask hempty
  | opened tab assertion vault credential htask hunlock =>
    obtain rfl : tab = 0 := htab
    refine ⟨dek, ?_⟩
    show KeptUnder primitives history dek { state with
      origin := _
      drawn := state.drawn ++ [] }
    rw [List.append_nil]
    exact hkept.opened hcorrect hdistinct htask (opens_of_unlock hunlock)
  | cleared tab snapshot htask =>
    obtain rfl : tab = 0 := htab
    refine ⟨dek, ?_⟩
    show KeptUnder primitives history dek { state with
      origin := _
      drawn := state.drawn ++ [] }
    rw [List.append_nil]
    exact hkept.released rfl (by simp [Origin.setTab]) (by simp [Origin.setTab])

/-- A step that meets the condition keeps some key. -/
theorem keptUnder_step (hcorrect : primitives.CorrectAead)
    (hdistinct : DistinctCiphertexts history) {dek : ByteArrayN keyLen}
    {state next : VaultOrigin} {event : VaultEvent} (hkept : KeptUnder primitives history dek state)
    (hrecords : Records primitives history state event)
    (hkeeps : KeepsOneKey primitives state event)
    (hstep : step (primitives.after history) state event = some next) :
    ∃ key, KeptUnder primitives history key next := by
  cases event with
  | auth event => exact keptUnder_auth hcorrect hdistinct hkept hrecords hkeeps hstep
  | upsertNote draw input =>
    obtain ⟨vault, hvault, rfl⟩ := Option.map_eq_some_iff.mp hstep
    have hgives : GivesCanonicalId primitives (some vault) draw input := by
      simpa only [KeepsOneKey, hvault] using hkeeps
    have hmade : ∀ entry ∈ Repo.encryptions primitives vault draw input, entry ∈ history := by
      simpa only [Records, encryptedBy, hvault] using hrecords
    exact ⟨dek, hkept.upsertNote hcorrect hdistinct hvault hmade fun row key ↦
      canonical_of_givesCanonicalId hgives⟩
  | archiveNote id =>
    obtain ⟨vault, hvault, rfl⟩ := Option.map_eq_some_iff.mp hstep
    exact ⟨dek, hkept.archiveNote hvault id⟩
  | deleteNote id =>
    obtain ⟨vault, hvault, rfl⟩ := Option.map_eq_some_iff.mp hstep
    exact ⟨dek, hkept.deleteNote hvault id⟩

/-- A commit into a readable state finds an empty table: a row that is left was made under another
key than the one that is stored. -/
theorem commitsOverEmpty_of_keepsReadable (hdistinct : DistinctCiphertexts history)
    {dek : ByteArrayN keyLen} {state : VaultOrigin} (hkept : KeptUnder primitives history dek state)
    (hreadable : KeepsReadable (primitives.after history) state
      (.auth (.storeSettled 0 (.ok ())))) :
    CommitsOverEmpty (state.origin.tabs 0).task state.table := by
  unfold CommitsOverEmpty
  split
  · next vault credential htask =>
    by_contra hrows
    have hstep : step (primitives.after history) state (.auth (.storeSettled 0 (.ok ()))) =
        some { state with
        origin := { state.origin.setTab 0
            ⟨.unlocked vault credential, .idle, state.origin.forgets⟩ with
          file := some (.serialized credential) }
        drawn := state.drawn ++ [] } := by
      simp only [step]
      rw [if_pos ⟨rfl, by simp [AuthEvent.drawnDek]⟩,
        Origin.step_storeSettled (primitives.after history) htask]
      rfl
    have hnext := hreadable _ hstep vault
      (mem_vault?.mpr ⟨credential, by simp [Origin.setTab]⟩)
    obtain ⟨row, hrow⟩ := List.exists_mem_of_ne_nil _ hrows
    have hdek := Repo.dek_of_reads hdistinct (hkept.made row hrow) (hnext.1 row hrow)
    exact (hkept.storing vault credential htask).2.2 hrows hdek
  · trivial

/-- An upsert into a readable state sends a canonical id. -/
theorem canonical_of_keepsReadable (hcorrect : primitives.CorrectAead)
    (hdistinct : DistinctCiphertexts history) {state : VaultOrigin} {draw : UpsertDraw}
    {input : NoteInput}
    (hreadable : KeepsReadable (primitives.after history) state (.upsertNote draw input))
    {vault : CryptoVault} (hvault : vault ∈ state.vault?)
    (hmade : ∀ entry ∈ Repo.encryptions primitives vault draw input, entry ∈ history)
    {row : EncryptedNoteRow} (hrow : Repo.upsertRow primitives vault draw input = .ok row)
    {key : Bytes} (hkey : RowId.decode row.id = .ok key) : RowId.Canonical row.id := by
  have hstep : step (primitives.after history) state (.upsertNote draw input) = some { state with
      table := (Repo.upsertNote primitives vault state.table draw input).1 } := by
    rw [step, hvault, Option.map_some]
    rfl
  have hnext := (hreadable _ hstep vault hvault).1
  have hset : (Repo.upsertNote primitives vault state.table draw input).1 =
      state.table.set key (NoteRepositorySql.columns row) := Repo.upsertNote_of_decode hrow hkey
  have hentry : (key, NoteRepositorySql.columns row) ∈
      (Repo.upsertNote primitives vault state.table draw input).1.entries := by
    rw [hset, OrderedMap.mem_entries_iff, OrderedMap.get?_set_self]
  exact (Repo.reads_upsertRow_iff hcorrect hrow hdistinct hmade hkey).mp (hnext _ hentry)

/-- A step into a readable state meets the condition. -/
theorem keepsOneKey_of_keepsReadable (hcorrect : primitives.CorrectAead)
    (hdistinct : DistinctCiphertexts history) {dek : ByteArrayN keyLen} {state : VaultOrigin}
    {event : VaultEvent} (hkept : KeptUnder primitives history dek state)
    (hrecords : Records primitives history state event)
    (hreadable : KeepsReadable (primitives.after history) state event) :
    KeepsOneKey primitives state event := by
  unfold KeepsOneKey
  split
  · exact commitsOverEmpty_of_keepsReadable hdistinct hkept hreadable
  · next draw input =>
    unfold GivesCanonicalId
    split
    · next vault id hvault hid =>
      intro hdecodes hencrypts
      obtain ⟨key, hkey⟩ := isOk_iff.mp hdecodes
      obtain ⟨row, hrow⟩ := isOk_iff.mp hencrypts
      have hsent : Repo.upsertRow primitives vault draw input = .ok row :=
        bind_eq_ok_iff.mpr ⟨id, by rw [Repo.noteId, hid], hrow⟩
      have hmade : ∀ entry ∈ Repo.encryptions primitives vault draw input, entry ∈ history := by
        simpa only [Records, encryptedBy, hvault] using hrecords
      obtain rfl := Repo.id_of_encryptNote hrow
      exact canonical_of_keepsReadable hcorrect hdistinct hreadable hvault hmade hsent hkey
    · trivial
  · trivial

/-- A fresh origin is kept under some key. -/
theorem exists_keptUnder_fresh : ∃ dek, KeptUnder primitives history dek fresh :=
  ⟨Origin.filled keyLen 0, keptUnder_fresh _⟩

/-- A step into a readable state is one that meets the condition, and keeps some key. -/
theorem keepsReadable_iff_keepsOneKey (hcorrect : primitives.CorrectAead)
    (hdistinct : DistinctCiphertexts history) {state : VaultOrigin} {event : VaultEvent}
    (hkept : ∃ dek, KeptUnder primitives history dek state)
    (hrecords : Records primitives history state event) :
    KeepsReadable (primitives.after history) state event ↔ KeepsOneKey primitives state event := by
  obtain ⟨dek, hkept⟩ := hkept
  constructor
  · exact keepsOneKey_of_keepsReadable hcorrect hdistinct hkept hrecords
  · intro hkeeps next hstep
    obtain ⟨key, hnext⟩ := keptUnder_step hcorrect hdistinct hkept hrecords hkeeps hstep
    exact hnext.readsDatabase

variable {events : List VaultEvent}

/-- A run through readable states meets the condition. -/
theorem runMeets_keepsOneKey (hcorrect : primitives.CorrectAead)
    (hdistinct : DistinctCiphertexts history)
    (hrecords : (automaton (primitives.after history)).RunMeets (Records primitives history) fresh
      events)
    (hreadable : (automaton (primitives.after history)).RunMeets
      (KeepsReadable (primitives.after history)) fresh events) :
    (automaton (primitives.after history)).RunMeets (KeepsOneKey primitives) fresh events := by
  refine (hrecords.and hreadable).of_invariant
    (fun state ↦ ∃ dek, KeptUnder primitives history dek state) ?_ ?_ exists_keptUnder_fresh
  · rintro state event next hkept ⟨hmade, hkeeps⟩ hstep
    have hcondition :=
      (keepsReadable_iff_keepsOneKey hcorrect hdistinct hkept hmade).mp hkeeps
    obtain ⟨dek, hkept⟩ := hkept
    exact keptUnder_step hcorrect hdistinct hkept hmade hcondition hstep
  · rintro state event hkept ⟨hmade, hkeeps⟩
    exact (keepsReadable_iff_keepsOneKey hcorrect hdistinct hkept hmade).mp hkeeps

/-- A run that meets the condition leads through readable states. -/
theorem runMeets_keepsReadable (hcorrect : primitives.CorrectAead)
    (hdistinct : DistinctCiphertexts history)
    (hrecords : (automaton (primitives.after history)).RunMeets (Records primitives history) fresh
      events)
    (hcondition : (automaton (primitives.after history)).RunMeets (KeepsOneKey primitives) fresh
      events) :
    (automaton (primitives.after history)).RunMeets (KeepsReadable (primitives.after history))
      fresh events := by
  refine (hrecords.and hcondition).of_invariant
    (fun state ↦ ∃ dek, KeptUnder primitives history dek state) ?_ ?_ exists_keptUnder_fresh
  · rintro state event next ⟨dek, hkept⟩ ⟨hmade, hkeeps⟩ hstep
    exact keptUnder_step hcorrect hdistinct hkept hmade hkeeps hstep
  · rintro state event hkept ⟨hmade, hkeeps⟩
    exact (keepsReadable_iff_keepsOneKey hcorrect hdistinct hkept hmade).mpr hkeeps

/-- After any history that has the encryptions of the run: in a run from a fresh origin the unlocked
tab can always read its database, if and only if every enrollment commits over an empty table and
every id given to an upsert is canonical. -/
theorem database_readable_iff (hcorrect : primitives.CorrectAead)
    (hdistinct : DistinctCiphertexts history) (events : List VaultEvent)
    (hrecords : (automaton (primitives.after history)).RunMeets (Records primitives history) fresh
      events) :
    (automaton (primitives.after history)).RunMeets (KeepsReadable (primitives.after history))
        fresh events ↔
      (automaton (primitives.after history)).RunMeets (KeepsOneKey primitives) fresh events :=
  ⟨runMeets_keepsOneKey hcorrect hdistinct hrecords,
    runMeets_keepsReadable hcorrect hdistinct hrecords⟩

/-! ### Two runs -/

/-- The id of the key `99..`. -/
def noteRowId : String := "K6CSK6CSK6CSK6CSK6CSK6CSK4"

/-- The fields of a note under the key `33..`, and the two wraps of the data encryption keys. -/
def noteEntries : List AeadEntry :=
  [⟨Origin.filled 32 0x33, Origin.filled 12 0xa1, aadFor noteRowId "title", utf8 "Hi",
      bytesOf 18 0x3dcb3c5b29e058f223114e5082ab961c936e⟩,
    ⟨Origin.filled 32 0x33, Origin.filled 12 0xa2, aadFor noteRowId "body", utf8 "Yo",
      bytesOf 18 0x026d5877d20f80ccb4ea954a7cd68d466aee⟩] ++ Origin.wraps

/-- The primitives at the values of two enrollments and a note. -/
def oneNote : Primitives :=
  { Origin.twoEnrollments with
    aeadEncrypt := tableEncrypt noteEntries
    aeadDecrypt := tableDecrypt noteEntries }

/-- The table is correct. -/
theorem correctAead_oneNote : oneNote.CorrectAead :=
  @correctAead_of_table oneNote noteEntries rfl rfl (by decide +kernel)

/-- Its ciphertexts are distinct. -/
theorem distinct_noteEntries : DistinctCiphertexts noteEntries := by decide +kernel

/-- The tab loads on an origin without a vault, and the first vault is enrolled. -/
def firstEnrollment : List VaultEvent :=
  [.auth (.mount 0 true), .auth (.readSettled 0 .succeeded), .auth (.enroll 0),
    .auth (.enrollSettled 0 (Origin.enrollmentOf 1 0x22 0x11 0x33 0x44)),
    .auth (.vaultFileCreated 0), .auth (.storeSettled 0 (.ok ()))]

/-- A note is saved under the id `given`, or under a fresh one. -/
def saveNote (given : Option String) : VaultEvent :=
  .upsertNote ⟨Origin.filled 16 0x99, Origin.filled 12 0xa1, Origin.filled 12 0xa2, 1700000000000⟩
    ⟨given, jsString "Hi", jsString "Yo"⟩

/-- The tab locks, forgets the vault, and enrolls a second one. -/
def forgetAndEnroll : List VaultEvent :=
  [.auth (.lock 0), .auth (.forget 0), .auth (.clearSettled 0 (.ok ())), .auth (.enroll 0),
    .auth (.enrollSettled 0 (Origin.enrollmentOf 2 0x66 0x55 0x77 0x88)),
    .auth (.vaultFileCreated 0), .auth (.storeSettled 0 (.ok ()))]

/-- The listing of the first page in a state, when the tab is unlocked. -/
def firstPage (primitives : Primitives) (state : VaultOrigin) : Option (Except String ListPage) :=
  state.vault?.map fun vault ↦ Repo.listNotes primitives vault state.table ⟨none, none, none⟩

/-- A vault, a note that is saved twice, a second unlock, and the deletion of the note before the
vault is forgotten. -/
def deleteBeforeForget : List VaultEvent :=
  firstEnrollment ++ [saveNote none, .auth (.lock 0), .auth (.unlock 0),
    .auth (.unlockSettled 0 ⟨.ok (), .credential (some (Origin.filled 32 0x11).val)⟩),
    saveNote (some noteRowId), .archiveNote noteRowId, .deleteNote noteRowId] ++ forgetAndEnroll

/-- In this run the note is listed while it is there, and every page can be listed throughout. -/
theorem database_readable_iff_deleteBeforeForget :
    (((automaton (oneNote.after noteEntries)).run fresh (deleteBeforeForget.take 11)).bind
        (firstPage (oneNote.after noteEntries)) =
      some (.ok ⟨[⟨noteRowId, jsString "Hi", jsString "Yo", 19675, false⟩], none⟩)) ∧
    ((automaton (oneNote.after noteEntries)).run fresh deleteBeforeForget).isSome ∧
    (automaton (oneNote.after noteEntries)).RunMeets (KeepsReadable (oneNote.after noteEntries))
      fresh deleteBeforeForget :=
  ⟨by decide +kernel, by decide +kernel,
    (database_readable_iff correctAead_oneNote distinct_noteEntries deleteBeforeForget
      (by decide +kernel)).mpr (by decide +kernel)⟩

/-- A vault, a note, and a second vault. -/
def forgetWithNote : List VaultEvent :=
  firstEnrollment ++ [saveNote none] ++ forgetAndEnroll

/-- This run ends in an unlocked tab whose listing throws the error of the decryption. -/
theorem not_keepsReadable_forgetWithNote :
    ((automaton (oneNote.after noteEntries)).run fresh forgetWithNote).bind
        (firstPage (oneNote.after noteEntries)) =
      some (.error
        "AEAD operation failed: decryption failed (tag mismatch or truncated ciphertext)") ∧
    ¬ (automaton (oneNote.after noteEntries)).RunMeets
      (KeepsReadable (oneNote.after noteEntries)) fresh forgetWithNote := by
  refine ⟨by decide +kernel, fun hreadable ↦ ?_⟩
  have hcondition := runMeets_keepsOneKey correctAead_oneNote distinct_noteEntries
    (by decide +kernel) hreadable
  exact absurd hcondition (by decide +kernel)

end OpfsWebauthn.Auth.VaultOrigin
