import OpfsWebauthn.Storage.Migrations

/-!
# Unknown schema versions

The stored version passes through a text column, a double and a word of 32 bits before it is
compared with the versions of the build. `refusesUnknown_iff` says exactly which numbers are refused
as they should be: the comparison is right unless the double nearest to an unknown version is
congruent to a known one modulo `2 ^ 32`.
-/

set_option autoImplicit false
set_option relaxedAutoImplicit false

namespace OpfsWebauthn.Storage.Migrations

open Foundation

/-- `SCHEMA_SQL`. -/
def schemaSql : String := "
CREATE TABLE IF NOT EXISTS schema_meta (
  key TEXT PRIMARY KEY NOT NULL,
  value TEXT NOT NULL
) WITHOUT ROWID;

CREATE TABLE IF NOT EXISTS notes (
  id BLOB PRIMARY KEY NOT NULL,
  updated_day INTEGER NOT NULL,
  archived INTEGER NOT NULL DEFAULT 0,
  title_nonce BLOB NOT NULL,
  title_ciphertext BLOB NOT NULL,
  body_nonce BLOB NOT NULL,
  body_ciphertext BLOB NOT NULL
) WITHOUT ROWID;

CREATE INDEX IF NOT EXISTS idx_notes_recent
  ON notes(updated_day DESC, id DESC)
  WHERE archived = 0;
"

/-- `MIGRATIONS` and `SCHEMA_VERSION` of this build. -/
def thisBuild : Build :=
  ⟨[⟨0, 1, schemaSql⟩], 1⟩

/-- The natural number that a stored version denotes: a number or a `bigint` itself, a decimal text
by its digits. A number is a double. -/
def Denotes : SqlValue → ℕ → Prop
  | .number number, value => number = .finite value ∧ Number.ofNat value = .finite value
  | .bigint number, value => number = value
  | .text text, value => isDecimal text = true ∧ decimal text = value
  | _, _ => False

/-- The statements that modify the database. -/
def Statement.Modifies : Statement → Prop
  | .script _ => True
  | .stamp _ => True
  | _ => False

section Versions

variable {σ : Type} {engine : Engine σ}

/-- A call of `applyMigrations` on a database at a version returns only if the build knows the
version, and with an unknown version it throws and executes nothing that modifies the database. -/
def RefusesUnknown (engine : Engine σ) (db : Database σ) (version : ℕ) : Prop :=
  let outcome := applyMigrations thisBuild engine none (.start db)
  (outcome.1 = .ok () → version ≤ thisBuild.schemaVersion.toNat) ∧
  (thisBuild.schemaVersion.toNat < version →
    (∃ cause, outcome.1 = .error cause) ∧ ∀ statement ∈ outcome.2.log, ¬ statement.Modifies)

/-- The stored version is read as the nearest double. -/
theorem readInstalledVersion_of_denotes {db : Database σ} {value : SqlValue} {version : ℕ}
    (hrow : db.schemaMeta = some (some value)) (hdenotes : Denotes value version) :
    readInstalledVersion db = .ok (.ofNat version) := by
  unfold readInstalledVersion
  rw [hrow]
  cases value with
  | number number =>
    obtain ⟨rfl, hdouble⟩ := hdenotes
    dsimp only
    rw [if_pos ⟨isInteger_natCast version, isNonNegative_natCast version⟩, hdouble]
  | bigint number =>
    obtain rfl : number = version := hdenotes
    dsimp only
    rw [if_pos (Int.natCast_nonneg version), Int.toNat_natCast]
  | text text =>
    obtain ⟨hdecimal, rfl⟩ := hdenotes
    dsimp only
    rw [if_pos hdecimal]
  | null => exact hdenotes.elim
  | blob bytes => exact hdenotes.elim

/-! ### What is pending -/

/-- The word that arrives behind the boundary decides what is pending. -/
theorem pendingMigrations_thisBuild (version : ℕ) :
    ((Number.ofNat version).toUint32 = 0 ∧
      pendingMigrations thisBuild (.ofNat version) = .ok thisBuild.migrations) ∨
    ((Number.ofNat version).toUint32 = 1 ∧
      pendingMigrations thisBuild (.ofNat version) = .ok []) ∨
    (1 < (Number.ofNat version).toUint32 ∧
      ∃ cause, pendingMigrations thisBuild (.ofNat version) = .error cause) := by
  have hword := toUint32_lt (Number.ofNat version)
  unfold pendingMigrations
  generalize (Number.ofNat version).toUint32 = word at hword ⊢
  have hvalue : (UInt32.ofNat word).toNat = word := UInt32.toNat_ofNat_of_lt' hword
  by_cases hzero : word = 0
  · subst hzero
    exact .inl ⟨rfl, rfl⟩
  by_cases hone : word = 1
  · subst hone
    exact .inr (.inl ⟨rfl, rfl⟩)
  refine .inr (.inr ⟨by omega, ?_⟩)
  have hlatest : UInt32.ofNat word ≠ thisBuild.schemaVersion := by
    intro hsame
    rw [hsame] at hvalue
    exact hone hvalue.symm
  have hfirst : (0 : UInt32) ≠ UInt32.ofNat word := by
    intro hsame
    rw [← hsame] at hvalue
    exact hzero hvalue.symm
  have hindex : thisBuild.migrations.findIdx?
      (fun migration ↦ migration.fromVersion = UInt32.ofNat word) = none := by
    rw [List.findIdx?_eq_none_iff]
    intro migration hmigration
    obtain rfl := List.mem_singleton.mp hmigration
    exact decide_eq_false hfirst
  unfold Build.pending
  rw [if_neg hlatest, hindex]
  exact ⟨_, rfl⟩

/-! ### What is executed -/

variable {fault : Option (Fault σ)}

/-- A call of `exec` is recorded. -/
theorem exec_log (statement : Statement) (run : Run σ) :
    (exec engine fault statement run).2.log = run.log ++ [statement] := by
  have hexec := exec_spec engine fault statement run
  generalize exec engine fault statement run = outcome at hexec
  cases hexec with
  | broken _ _ _ => rfl
  | failed _ => rfl
  | done _ _ => rfl

/-- What is recorded stays recorded. -/
theorem mem_log_execAll {statements : List Statement} {earlier : Statement} :
    ∀ {run : Run σ}, earlier ∈ run.log →
      earlier ∈ (execAll engine fault statements run).2.log := by
  induction statements with
  | nil => exact fun hearlier ↦ hearlier
  | cons statement rest ih =>
    intro run hearlier
    have hlog := @exec_log _ engine fault statement run
    unfold execAll
    generalize exec engine fault statement run = outcome at hlog
    obtain ⟨result, next⟩ := outcome
    have hnext : earlier ∈ next.log := by
      rw [hlog]
      exact List.mem_append_left _ hearlier
    cases result with
    | ok done => exact ih hnext
    | error cause => exact hnext

/-- The script of a migration is executed once its transaction began. -/
theorem script_mem_execAll (migration : Migration) (run : Run σ) :
    .script migration.upSql ∈ (execAll engine fault migration.statements run).2.log := by
  have hlog := @exec_log _ engine fault (.script migration.upSql) run
  unfold Migration.statements execAll
  generalize exec engine fault (.script migration.upSql) run = outcome at hlog
  obtain ⟨result, next⟩ := outcome
  have hnext : .script migration.upSql ∈ next.log := by
    rw [hlog]
    exact List.mem_append_right _ List.mem_cons_self
  cases result with
  | ok done => exact mem_log_execAll hnext
  | error cause => exact hnext

variable (engine) in
/-- Without a failure from outside the script of the first pending migration is executed. -/
theorem script_mem_applyMigration (migration : Migration) (db : Database σ) :
    .script migration.upSql ∈ (applyMigration engine none migration (.start db)).2.log := by
  have hbegin : exec engine none .begin (.start db) = (.ok (), ⟨⟨db, some db⟩, [.begin]⟩) := rfl
  have hscript := @script_mem_execAll _ engine none migration ⟨⟨db, some db⟩, [.begin]⟩
  unfold applyMigration
  rw [hbegin]
  dsimp only
  generalize execAll engine none migration.statements ⟨⟨db, some db⟩, [.begin]⟩ = outcome at hscript
  obtain ⟨result, next⟩ := outcome
  cases result with
  | ok done => exact hscript
  | error cause =>
    dsimp only at hscript ⊢
    rw [exec_log]
    exact List.mem_append_left _ hscript

/-- A database whose version is read as zero is bootstrapped. -/
theorem script_mem_of_zero {db : Database σ} {version : ℕ}
    (hread : readInstalledVersion db = .ok (.ofNat version))
    (hzero : (Number.ofNat version).toUint32 = 0) :
    .script schemaSql ∈ (applyMigrations thisBuild engine none (.start db)).2.log := by
  have hpending : pendingMigrations thisBuild (.ofNat version) = .ok thisBuild.migrations := by
    rcases pendingMigrations_thisBuild version with ⟨-, hpending⟩ | ⟨hone, -⟩ | ⟨hlarge, -⟩
    · exact hpending
    · omega
    · omega
  have hscript := script_mem_applyMigration engine ⟨0, 1, schemaSql⟩ db
  rw [applyMigrations_of_pending (bind_eq_ok_iff.mpr ⟨_, hread, hpending⟩)]
  unfold thisBuild applyAll
  generalize applyMigration engine none ⟨0, 1, schemaSql⟩ (.start db) = outcome at hscript
  obtain ⟨result, next⟩ := outcome
  cases result with
  | ok done => exact hscript
  | error cause => exact hscript

/-! ### Refused and not refused -/

/-- A number that is read as a known version is not refused. -/
theorem not_refusesUnknown {db : Database σ} {version : ℕ}
    (hread : readInstalledVersion db = .ok (.ofNat version)) (hunknown : 1 < version)
    (hknown : (Number.ofNat version).toUint32 ≤ 1) : ¬ RefusesUnknown engine db version := by
  intro hrefuses
  obtain ⟨hreturns, hthrows⟩ := hrefuses
  rcases pendingMigrations_thisBuild version with ⟨hzero, -⟩ | ⟨-, hpending⟩ | ⟨hlarge, -⟩
  · -- The bootstrap is pending, and its script is executed.
    obtain ⟨-, hexecuted⟩ := hthrows hunknown
    exact hexecuted _ (script_mem_of_zero hread hzero) trivial
  · -- Nothing is pending, and the call returns.
    have hreturned : (applyMigrations thisBuild engine none (.start db)).1 = .ok () := by
      rw [applyMigrations_of_pending (bind_eq_ok_iff.mpr ⟨_, hread, hpending⟩)]
      rfl
    exact absurd (hreturns hreturned) (Nat.not_le.mpr hunknown)
  · omega

/-- A number that is read as an unknown version is refused. -/
theorem refusesUnknown_of_lt {db : Database σ} {version : ℕ}
    (hread : readInstalledVersion db = .ok (.ofNat version))
    (hword : 1 < (Number.ofNat version).toUint32) : RefusesUnknown engine db version := by
  obtain ⟨cause, hcause⟩ : ∃ cause,
      pendingMigrations thisBuild (.ofNat version) = .error cause := by
    rcases pendingMigrations_thisBuild version with ⟨hzero, -⟩ | ⟨hone, -⟩ | ⟨-, hcause⟩
    · omega
    · omega
    · exact hcause
  have hrun : applyMigrations thisBuild engine none (.start db) = (.error cause, .start db) := by
    unfold applyMigrations Run.start
    dsimp only
    rw [hread, ok_bind, hcause]
  unfold RefusesUnknown
  rw [hrun]
  constructor
  · intro hreturned
    cases hreturned
  · intro _
    refine ⟨⟨cause, rfl⟩, fun statement hstatement ↦ ?_⟩
    cases hstatement

/-- Unknown versions are refused exactly when the double nearest to the stored number, taken modulo
`2 ^ 32`, is no version of the build: below `2 ^ 32` they always are, and from `2 ^ 85` on never. -/
theorem refusesUnknown_iff {db : Database σ} {value : SqlValue} {version : ℕ}
    (hrow : db.schemaMeta = some (some value)) (hdenotes : Denotes value version) :
    (RefusesUnknown engine db version ↔
      version ≤ thisBuild.schemaVersion.toNat ∨
        thisBuild.schemaVersion.toNat < (Number.ofNat version).toUint32) ∧
    (version < 2 ^ 32 → RefusesUnknown engine db version) ∧
    (2 ^ 85 ≤ version → ¬ RefusesUnknown engine db version) := by
  have hread := readInstalledVersion_of_denotes hrow hdenotes
  have hlatest : thisBuild.schemaVersion.toNat = 1 := rfl
  rw [hlatest]
  have hiff : RefusesUnknown engine db version ↔
      version ≤ 1 ∨ 1 < (Number.ofNat version).toUint32 := by
    constructor
    · intro hrefuses
      by_contra hfails
      rw [not_or] at hfails
      exact not_refusesUnknown hread (by omega) (by omega) hrefuses
    · rintro (hknown | hword)
      · exact ⟨fun _ ↦ hknown, fun hunknown ↦ absurd hunknown (Nat.not_lt.mpr hknown)⟩
      · exact refusesUnknown_of_lt hread hword
  refine ⟨hiff, fun hsmall ↦ hiff.mpr ?_, fun hlarge hrefuses ↦ ?_⟩
  · have hword : (Number.ofNat version).toUint32 = version := by
      rw [toUint32_ofNat_small (by omega), Nat.mod_eq_of_lt hsmall]
    omega
  · have hword := toUint32_ofNat_large hlarge
    have hcases := hiff.mp hrefuses
    have hpow : 1 < 2 ^ 85 := Nat.one_lt_two_pow (by decide)
    omega

/-! ### One more than the largest word -/

/-- A database of a version one more than the largest word. -/
def wrapped : Database (List String) :=
  ⟨some (some (.text "4294967296")), []⟩

/-- The version after the last one is refused. -/
theorem refusesUnknown_iff_nextVersion :
    RefusesUnknown recording ⟨some (some (.text "2")), []⟩ 2 :=
  (@refusesUnknown_iff _ recording ⟨some (some (.text "2")), []⟩ (.text "2") 2 rfl
    ⟨by decide, by decide⟩).1.mpr (.inr (by decide +kernel))

/-- A version one more than the largest word is taken for a database without a schema: the call
returns, and the bootstrap script was executed. -/
theorem migrated_wrapped :
    Denotes (.text "4294967296") (2 ^ 32) ∧ thisBuild.schemaVersion.toNat < 2 ^ 32 ∧
    (applyMigrations thisBuild recording none (.start wrapped)).1 = .ok () ∧
    .script schemaSql ∈ (applyMigrations thisBuild recording none (.start wrapped)).2.log ∧
    ¬ RefusesUnknown recording wrapped (2 ^ 32) := by
  have hdenotes : Denotes (.text "4294967296") (2 ^ 32) := ⟨by decide +kernel, by decide +kernel⟩
  have hreturned : (applyMigrations thisBuild recording none (.start wrapped)).1 = .ok () := by
    decide +kernel
  have hscript := @script_mem_of_zero _ recording wrapped _
    (readInstalledVersion_of_denotes rfl hdenotes) (by decide +kernel)
  refine ⟨hdenotes, by decide, hreturned, hscript, ?_⟩
  intro hrefuses
  have hknown : 2 ^ 32 ≤ thisBuild.schemaVersion.toNat := hrefuses.1 hreturned
  exact absurd hknown (by decide)

end Versions

end OpfsWebauthn.Storage.Migrations
