import OpfsWebauthn.Foundation.Numbers
import OpfsWebauthn.Foundation.Outcome
import OpfsWebauthn.Storage.Rpc

/-!
# The migration runner

`migrations.rs` and `migrations.ts`. A build has a list of migrations and the version that its
schema has after the last one. `applyMigrations` reads the installed version, asks for the
migrations that are pending, and runs each in a transaction of its own that ends by stamping the
version.

A database is the `version` row of `schema_meta`, if there is such a table, and the rest of its
contents. What a script does is left to SQLite: it succeeds with a database, or it fails with a
message and whatever it has changed by then. `Connection` adds the open transaction, which keeps the
contents it began with. A `Fault` makes one call of `exec` fail, with an arbitrary effect inside the
transaction.
-/

set_option autoImplicit false
set_option relaxedAutoImplicit false

namespace OpfsWebauthn.Storage.Migrations

open Foundation

/-! ### The list -/

/-- `Migration`. -/
structure Migration where
  fromVersion : UInt32
  toVersion : UInt32
  upSql : String
deriving DecidableEq, Repr

/-- `MIGRATIONS` and `SCHEMA_VERSION` of a build. -/
structure Build where
  migrations : List Migration
  schemaVersion : UInt32
deriving DecidableEq, Repr

/-- `Error::UnknownSchemaVersion`. -/
structure UnknownSchemaVersion where
  current : UInt32
  latest : UInt32
deriving DecidableEq, Repr

/-- The text of the error. -/
def UnknownSchemaVersion.text (error : UnknownSchemaVersion) : String :=
  "unknown schema version " ++ toString error.current ++ " (this binary knows up to " ++
    toString error.latest ++ "); refusing to migrate"

/-- `pending(current_version)`. -/
def Build.pending (build : Build) (current : UInt32) :
    Except UnknownSchemaVersion (List Migration) :=
  if current = build.schemaVersion then .ok []
  else
    match build.migrations.findIdx? (fun migration ↦ migration.fromVersion = current) with
    | none => .error ⟨current, build.schemaVersion⟩
    | some index => .ok (build.migrations.drop index)

/-! ### The database -/

/-- A column as SQLite hands it back. -/
inductive SqlValue
  | null
  | number (value : Number)
  | bigint (value : ℤ)
  | text (value : String)
  | blob (value : Bytes)
deriving DecidableEq, Repr

/-- A database: the `value` of the row `version` of `schema_meta`, and everything else. -/
structure Database (σ : Type) where
  schemaMeta : Option (Option SqlValue)
  rest : σ

/-- A database and the transaction that is open on it, with the contents at its `BEGIN`. -/
structure Connection (σ : Type) where
  db : Database σ
  saved : Option (Database σ)

/-- The statements of the runner. -/
inductive Statement
  | begin
  /-- The SQL of a migration. -/
  | script (sql : String)
  /-- `STAMP_SQL` with its parameter. -/
  | stamp (version : String)
  | commit
  | rollback
deriving DecidableEq, Repr

/-- What `applyMigrations` throws. -/
inductive Thrown
  /-- `corrupt schema_meta.version`. -/
  | corruptVersion (value : SqlValue)
  /-- The error of `pendingMigrations`. -/
  | unknownVersion (message : String)
  /-- The error of a statement. -/
  | sql (message : String)
deriving DecidableEq, Repr

/-- What SQLite does with a script: the contents after it, or an error and the contents by then. -/
abbrev Engine (σ : Type) :=
  String → Database σ → Except (String × Database σ) (Database σ)

/-- A call of `exec` that fails: which one, its error, and what it leaves in the transaction. -/
structure Fault (σ : Type) where
  call : ℕ
  message : String
  residue : Database σ → Database σ

/-- A connection and the statements that were executed on it. -/
structure Run (σ : Type) where
  connection : Connection σ
  log : List Statement

/-- A connection with no open transaction. -/
def Run.start {σ : Type} (db : Database σ) : Run σ :=
  ⟨⟨db, none⟩, []⟩

section Runner

variable {σ : Type} (build : Build) (engine : Engine σ) (fault : Option (Fault σ))

/-- Whether a text matches `/^\d+$/`. -/
def isDecimal (text : String) : Bool :=
  text.toList ≠ [] ∧ text.toList.all Char.isDigit

/-- The number that a decimal text denotes. -/
def decimal (text : String) : ℕ :=
  Nat.ofDigitChars 10 text.toList 0

/-- `readInstalledVersion(db)`. -/
def readInstalledVersion (db : Database σ) : Except Thrown Number :=
  match db.schemaMeta with
  | none => .ok (.ofNat 0)
  | some none => .ok (.ofNat 0)
  | some (some (.number value)) =>
    if value.isInteger ∧ value.isNonNegative then .ok value
    else .error (.corruptVersion (.number value))
  | some (some (.bigint value)) =>
    if 0 ≤ value then .ok (.ofNat value.toNat) else .error (.corruptVersion (.bigint value))
  | some (some (.text value)) =>
    if isDecimal value then .ok (.ofNat (decimal value)) else .error (.corruptVersion (.text value))
  | some (some value) => .error (.corruptVersion value)

/-- `pendingMigrations(currentVersion)`: the argument is a word of 32 bits behind the boundary. -/
def pendingMigrations (currentVersion : Number) : Except Thrown (List Migration) :=
  (build.pending (UInt32.ofNat currentVersion.toUint32)).mapError fun error ↦
    .unknownVersion error.text

/-- The database with its version stamped. -/
def Database.stamped (db : Database σ) (version : String) : Database σ :=
  { db with schemaMeta := some (some (.text version)) }

/-- One statement. -/
def Connection.perform (connection : Connection σ) :
    Statement → Except (String × Connection σ) (Connection σ)
  | .begin =>
    match connection.saved with
    | none => .ok { connection with saved := some connection.db }
    | some _ => .error ("cannot start a transaction within a transaction", connection)
  | .script sql =>
    match engine sql connection.db with
    | .ok db => .ok { connection with db := db }
    | .error (message, db) => .error (message, { connection with db := db })
  | .stamp version =>
    match connection.db.schemaMeta with
    | none => .error ("no such table: schema_meta", connection)
    | some _ => .ok { connection with db := connection.db.stamped version }
  | .commit =>
    match connection.saved with
    | some _ => .ok { connection with saved := none }
    | none => .error ("cannot commit - no transaction is active", connection)
  | .rollback =>
    match connection.saved with
    | some db => .ok ⟨db, none⟩
    | none => .error ("cannot rollback - no transaction is active", connection)

/-- A statement that fails by a fault: the contents of an open transaction are what the fault leaves
of them. -/
def Connection.broken (connection : Connection σ) (fault : Fault σ) : Connection σ :=
  match connection.saved with
  | none => connection
  | some _ => { connection with db := fault.residue connection.db }

/-- Whether the next call of `exec` fails by the fault. A `ROLLBACK` does not. -/
def Fault.hits (fault : Fault σ) (run : Run σ) (statement : Statement) : Bool :=
  fault.call = run.log.length ∧ statement ≠ .rollback

/-- `db.exec(sql)`. -/
def exec (statement : Statement) (run : Run σ) : Except Thrown Unit × Run σ :=
  let log := run.log ++ [statement]
  match fault.filter (·.hits run statement) with
  | some hit => (.error (.sql hit.message), ⟨run.connection.broken hit, log⟩)
  | none =>
    match run.connection.perform engine statement with
    | .ok connection => (.ok (), ⟨connection, log⟩)
    | .error (message, connection) => (.error (.sql message), ⟨connection, log⟩)

/-- Statements in their order, up to the first that throws. -/
def execAll : List Statement → Run σ → Except Thrown Unit × Run σ
  | [], run => (.ok (), run)
  | statement :: rest, run =>
    match exec engine fault statement run with
    | (.ok _, next) => execAll rest next
    | (.error cause, next) => (.error cause, next)

/-- The statements inside the `try` for one migration. -/
def Migration.statements (migration : Migration) : List Statement :=
  [.script migration.upSql, .stamp (toString migration.toVersion.toNat), .commit]

/-- One pass of the loop of `applyMigrations`. -/
def applyMigration (migration : Migration) (run : Run σ) : Except Thrown Unit × Run σ :=
  match exec engine fault .begin run with
  | (.error cause, next) => (.error cause, next)
  | (.ok _, opened) =>
    match execAll engine fault migration.statements opened with
    | (.ok _, next) => (.ok (), next)
    | (.error cause, failed) => (.error cause, (exec engine fault .rollback failed).2)

/-- The loop of `applyMigrations`. -/
def applyAll : List Migration → Run σ → Except Thrown Unit × Run σ
  | [], run => (.ok (), run)
  | migration :: rest, run =>
    match applyMigration engine fault migration run with
    | (.ok _, next) => applyAll rest next
    | (.error cause, next) => (.error cause, next)

/-- `applyMigrations(db)`. -/
def applyMigrations (run : Run σ) : Except Thrown Unit × Run σ :=
  match readInstalledVersion run.connection.db >>= pendingMigrations build with
  | .ok pending => applyAll engine fault pending run
  | .error cause => (.error cause, run)

/-! ### What a run should do -/

/-- One migration without failures from outside: its script, then its version. -/
def migrate (migration : Migration) (db : Database σ) : Except Thrown (Database σ) :=
  match engine migration.upSql db with
  | .error (message, _) => .error (.sql message)
  | .ok next =>
    match next.schemaMeta with
    | none => .error (.sql "no such table: schema_meta")
    | some _ => .ok (next.stamped (toString migration.toVersion.toNat))

/-- Migrations in their order, up to the first that fails: the outcome, and the database after the
last that did not fail. -/
def settle : List Migration → Database σ → Except Thrown Unit × Database σ
  | [], db => (.ok (), db)
  | migration :: rest, db =>
    match migrate engine migration db with
    | .ok next => settle rest next
    | .error cause => (.error cause, db)

/-- The version at which the first of some migrations applies; with none left, the last version of
the build. -/
def Build.versionBefore : List Migration → UInt32
  | [] => build.schemaVersion
  | migration :: _ => migration.fromVersion

/-- Each migration ends at the version at which the next one applies. -/
def Build.Contiguous : List Migration → Prop
  | [] => True
  | migration :: rest =>
    migration.toVersion = build.versionBefore rest ∧ Build.Contiguous rest

/-- No version occurs twice. -/
def Build.Distinct : Prop :=
  (build.migrations.map Migration.fromVersion ++ [build.schemaVersion]).Nodup

/-- The version of a database with an installed version after some migrations: the one that the last
of them ends at. -/
def versionAfter (installed : Number) (migrations : List Migration) : Number :=
  migrations.foldl (fun _ migration ↦ .ofNat migration.toVersion.toNat) installed

/-! ### Statements -/

/-- The ways a call of `exec` ends. -/
inductive Exec (statement : Statement) (run : Run σ) : Except Thrown Unit × Run σ → Prop
  /-- The fault hits. -/
  | broken {hit : Fault σ} (hfault : fault = some hit) (hcall : hit.call = run.log.length)
      (hstatement : statement ≠ .rollback) : Exec statement run
        (.error (.sql hit.message), ⟨run.connection.broken hit, run.log ++ [statement]⟩)
  /-- SQLite refuses the statement. -/
  | failed {message : String} {connection : Connection σ}
      (hperform : run.connection.perform engine statement = .error (message, connection)) :
      Exec statement run (.error (.sql message), ⟨connection, run.log ++ [statement]⟩)
  /-- The statement is executed. -/
  | done {connection : Connection σ}
      (hmisses : ∀ hit, fault = some hit → hit.call = run.log.length → statement = .rollback)
      (hperform : run.connection.perform engine statement = .ok connection) :
      Exec statement run (.ok (), ⟨connection, run.log ++ [statement]⟩)

/-- Every call of `exec` ends in one of these ways. -/
theorem exec_spec (statement : Statement) (run : Run σ) :
    Exec engine fault statement run (exec engine fault statement run) := by
  unfold exec
  dsimp only
  split
  · next hit hhit =>
    obtain ⟨hfault, hhits⟩ := Option.filter_eq_some_iff.mp hhit
    obtain ⟨hcall, hstatement⟩ := of_decide_eq_true hhits
    exact .broken hfault hcall hstatement
  · next hmisses =>
    split
    · next connection hperform =>
      refine .done (fun hit hfault hcall ↦ ?_) hperform
      have hhits := Option.filter_eq_none_iff.mp hmisses hit hfault
      by_contra hstatement
      exact hhits (decide_eq_true ⟨hcall, hstatement⟩)
    · next message connection hperform => exact .failed hperform

/-- Some calls of `exec` that the fault does not hit. -/
def Misses (first count : ℕ) : Prop :=
  ∀ hit, fault = some hit → hit.call < first ∨ first + count ≤ hit.call

variable {engine} {fault}

/-- How the statements of one migration end in a transaction that began with `saved`. -/
inductive Body (engine : Engine σ) (fault : Option (Fault σ)) (migration : Migration)
    (saved : Database σ) (run : Run σ) : Except Thrown Unit × Run σ → Prop
  /-- They are executed, and the transaction is committed. -/
  | committed {db : Database σ} {log : List Statement}
      (hmisses : Misses fault run.log.length 3) (hlog : log.length = run.log.length + 3)
      (hmigrate : migrate engine migration run.connection.db = .ok db) :
      Body engine fault migration saved run (.ok (), ⟨⟨db, none⟩, log⟩)
  /-- One of them throws, and the transaction is open. -/
  | thrown {cause : Thrown} {db : Database σ} {log : List Statement}
      (hcause : fault = none → migrate engine migration run.connection.db = .error cause) :
      Body engine fault migration saved run (.error cause, ⟨⟨db, some saved⟩, log⟩)

/-- A script that is executed changes the contents. -/
theorem perform_script_eq_ok {connection next : Connection σ} {sql : String}
    (hperform : connection.perform engine (.script sql) = .ok next) :
    ∃ db, engine sql connection.db = .ok db ∧ next = { connection with db := db } := by
  cases hengine : engine sql connection.db with
  | error failure => simp [Connection.perform, hengine] at hperform
  | ok db =>
    simp only [Connection.perform, hengine] at hperform
    exact ⟨db, rfl, (Except.ok.inj hperform).symm⟩

/-- A script that is refused leaves the transaction open. -/
theorem perform_script_eq_error {connection next : Connection σ} {sql message : String}
    (hperform : connection.perform engine (.script sql) = .error (message, next)) :
    ∃ db, engine sql connection.db = .error (message, db) ∧
      next = { connection with db := db } := by
  cases hengine : engine sql connection.db with
  | error failure =>
    simp only [Connection.perform, hengine] at hperform
    obtain ⟨rfl, rfl⟩ := Prod.mk.inj (Except.error.inj hperform)
    exact ⟨failure.2, rfl, rfl⟩
  | ok db => simp [Connection.perform, hengine] at hperform

/-- A stamp that is executed needs the table. -/
theorem perform_stamp_eq_ok {connection next : Connection σ} {version : String}
    (hperform : connection.perform engine (.stamp version) = .ok next) :
    (∃ row, connection.db.schemaMeta = some row) ∧
      next = { connection with db := connection.db.stamped version } := by
  cases hmeta : connection.db.schemaMeta with
  | none => simp [Connection.perform, hmeta] at hperform
  | some row =>
    simp only [Connection.perform, hmeta] at hperform
    exact ⟨⟨row, rfl⟩, (Except.ok.inj hperform).symm⟩

/-- A stamp is refused when there is no table. -/
theorem perform_stamp_eq_error {connection next : Connection σ} {version message : String}
    (hperform : connection.perform engine (.stamp version) = .error (message, next)) :
    connection.db.schemaMeta = none ∧ message = "no such table: schema_meta" ∧
      next = connection := by
  cases hmeta : connection.db.schemaMeta with
  | none =>
    simp only [Connection.perform, hmeta] at hperform
    obtain ⟨rfl, rfl⟩ := Prod.mk.inj (Except.error.inj hperform)
    exact ⟨rfl, rfl, rfl⟩
  | some row => simp [Connection.perform, hmeta] at hperform

variable (engine fault) in
/-- The statements of one migration end in one of these ways. -/
theorem execAll_spec (migration : Migration) {saved : Database σ} {run : Run σ}
    (hsaved : run.connection.saved = some saved) :
    Body engine fault migration saved run
      (execAll engine fault migration.statements run) := by
  obtain ⟨⟨db, transaction⟩, log⟩ := run
  obtain rfl : transaction = some saved := hsaved
  have hbroken : ∀ {hit : Fault σ} {cause : Thrown}, fault = some hit → fault = none →
      migrate engine migration db = .error cause := by
    intro hit cause hfault hnone
    rw [hnone] at hfault
    cases hfault
  have hscript := exec_spec engine fault (.script migration.upSql) ⟨⟨db, some saved⟩, log⟩
  unfold Migration.statements
  rw [execAll]
  generalize exec engine fault (.script migration.upSql) ⟨⟨db, some saved⟩, log⟩ = first at hscript
  cases hscript with
  | broken hfault _ _ => exact .thrown (hbroken hfault)
  | failed hperform =>
    obtain ⟨left, hengine, rfl⟩ := perform_script_eq_error hperform
    refine .thrown fun _ ↦ ?_
    unfold migrate
    rw [hengine]
  | done hmissesScript hperform =>
    obtain ⟨scripted, hengine, rfl⟩ := perform_script_eq_ok hperform
    dsimp only at hengine ⊢
    have hstamp := exec_spec engine fault (.stamp (toString migration.toVersion.toNat))
      ⟨⟨scripted, some saved⟩, log ++ [.script migration.upSql]⟩
    rw [execAll]
    generalize exec engine fault (.stamp (toString migration.toVersion.toNat))
      ⟨⟨scripted, some saved⟩, log ++ [.script migration.upSql]⟩ = second at hstamp
    cases hstamp with
    | broken hfault _ _ => exact .thrown (hbroken hfault)
    | failed hperform =>
      obtain ⟨hmeta, rfl, rfl⟩ := perform_stamp_eq_error hperform
      refine .thrown fun _ ↦ ?_
      unfold migrate
      rw [hengine]
      dsimp only at hmeta ⊢
      rw [hmeta]
    | done hmissesStamp hperform =>
      obtain ⟨⟨row, hmeta⟩, rfl⟩ := perform_stamp_eq_ok hperform
      dsimp only at hmeta ⊢
      have hmigrate : migrate engine migration db =
          .ok (scripted.stamped (toString migration.toVersion.toNat)) := by
        unfold migrate
        rw [hengine]
        dsimp only
        rw [hmeta]
      have hcommit := exec_spec engine fault .commit
        ⟨⟨scripted.stamped (toString migration.toVersion.toNat), some saved⟩,
          log ++ [.script migration.upSql] ++ [.stamp (toString migration.toVersion.toNat)]⟩
      rw [execAll]
      generalize exec engine fault .commit
        ⟨⟨scripted.stamped (toString migration.toVersion.toNat), some saved⟩,
          log ++ [.script migration.upSql] ++ [.stamp (toString migration.toVersion.toNat)]⟩ =
        third at hcommit
      cases hcommit with
      | broken hfault _ _ => exact .thrown (hbroken hfault)
      | failed hperform => cases hperform
      | done hmissesCommit hperform =>
        obtain rfl := Except.ok.inj hperform
        refine .committed (fun hit hfault ↦ ?_) (by simp) hmigrate
        -- The three calls are at the three positions after those made before.
        have hfirst := hmissesScript hit hfault
        have hsecond := hmissesStamp hit hfault
        have hthird := hmissesCommit hit hfault
        simp only [List.length_append, List.length_singleton, reduceCtorEq, imp_false] at *
        omega

/-- How one pass of the loop ends. -/
inductive Pass (engine : Engine σ) (fault : Option (Fault σ)) (migration : Migration)
    (db : Database σ) (called : ℕ) : Except Thrown Unit × Run σ → Prop
  /-- The migration is committed. -/
  | committed {next : Database σ} {log : List Statement} (hmisses : Misses fault called 4)
      (hlog : log.length = called + 4) (hmigrate : migrate engine migration db = .ok next) :
      Pass engine fault migration db called (.ok (), ⟨⟨next, none⟩, log⟩)
  /-- The migration is rolled back. -/
  | restored {cause : Thrown} {log : List Statement}
      (hcause : fault = none → migrate engine migration db = .error cause) :
      Pass engine fault migration db called (.error cause, ⟨⟨db, none⟩, log⟩)

variable (engine fault) in
/-- One pass of the loop ends in one of these ways. -/
theorem applyMigration_spec (migration : Migration) (db : Database σ) (log : List Statement) :
    Pass engine fault migration db log.length
      (applyMigration engine fault migration ⟨⟨db, none⟩, log⟩) := by
  have hbegin := exec_spec engine fault .begin ⟨⟨db, none⟩, log⟩
  unfold applyMigration
  generalize exec engine fault .begin ⟨⟨db, none⟩, log⟩ = first at hbegin
  cases hbegin with
  | broken hfault _ _ =>
    refine .restored fun hnone ↦ ?_
    rw [hnone] at hfault
    cases hfault
  | failed hperform => cases hperform
  | done hmissesBegin hperform =>
    obtain rfl := Except.ok.inj hperform
    dsimp only
    have hbody := @execAll_spec _ engine fault migration db ⟨⟨db, some db⟩, log ++ [.begin]⟩ rfl
    generalize execAll engine fault migration.statements ⟨⟨db, some db⟩, log ++ [.begin]⟩ =
      second at hbody
    cases hbody with
    | committed hmisses hlog hmigrate =>
      dsimp only
      rw [List.length_append, List.length_singleton] at hmisses hlog
      refine .committed (fun hit hfault ↦ ?_) (by omega) hmigrate
      have hfirst := hmissesBegin hit hfault
      have hothers := hmisses hit hfault
      simp only [reduceCtorEq, imp_false] at hfirst
      omega
    | @thrown cause left log' hcause =>
      dsimp only
      have hrollback := exec_spec engine fault .rollback ⟨⟨left, some db⟩, log'⟩
      generalize exec engine fault .rollback ⟨⟨left, some db⟩, log'⟩ = third at hrollback
      cases hrollback with
      | broken _ _ hstatement => exact absurd rfl hstatement
      | failed hperform => cases hperform
      | done _ hperform =>
        obtain rfl := Except.ok.inj hperform
        exact .restored hcause

/-! ### Sequences of migrations -/

variable (engine) in
/-- Migrations in their order, all of them. -/
def migrateAll (migrations : List Migration) (db : Database σ) : Except Thrown (Database σ) :=
  migrations.foldlM (fun db migration ↦ migrate engine migration db) db

/-- All of some migrations, the first one first. -/
theorem migrateAll_cons_eq_ok {migration : Migration} {rest : List Migration}
    {db reached : Database σ} :
    migrateAll engine (migration :: rest) db = .ok reached ↔
      ∃ next, migrate engine migration db = .ok next ∧ migrateAll engine rest next = .ok reached :=
  bind_eq_ok_iff

/-- A migration ends by stamping its version. -/
theorem stamped_of_migrate {migration : Migration} {db next : Database σ}
    (hnext : migrate engine migration db = .ok next) :
    ∃ scripted : Database σ, next = scripted.stamped (toString migration.toVersion.toNat) := by
  unfold migrate at hnext
  split at hnext
  · cases hnext
  · next scripted hengine =>
    split at hnext
    · cases hnext
    · exact ⟨scripted, (Except.ok.inj hnext).symm⟩

/-- What is left to do after some of the migrations. -/
theorem settle_drop {migrations : List Migration} : ∀ {db reached : Database σ} {count : ℕ},
    migrateAll engine (migrations.take count) db = .ok reached →
      settle engine migrations db = settle engine (migrations.drop count) reached := by
  induction migrations with
  | nil =>
    intro db reached count hreached
    rw [List.take_nil] at hreached
    obtain rfl := Except.ok.inj hreached
    rw [List.drop_nil]
  | cons migration rest ih =>
    intro db reached count hreached
    cases count with
    | zero =>
      obtain rfl := Except.ok.inj hreached
      rfl
    | succ count =>
      rw [List.take_succ_cons] at hreached
      obtain ⟨next, hnext, hrest⟩ := migrateAll_cons_eq_ok.mp hreached
      rw [settle, hnext, List.drop_succ_cons]
      exact ih hrest

variable (engine) in
/-- The settled database is the one after some of the migrations, with no more to be done. -/
theorem settle_spec (migrations : List Migration) : ∀ db : Database σ, ∃ count,
    count ≤ migrations.length ∧
    migrateAll engine (migrations.take count) db = .ok (settle engine migrations db).2 ∧
    ((settle engine migrations db).1 = .ok () → count = migrations.length) := by
  induction migrations with
  | nil => exact fun db ↦ ⟨0, Nat.le_refl _, rfl, fun _ ↦ rfl⟩
  | cons migration rest ih =>
    intro db
    cases hnext : migrate engine migration db with
    | error cause =>
      refine ⟨0, Nat.zero_le _, ?_, ?_⟩
      · rw [settle, hnext]
        rfl
      · rw [settle, hnext]
        exact fun hok ↦ absurd hok (by simp)
    | ok next =>
      obtain ⟨count, hcount, hreached, hall⟩ := ih next
      refine ⟨count + 1, Nat.succ_le_succ hcount, ?_, ?_⟩
      · rw [settle, hnext, List.take_succ_cons]
        exact migrateAll_cons_eq_ok.mpr ⟨next, hnext, hreached⟩
      · rw [settle, hnext, List.length_cons]
        exact fun hok ↦ congrArg (· + 1) (hall hok)

/-- How the loop ends. -/
inductive Loop (engine : Engine σ) (fault : Option (Fault σ)) (migrations : List Migration)
    (db : Database σ) (called : ℕ) : Except Thrown Unit × Run σ → Prop
  /-- Every migration is committed. -/
  | finished {next : Database σ} {log : List Statement}
      (hmisses : Misses fault called (4 * migrations.length))
      (hsettle : settle engine migrations db = (.ok (), next)) :
      Loop engine fault migrations db called (.ok (), ⟨⟨next, none⟩, log⟩)
  /-- Some are committed, and the next one is rolled back. -/
  | stopped (count : ℕ) {cause : Thrown} {reached : Database σ} {log : List Statement}
      (hcount : count < migrations.length)
      (hreached : migrateAll engine (migrations.take count) db = .ok reached)
      (hcause : fault = none → settle engine migrations db = (.error cause, reached)) :
      Loop engine fault migrations db called (.error cause, ⟨⟨reached, none⟩, log⟩)

variable (engine fault) in
/-- The loop ends in one of these ways. -/
theorem applyAll_spec (migrations : List Migration) :
    ∀ (db : Database σ) (log : List Statement), Loop engine fault migrations db log.length
      (applyAll engine fault migrations ⟨⟨db, none⟩, log⟩) := by
  induction migrations with
  | nil => exact fun db log ↦ .finished (fun hit _ ↦ by simp only [List.length_nil]; omega) rfl
  | cons migration rest ih =>
    intro db log
    have hpass := applyMigration_spec engine fault migration db log
    unfold applyAll
    generalize applyMigration engine fault migration ⟨⟨db, none⟩, log⟩ = first at hpass
    cases hpass with
    | restored hcause =>
      refine .stopped 0 (Nat.succ_pos _) rfl fun hnone ↦ ?_
      rw [settle, hcause hnone]
    | @committed next log' hmisses hlog hmigrate =>
      dsimp only
      have hrest := ih next log'
      generalize applyAll engine fault rest ⟨⟨next, none⟩, log'⟩ = second at hrest
      cases hrest with
      | finished hmissesRest hsettle =>
        refine .finished (fun hit hfault ↦ ?_) ?_
        · have hfirst := hmisses hit hfault
          have hothers := hmissesRest hit hfault
          rw [hlog] at hothers
          rw [List.length_cons]
          omega
        · rw [settle, hmigrate]
          exact hsettle
      | @stopped count cause reached log'' hcount hreached hcause =>
        refine .stopped (count + 1) (Nat.succ_lt_succ hcount) ?_ fun hnone ↦ ?_
        · rw [List.take_succ_cons]
          exact migrateAll_cons_eq_ok.mpr ⟨next, hmigrate, hreached⟩
        · rw [settle, hmigrate]
          exact hcause hnone

variable (engine) in
/-- Without failures from outside the loop does what it should. -/
theorem applyAll_eq_settle (migrations : List Migration) (db : Database σ) (log : List Statement) :
    (applyAll engine none migrations ⟨⟨db, none⟩, log⟩).1 = (settle engine migrations db).1 ∧
      (applyAll engine none migrations ⟨⟨db, none⟩, log⟩).2.connection =
        ⟨(settle engine migrations db).2, none⟩ := by
  have hloop := applyAll_spec engine none migrations db log
  generalize applyAll engine none migrations ⟨⟨db, none⟩, log⟩ = outcome at hloop
  cases hloop with
  | finished _ hsettle =>
    rw [hsettle]
    exact ⟨rfl, rfl⟩
  | stopped _ _ _ hcause =>
    rw [hcause rfl]
    exact ⟨rfl, rfl⟩

/-! ### Versions -/

/-- A stamped version is read back. -/
theorem readInstalledVersion_stamped (db : Database σ) (version : ℕ) :
    readInstalledVersion (db.stamped (toString version)) = .ok (.ofNat version) := by
  have htext : (toString version).toList = Nat.toDigits 10 version := Nat.toList_repr
  have hdecimal : isDecimal (toString version) = true := by
    refine decide_eq_true ⟨?_, List.all_eq_true.mpr fun ch hch ↦ ?_⟩
    · rw [htext]
      exact Nat.toDigits_ne_nil
    · rw [htext] at hch
      exact Nat.isDigit_of_mem_toDigits (by decide) (by decide) hch
  have hvalue : decimal (toString version) = version := by
    unfold decimal
    rw [htext, Nat.ofDigitChars_ten_toDigits]
  change (if isDecimal (toString version) then _ else _) = _
  rw [if_pos hdecimal, hvalue]

variable {build}

/-- The version of a build passes the boundary. -/
theorem pendingMigrations_ofNat (version : UInt32) :
    pendingMigrations build (.ofNat version.toNat) =
      (build.pending version).mapError fun error ↦ .unknownVersion error.text := by
  have hword : (Number.ofNat version.toNat).toUint32 = version.toNat := by
    have hlt := version.toNat_lt
    rw [toUint32_ofNat_small (by omega)]
    exact Nat.mod_eq_of_lt hlt
  unfold pendingMigrations
  rw [hword, UInt32.ofNat_toNat]

/-- What is pending is the end of the list. -/
theorem append_of_pending {current : UInt32} {steps : List Migration}
    (hpending : build.pending current = .ok steps) :
    ∃ earlier, earlier ++ steps = build.migrations := by
  unfold Build.pending at hpending
  split_ifs at hpending with hcurrent
  · obtain rfl := Except.ok.inj hpending
    exact ⟨build.migrations, List.append_nil _⟩
  · split at hpending
    · cases hpending
    · next index hindex =>
      obtain rfl := Except.ok.inj hpending
      exact ⟨build.migrations.take index, List.take_append_drop _ _⟩

/-- At the version before the end of the list, that end is pending. -/
theorem pending_versionBefore (hdistinct : build.Distinct) {earlier steps : List Migration}
    (happend : earlier ++ steps = build.migrations) :
    build.pending (build.versionBefore steps) = .ok steps := by
  unfold Build.Distinct at hdistinct
  cases steps with
  | nil => exact if_pos rfl
  | cons migration rest =>
    rw [← happend, List.map_append, List.map_cons] at hdistinct
    obtain ⟨hversions, -, hlatest⟩ := List.nodup_append.mp hdistinct
    obtain ⟨-, -, hearlier⟩ := List.nodup_append.mp hversions
    have hcurrent : migration.fromVersion ≠ build.schemaVersion :=
      hlatest _ (by simp) _ (by simp)
    have hindex : build.migrations.findIdx?
        (fun other ↦ other.fromVersion = migration.fromVersion) = some earlier.length := by
      rw [← happend, List.findIdx?_append, List.findIdx?_eq_none_iff.mpr, List.findIdx?_cons]
      · simp
      · intro other hother
        exact decide_eq_false (hearlier _ (List.mem_map_of_mem hother) _ List.mem_cons_self)
    unfold Build.pending Build.versionBefore
    rw [if_neg hcurrent, hindex]
    dsimp only
    rw [← happend, List.drop_left]

/-- The end of a contiguous list is contiguous. -/
theorem contiguous_of_append {earlier steps : List Migration}
    (hcontiguous : build.Contiguous (earlier ++ steps)) : build.Contiguous steps := by
  induction earlier with
  | nil => exact hcontiguous
  | cons migration rest ih => exact ih hcontiguous.2

/-- After some of the pending migrations the others are pending. -/
theorem pending_after (hdistinct : build.Distinct) {steps : List Migration} :
    ∀ {earlier : List Migration} {db reached : Database σ} {count : ℕ},
      earlier ++ steps = build.migrations → build.Contiguous steps →
      readInstalledVersion db >>= pendingMigrations build = .ok steps →
      migrateAll engine (steps.take count) db = .ok reached →
      readInstalledVersion reached >>= pendingMigrations build = .ok (steps.drop count) := by
  induction steps with
  | nil =>
    intro earlier db reached count _ _ hpending hreached
    rw [List.take_nil] at hreached
    obtain rfl := Except.ok.inj hreached
    rw [List.drop_nil]
    exact hpending
  | cons migration rest ih =>
    intro earlier db reached count happend hcontiguous hpending hreached
    cases count with
    | zero =>
      obtain rfl := Except.ok.inj hreached
      exact hpending
    | succ count =>
      rw [List.take_succ_cons] at hreached
      obtain ⟨next, hnext, hrest⟩ := migrateAll_cons_eq_ok.mp hreached
      rw [List.drop_succ_cons]
      have happendRest : (earlier ++ [migration]) ++ rest = build.migrations := by
        rw [List.append_assoc]
        exact happend
      refine ih happendRest hcontiguous.2 ?_ hrest
      obtain ⟨scripted, rfl⟩ := stamped_of_migrate hnext
      refine bind_eq_ok_iff.mpr ⟨_, readInstalledVersion_stamped _ _, ?_⟩
      rw [pendingMigrations_ofNat, hcontiguous.1, pending_versionBefore hdistinct happendRest]
      rfl

/-- The version of a database after some migrations. -/
theorem readInstalledVersion_after {migrations : List Migration} :
    ∀ {db reached : Database σ} {installed : Number},
      readInstalledVersion db = .ok installed → migrateAll engine migrations db = .ok reached →
      readInstalledVersion reached = .ok (versionAfter installed migrations) := by
  induction migrations with
  | nil =>
    intro db reached installed hinstalled hreached
    obtain rfl := Except.ok.inj hreached
    exact hinstalled
  | cons migration rest ih =>
    intro db reached installed _ hreached
    obtain ⟨next, hnext, hrest⟩ := migrateAll_cons_eq_ok.mp hreached
    obtain ⟨scripted, rfl⟩ := stamped_of_migrate hnext
    rw [versionAfter, List.foldl_cons]
    exact ih (readInstalledVersion_stamped _ _) hrest

/-! ### One failure -/

/-- The pending migrations are applied. -/
theorem applyMigrations_of_pending {db : Database σ} {steps : List Migration}
    (hpending : readInstalledVersion db >>= pendingMigrations build = .ok steps) :
    applyMigrations build engine fault (.start db) = applyAll engine fault steps (.start db) := by
  unfold applyMigrations Run.start
  dsimp only
  rw [hpending]

variable (build engine) in
/-- A call of `applyMigrations` without failures from outside: its outcome, and the connection. -/
def uninterrupted (db : Database σ) : Except Thrown Unit × Connection σ :=
  let outcome := applyMigrations build engine none (.start db)
  (outcome.1, outcome.2.connection)

/-- A call without failures does what it should with the pending migrations. -/
theorem uninterrupted_eq {db : Database σ} {steps : List Migration}
    (hpending : readInstalledVersion db >>= pendingMigrations build = .ok steps) :
    uninterrupted build engine db =
      ((settle engine steps db).1, ⟨(settle engine steps db).2, none⟩) := by
  obtain ⟨hresult, hconnection⟩ := applyAll_eq_settle engine steps db []
  unfold uninterrupted
  rw [applyMigrations_of_pending hpending]
  exact Prod.ext hresult hconnection

/-- From every state between two of the pending migrations a call ends like one from the start. -/
theorem uninterrupted_resumed (hcontiguous : build.Contiguous build.migrations)
    (hdistinct : build.Distinct) {start reached : Database σ} {steps : List Migration} {count : ℕ}
    (hpending : readInstalledVersion start >>= pendingMigrations build = .ok steps)
    (hreached : migrateAll engine (steps.take count) start = .ok reached) :
    uninterrupted build engine reached = uninterrupted build engine start := by
  obtain ⟨installed, -, hknown⟩ := bind_eq_ok_iff.mp hpending
  obtain ⟨earlier, happend⟩ := append_of_pending (mapError_eq_ok_iff.mp hknown)
  have hsteps : build.Contiguous steps := contiguous_of_append (happend ▸ hcontiguous)
  have hrest := pending_after hdistinct happend hsteps hpending hreached
  rw [uninterrupted_eq hpending, uninterrupted_eq hrest, settle_drop hreached]

/-- When one call of `exec` fails, `applyMigrations` throws and leaves the database as it is after
some of the pending migrations, at the version of the last of them. The next call ends as one
without the failure does from the start, and a further call changes nothing. -/
theorem migrations_resumable (hcontiguous : build.Contiguous build.migrations)
    (hdistinct : build.Distinct) {start : Database σ} {installed : Number}
    {steps : List Migration} (hinstalled : readInstalledVersion start = .ok installed)
    (hknown : pendingMigrations build installed = .ok steps) (hit : Fault σ)
    (hhit : hit.call < 4 * steps.length) :
    ∃ (cause : Thrown) (reached : Database σ) (log : List Statement) (count : ℕ),
      applyMigrations build engine (some hit) (.start start) =
        (.error cause, ⟨⟨reached, none⟩, log⟩) ∧
      count ≤ steps.length ∧ migrateAll engine (steps.take count) start = .ok reached ∧
      readInstalledVersion reached = .ok (versionAfter installed (steps.take count)) ∧
      uninterrupted build engine reached = uninterrupted build engine start ∧
      uninterrupted build engine (uninterrupted build engine start).2.db =
        uninterrupted build engine start := by
  have hpending : readInstalledVersion start >>= pendingMigrations build = .ok steps :=
    bind_eq_ok_iff.mpr ⟨installed, hinstalled, hknown⟩
  have hloop := applyAll_spec engine (some hit) steps start []
  rw [applyMigrations_of_pending hpending, Run.start]
  generalize applyAll engine (some hit) steps ⟨⟨start, none⟩, []⟩ = outcome at hloop
  cases hloop with
  | finished hmisses _ =>
    have hcall := hmisses hit rfl
    rw [List.length_nil] at hcall
    omega
  | @stopped count cause reached log hcount hreached _ =>
    refine ⟨cause, reached, log, count, rfl, Nat.le_of_lt hcount, hreached,
      readInstalledVersion_after hinstalled hreached,
      uninterrupted_resumed hcontiguous hdistinct hpending hreached, ?_⟩
    obtain ⟨last, -, hlast, -⟩ := settle_spec engine steps start
    have hfinal : (uninterrupted build engine start).2.db = (settle engine steps start).2 := by
      rw [uninterrupted_eq hpending]
    rw [hfinal]
    exact uninterrupted_resumed hcontiguous hdistinct hpending hlast

end Runner

/-! ### A failed commit and a repeated version -/

/-- A database that records its scripts. Every script creates `schema_meta` where it is missing. -/
def recording : Engine (List String) :=
  fun sql db ↦ .ok ⟨db.schemaMeta.or (some none), db.rest ++ [sql]⟩

/-- A database without tables. -/
def blank : Database (List String) :=
  ⟨none, []⟩

/-- Two migrations. -/
def twoSteps : Build :=
  ⟨[⟨0, 1, "CREATE TABLE a"⟩, ⟨1, 2, "CREATE TABLE b"⟩], 2⟩

/-- The second `COMMIT` fails. -/
def failedCommit : Fault (List String) :=
  ⟨7, "disk I/O error", id⟩

/-- After the second `COMMIT` failed, the next call ends as one without the failure does. -/
theorem migrations_resumable_failedCommit :
    uninterrupted twoSteps recording
        (applyMigrations twoSteps recording (some failedCommit) (.start blank)).2.connection.db =
      uninterrupted twoSteps recording blank := by
  obtain ⟨cause, reached, log, count, hfailed, -, -, -, hresumed, -⟩ :=
    @migrations_resumable _ twoSteps recording ⟨rfl, rfl, trivial⟩
      (by unfold Build.Distinct; decide)
      blank (.ofNat 0) twoSteps.migrations rfl (by decide +kernel) failedCommit (by decide)
  rw [hfailed]
  exact hresumed

/-- A contiguous list in which a migration keeps the version. -/
def repeatedVersion : Build :=
  ⟨[⟨0, 1, "CREATE TABLE a"⟩, ⟨1, 1, "CREATE TABLE b"⟩], 1⟩

/-- The second `BEGIN` fails. -/
def failedBegin : Fault (List String) :=
  ⟨4, "database is locked", id⟩

/-- When a version occurs twice, a call after a failure can take the database to be current: the
second script is never run. -/
theorem not_resumed_repeatedVersion :
    repeatedVersion.Contiguous repeatedVersion.migrations ∧
    pendingMigrations repeatedVersion (.ofNat 0) = .ok repeatedVersion.migrations ∧
    uninterrupted repeatedVersion recording
        (applyMigrations repeatedVersion recording (some failedBegin)
          (.start blank)).2.connection.db ≠
      uninterrupted repeatedVersion recording blank := by
  refine ⟨⟨rfl, rfl, trivial⟩, by decide +kernel, fun hsame ↦ ?_⟩
  have hscripts := congrArg (fun outcome ↦ outcome.2.db.rest) hsame
  have hdiffer : (uninterrupted repeatedVersion recording
        (applyMigrations repeatedVersion recording (some failedBegin)
          (.start blank)).2.connection.db).2.db.rest ≠
      (uninterrupted repeatedVersion recording blank).2.db.rest := by
    decide +kernel
  exact hdiffer hscripts

end OpfsWebauthn.Storage.Migrations
