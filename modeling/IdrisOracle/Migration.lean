import IdrisOracle.Binary64
import IdrisOracle.Statement

/-! Migrations and the runner that applies them over a connection. -/

namespace IdrisOracle

open Effect

/-- A connection as the runner uses it. -/
structure Conn (m : Type → Type) where
  queryRaw : String → List BindParameter → m (Outcome (List (List OracleValue)))
  execute_ : String → List BindParameter → m (Outcome Unit)
  commit : m (Outcome Unit)

/-- A database migration. -/
structure Migration (m : Type → Type) where
  migrationversion : Int64
  migrationname : String
  migrationup : Conn m → m (Outcome Unit)
  migrationdown : Conn m → m (Outcome Unit)

/-- A migration that has been recorded in the database. -/
structure MigrationInfo where
  migrationinfoversion : Int64
  migrationinfoname : String
  migrationinfoappliedAt : String
deriving DecidableEq

inductive MigrationStatus (m : Type → Type) where
  | migrationPending (migration : Migration m)
  | migrationApplied (migration : Migration m) (info : MigrationInfo)
  | migrationMissing (info : MigrationInfo)

/-- `cast` from `Int` to `Double`. -/
def castDouble (n : Int64) : Float := Binary64.ofInt n.toInt

/-- `cast` from `Double` to `Int`. -/
def castInt (d : Float) : Int64 := Int64.ofInt (Binary64.truncate d)

variable {m : Type → Type}

def sameMigrationVersion (migration : Migration m) (info : MigrationInfo) : Bool :=
  migration.migrationversion == info.migrationinfoversion

/-- Whether a migration has already been applied. -/
def isMigrationApplied (migration : Migration m) (infos : List MigrationInfo) : Bool :=
  infos.any (sameMigrationVersion migration)

section Statements

def selectMigrationTable : String :=
  "SELECT table_name
FROM user_tables
WHERE table_name = 'IDRIS_ORACLE_MIGRATIONS'"

def createMigrationTable : String :=
  "CREATE TABLE idris_oracle_migrations (
    version      NUMBER PRIMARY KEY,
    description  VARCHAR2(4000) NOT NULL,
    applied_at   TIMESTAMP DEFAULT CURRENT_TIMESTAMP NOT NULL
)"

def selectMigrations : String :=
  "SELECT
    version,
    description,
    TO_CHAR(
        applied_at,
        'YYYY-MM-DD\"T\"HH24:MI:SS.FF9'
    )
FROM idris_oracle_migrations
ORDER BY version"

def insertMigration : String :=
  "INSERT INTO idris_oracle_migrations
(
    version,
    description,
    applied_at
)
VALUES
(
    :version,
    :description,
    CURRENT_TIMESTAMP
)"

def deleteMigration : String :=
  "DELETE FROM idris_oracle_migrations
WHERE version = :version"

end Statements

section Errors

variable [ShowRow]

def invalidHistoryRow (row : List OracleValue) : OracleError :=
  ⟨-1, "Invalid migration history row: " ++ ShowRow.showRow row,
    "Oracle.Migration.Runner.listAppliedMigrations", false⟩

def noMigrationsApplied : OracleError :=
  ⟨-1, "No migrations have been applied", "Oracle.Migration.Runner.rollbackMigration", false⟩

def noLatestMigration : OracleError :=
  ⟨-1, "Unable to determine latest migration", "Oracle.Migration.Runner.rollbackMigration", false⟩

def definitionNotFound (version : Int64) : OracleError :=
  ⟨-1, "Migration definition not found for applied version " ++ toString version.toInt,
    "Oracle.Migration.Runner.rollbackMigration", false⟩

end Errors

section Runner

variable [Monad m] [ShowRow]

/-- Ensure that the migration history table exists. -/
def ensureMigrationTable (conn : Conn m) : m (Outcome Unit) := do
  match ← conn.queryRaw selectMigrationTable [] with
  | .error err => return .error err
  | .ok [] => conn.execute_ createMigrationTable []
  | .ok _ => return .ok ()

namespace listAppliedMigrations

def decodeRow : List OracleValue → Outcome MigrationInfo
  | [.oracleNumber version, .oracleString description, .oracleString appliedAt] =>
      .ok ⟨castInt version, description, appliedAt⟩
  | row => .error (invalidHistoryRow row)

def decodeRows : List (List OracleValue) → m (Outcome (List MigrationInfo))
  | [] => return .ok []
  | row :: rows => do
      match decodeRow row with
      | .error err => return .error err
      | .ok info =>
          match ← decodeRows rows with
          | .error err => return .error err
          | .ok infos => return .ok (info :: infos)

end listAppliedMigrations

/-- The migrations that have already been applied, ordered by version. -/
def listAppliedMigrations (conn : Conn m) : m (Outcome (List MigrationInfo)) := do
  match ← ensureMigrationTable conn with
  | .error err => return .error err
  | .ok () =>
      match ← conn.queryRaw selectMigrations [] with
      | .error err => return .error err
      | .ok rows => listAppliedMigrations.decodeRows rows

/-- `sortBy compareMigrationVersion`. -/
def sortMigrations (migrations : List (Migration m)) : List (Migration m) :=
  migrations.mergeSort fun a b => a.migrationversion ≤ b.migrationversion

/-- The migrations that have been defined but not yet applied. -/
def pendingMigrations (conn : Conn m) (migrations : List (Migration m)) :
    m (Outcome (List (Migration m))) := do
  match ← listAppliedMigrations conn with
  | .error err => return .error err
  | .ok applied =>
      return .ok ((sortMigrations migrations).filter fun migration =>
        !isMigrationApplied migration applied)

namespace migrationStatus

def findApplied (migration : Migration m) : List MigrationInfo → Option MigrationInfo
  | [] => none
  | info :: infos =>
      match sameMigrationVersion migration info with
      | true => some info
      | false => findApplied migration infos

def containsVersion (info : MigrationInfo) : List (Migration m) → Bool
  | [] => false
  | migration :: migrations =>
      match info.migrationinfoversion == migration.migrationversion with
      | true => true
      | false => containsVersion info migrations

end migrationStatus

/-- The status of the defined and of the applied migrations. -/
def migrationStatus (conn : Conn m) (migrations : List (Migration m)) :
    m (Outcome (List (MigrationStatus m))) := do
  match ← listAppliedMigrations conn with
  | .error err => return .error err
  | .ok applied =>
      let migrationstatuses := (sortMigrations migrations).map fun migration =>
        match migrationStatus.findApplied migration applied with
        | none => MigrationStatus.migrationPending migration
        | some info => MigrationStatus.migrationApplied migration info
      let missingstatuses := (applied.filter fun info =>
        !migrationStatus.containsVersion info migrations).map MigrationStatus.migrationMissing
      return .ok (migrationstatuses ++ missingstatuses)

/-- Record a successfully applied migration. -/
def recordMigration (conn : Conn m) (migration : Migration m) : m (Outcome Unit) :=
  conn.execute_ insertMigration
    [⟨":version", .oracleNumber (castDouble migration.migrationversion)⟩,
      ⟨":description", .oracleString migration.migrationname⟩]

/-- Remove a migration from the migration history. -/
def removeMigrationRecord (conn : Conn m) (migration : Migration m) : m (Outcome Unit) :=
  conn.execute_ deleteMigration
    [⟨":version", .oracleNumber (castDouble migration.migrationversion)⟩]

def runMigrations.runPending (conn : Conn m) : List (Migration m) → m (Outcome Unit)
  | [] => return .ok ()
  | migration :: migrations => do
      match ← migration.migrationup conn with
      | .error err => return .error err
      | .ok () =>
          match ← recordMigration conn migration with
          | .error err => return .error err
          | .ok () =>
              match ← conn.commit with
              | .error err => return .error err
              | .ok () => runMigrations.runPending conn migrations

/-- Execute all pending migrations in ascending version order. -/
def runMigrations (conn : Conn m) (migrations : List (Migration m)) : m (Outcome Unit) := do
  match ← pendingMigrations conn migrations with
  | .error err => return .error err
  | .ok pending => runMigrations.runPending conn pending

namespace rollbackMigration

def latestMigration : List MigrationInfo → Option MigrationInfo
  | [] => none
  | info :: infos => some (infos.foldl (fun current candidate =>
      match decide (candidate.migrationinfoversion > current.migrationinfoversion) with
      | true => candidate
      | false => current) info)

def findMigration (info : MigrationInfo) : List (Migration m) → Option (Migration m)
  | [] => none
  | migration :: migrations =>
      match info.migrationinfoversion == migration.migrationversion with
      | true => some migration
      | false => findMigration info migrations

def rollback (conn : Conn m) (migration : Migration m) : m (Outcome Unit) := do
  match ← migration.migrationdown conn with
  | .error err => return .error err
  | .ok () =>
      match ← removeMigrationRecord conn migration with
      | .error err => return .error err
      | .ok () => conn.commit

end rollbackMigration

/-- Roll back the most recently applied migration. -/
def rollbackMigration (conn : Conn m) (migrations : List (Migration m)) : m (Outcome Unit) := do
  match ← listAppliedMigrations conn with
  | .error err => return .error err
  | .ok [] => return .error noMigrationsApplied
  | .ok applied =>
      match rollbackMigration.latestMigration applied with
      | none => return .error noLatestMigration
      | some latest =>
          match rollbackMigration.findMigration latest migrations with
          | none => return .error (definitionNotFound latest.migrationinfoversion)
          | some migration => rollbackMigration.rollback conn migration

end Runner

end IdrisOracle
