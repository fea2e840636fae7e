import IdrisOracle.Migration
import IdrisOracle.Session

/-! The database behind a connection: the data of the user and the migration history. -/

namespace IdrisOracle

open Effect

/-- A row of the migration history as the table stores it. -/
structure HistoryRow where
  version : Float
  description : String
  appliedAt : String

namespace HistoryRow

/-- The number the version is compared and ordered by. -/
def number (row : HistoryRow) : Int := Binary64.truncate row.version

/-- What a query gives the library for the row. -/
def values (row : HistoryRow) : List OracleValue :=
  [.oracleNumber row.version, .oracleString row.description, .oracleString row.appliedAt]

def info (row : HistoryRow) : MigrationInfo :=
  ⟨castInt row.version, row.description, row.appliedAt⟩

end HistoryRow

/-- The data of the user and the migration history, if its table exists. -/
structure Db (U : Type) where
  user : U
  history : Option (List HistoryRow)

/-- A step of a migration and whether it succeeded; a commit with what it made permanent. -/
inductive MigrationEvent (U : Type) where
  | up (version : Int64) (ok : Bool)
  | down (version : Int64) (ok : Bool)
  | insert (ok : Bool)
  | delete (ok : Bool)
  | commit (committed : Option (Db U))

structure DbWorld (U : Type) where
  session : Session (Db U)
  tick : Nat
  log : List (MigrationEvent U)

/-- Which statements fail from outside, and the time. -/
structure Outside where
  failure : Nat → Option OracleError
  clock : Nat → String

/-- A migration by what its actions do to the data of the user. -/
structure Script (U : Type) where
  version : Int64
  name : String
  up : Nat → Session U → Session U × Outcome Unit
  down : Nat → Session U → Session U × Outcome Unit

section Statements

def oraError (code : Int32) (message : String) : OracleError := ⟨code, message, "unknown", false⟩

/-- The history table has a row for the version. -/
def Recorded (rows : List HistoryRow) (version : Float) : Prop :=
  ∃ row ∈ rows, row.number = Binary64.truncate version

instance (rows : List HistoryRow) (version : Float) : Decidable (Recorded rows version) :=
  inferInstanceAs (Decidable (∃ row ∈ rows, _))

/-- The part of a text that reaches the database. -/
def storedText (text : String) : String := String.ofList (CString.visible text.toList)

/-- The value that is bound to a name, the last one if there are several. -/
def bound (name : String) (params : List BindParameter) : Option OracleValue :=
  (params.reverse.find? fun param => param.name = name).map BindParameter.value

/-- INSERT, with the constraints of the history table. -/
def insertRow (row : HistoryRow) : Option (List HistoryRow) → Outcome (List HistoryRow)
  | none => .error (oraError 942 "ORA-00942: table or view does not exist")
  | some rows =>
      if row.description = "" then
        .error (oraError 1400 "ORA-01400: cannot insert NULL into (\"DESCRIPTION\")")
      else if 4000 < (CString.encode row.description.toList).length then
        .error (oraError 12899 "ORA-12899: value too large for column \"DESCRIPTION\"")
      else if Recorded rows row.version then
        .error (oraError 1 "ORA-00001: unique constraint violated")
      else .ok (rows ++ [row])

/-- DELETE of the rows with the version. -/
def deleteRow (version : Float) : Option (List HistoryRow) → Outcome (List HistoryRow)
  | none => .error (oraError 942 "ORA-00942: table or view does not exist")
  | some rows => .ok (rows.filter fun row => row.number ≠ Binary64.truncate version)

/-- The history in the order of its versions. -/
def sortRows (rows : List HistoryRow) : List HistoryRow :=
  rows.mergeSort fun a b => a.number ≤ b.number

/-- The answer to one of the queries of the runner. -/
def select (sql : String) (history : Option (List HistoryRow)) :
    Outcome (List (List OracleValue)) :=
  if sql = selectMigrationTable then
    .ok (if history.isSome then [[.oracleString "IDRIS_ORACLE_MIGRATIONS"]] else [])
  else if sql = selectMigrations then
    match history with
    | none => .error (oraError 942 "ORA-00942: table or view does not exist")
    | some rows => .ok ((sortRows rows).map HistoryRow.values)
  else .error (oraError 900 "ORA-00900: invalid SQL statement")

end Statements

namespace DbWorld

variable {U : Type} (outside : Outside) (w : DbWorld U)

def record (event : MigrationEvent U) : DbWorld U :=
  { w with tick := w.tick + 1, log := w.log ++ [event] }

/-- The history as the session sees it. -/
def history : Option (List HistoryRow) := w.session.working.history

/-- The data of the user as the session sees it. -/
def user : Session U := ⟨w.session.committed.user, w.session.working.user⟩

/-- An action of a migration, which runs when no change of the history is open. -/
def act (event : Bool → MigrationEvent U) (action : Nat → Session U → Session U × Outcome Unit) :
    Outcome Unit × DbWorld U :=
  let r := action w.tick w.user
  (r.2, { w.record (event r.2.isOk) with
    session := ⟨⟨r.1.committed, w.session.committed.history⟩,
      ⟨r.1.working, w.session.working.history⟩⟩ })

/-- A statement that changes the history, unless it fails. -/
def edit (event : Bool → MigrationEvent U) (rows : Outcome (List HistoryRow)) :
    Outcome Unit × DbWorld U :=
  match outside.failure w.tick, rows with
  | some err, _ => (.error err, w.record (event false))
  | none, .error err => (.error err, w.record (event false))
  | none, .ok rows =>
      (.ok (), { w.record (event true) with
        session := w.session.dml fun db => { db with history := some rows } })

/-- CREATE TABLE is a DDL statement. -/
def createTable : DbWorld U :=
  { w with session := w.session.ddl fun db => { db with history := some [] } }

def commit : Outcome Unit × DbWorld U :=
  match outside.failure w.tick with
  | some err => (.error err, w.record (.commit none))
  | none =>
      (.ok (), { w.record (.commit (some w.session.working)) with session := w.session.commit })

def execute (sql : String) (params : List BindParameter) : Outcome Unit × DbWorld U :=
  if sql = createMigrationTable then
    match w.history with
    | some _ => (.error (oraError 955 "ORA-00955: name is already used"), w)
    | none => (.ok (), w.createTable)
  else if sql = insertMigration then
    match bound ":version" params, bound ":description" params with
    | some (.oracleNumber version), some (.oracleString description) =>
        w.edit outside .insert
          (insertRow ⟨version, storedText description, outside.clock w.tick⟩ w.history)
    | _, _ => (.error (oraError 1008 "ORA-01008: not all variables bound"), w)
  else if sql = deleteMigration then
    match bound ":version" params with
    | some (.oracleNumber version) => w.edit outside .delete (deleteRow version w.history)
    | _ => (.error (oraError 1008 "ORA-01008: not all variables bound"), w)
  else (.error (oraError 900 "ORA-00900: invalid SQL statement"), w)

end DbWorld

variable {U : Type}

section Lookup

variable (outside : Outside) (w : DbWorld U)

theorem select_migrationTable (history : Option (List HistoryRow)) :
    select selectMigrationTable history =
      .ok (if history.isSome then [[.oracleString "IDRIS_ORACLE_MIGRATIONS"]] else []) :=
  if_pos rfl

theorem select_migrations (rows : List HistoryRow) :
    select selectMigrations (some rows) = .ok ((sortRows rows).map HistoryRow.values) := by
  have hne : selectMigrations ≠ selectMigrationTable := by
    simp [selectMigrations, selectMigrationTable]
  rw [select, if_neg hne, if_pos rfl]

theorem execute_createTable (h : w.history = none) (params : List BindParameter) :
    w.execute outside createMigrationTable params = (.ok (), w.createTable) := by
  refine (if_pos rfl).trans ?_
  rw [h]

theorem execute_insert (description : String) (version : Float) :
    w.execute outside insertMigration
      [⟨":version", .oracleNumber version⟩, ⟨":description", .oracleString description⟩] =
      w.edit outside .insert
        (insertRow ⟨version, storedText description, outside.clock w.tick⟩ w.history) := by
  have hne : insertMigration ≠ createMigrationTable := by
    simp [insertMigration, createMigrationTable]
  exact (if_neg hne).trans (if_pos rfl)

theorem execute_delete (version : Float) :
    w.execute outside deleteMigration [⟨":version", .oracleNumber version⟩] =
      w.edit outside .delete (deleteRow version w.history) := by
  have hcreate : deleteMigration ≠ createMigrationTable := by
    simp [deleteMigration, createMigrationTable]
  have hinsert : deleteMigration ≠ insertMigration := by
    simp [deleteMigration, insertMigration]
  exact (if_neg hcreate).trans ((if_neg hinsert).trans (if_pos rfl))

end Lookup

/-- The connection to the database. -/
def Outside.conn (outside : Outside) : Conn (Eff (DbWorld U)) where
  queryRaw sql _ := step fun w => (select sql w.history, w)
  execute_ sql params := step fun w => w.execute outside sql params
  commit := step fun w => w.commit outside

def Script.migration (script : Script U) : Migration (Eff (DbWorld U)) where
  migrationversion := script.version
  migrationname := script.name
  migrationup _ := step fun w => w.act (.up script.version) script.up
  migrationdown _ := step fun w => w.act (.down script.version) script.down

section Casts

theorem natAbs_toInt_le (n : Int64) : n.toInt.natAbs ≤ 2 ^ 63 := by
  have hle := n.le_toInt
  have hlt := n.toInt_lt
  omega

/-- Exactly the versions with a 53-bit significand come back from the database unchanged. -/
theorem castInt_castDouble_iff (n : Int64) :
    castInt (castDouble n) = n ↔ Binary64.Representable n.toInt := by
  have hle := n.le_toInt
  have hlt := n.toInt_lt
  have hbound := Binary64.natAbs_truncate_le n.toInt (natAbs_toInt_le n)
  rw [← Binary64.truncate_ofInt_iff n.toInt (natAbs_toInt_le n), castInt, castDouble]
  constructor
  · intro h
    by_cases hsmall : Binary64.truncate (Binary64.ofInt n.toInt) < 2 ^ 63
    · rw [← Int64.toInt_ofInt_of_le (by omega) hsmall, h]
    -- a version that is rounded up to 2 ^ 63 comes back as a negative one
    · have hround : Binary64.truncate (Binary64.ofInt n.toInt) = 2 ^ 63 := by omega
      have hpos := Binary64.sign_truncate n.toInt (natAbs_toInt_le n) (by omega)
      rw [hround] at h
      rw [← h] at hpos
      exact absurd hpos (by decide)
  · intro h
    rw [h, Int64.ofInt_toInt]

end Casts

section Runner

variable {outside : Outside} {w : DbWorld U}

namespace DbWorld

variable (w)

/-- The rows of the history the session sees. -/
def rows : List HistoryRow := w.history.getD []

/-- The world once the history table exists. -/
def ready : DbWorld U :=
  match w.history with
  | some _ => w
  | none => w.createTable

end DbWorld

/-- The versions of the history as the library reads them. -/
def versions (rows : List HistoryRow) : List Int64 := rows.map fun row => castInt row.version

def applied (rows : List HistoryRow) : List MigrationInfo := (sortRows rows).map HistoryRow.info

def sortScripts (scripts : List (Script U)) : List (Script U) :=
  scripts.mergeSort fun a b => a.version ≤ b.version

/-- The scripts whose version is not in the history, in ascending order. -/
def pendingScripts (rows : List HistoryRow) (scripts : List (Script U)) : List (Script U) :=
  (sortScripts scripts).filter fun script => script.version ∉ versions rows

@[simp] theorem queryRaw_apply (sql : String) (params : List BindParameter) :
    outside.conn.queryRaw sql params w = some (select sql w.history, w) := rfl

@[simp] theorem executeStatement_apply (sql : String) (params : List BindParameter) :
    outside.conn.execute_ sql params w = some (w.execute outside sql params) := rfl

@[simp] theorem commit_apply : outside.conn.commit w = some (w.commit outside) := rfl

theorem ensureMigrationTable_apply :
    ensureMigrationTable outside.conn w = some (.ok (), w.ready) := by
  cases hhistory : w.history with
  | some rows => simp [ensureMigrationTable, select_migrationTable, DbWorld.ready, hhistory]
  | none =>
      simp [ensureMigrationTable, select_migrationTable, DbWorld.ready, execute_createTable,
        hhistory]

theorem history_ready : w.ready.history = some w.rows := by
  rw [DbWorld.ready, DbWorld.rows]
  cases hhistory : w.history with
  | some rows => exact hhistory
  | none => rfl

@[simp] theorem versions_append (rows rows' : List HistoryRow) :
    versions (rows ++ rows') = versions rows ++ versions rows' := List.map_append

theorem mem_applied {rows : List HistoryRow} {info : MigrationInfo} :
    info ∈ applied rows ↔ ∃ row ∈ rows, row.info = info := by
  simp [applied, sortRows]

theorem mem_versions_iff {rows : List HistoryRow} {version : Int64} :
    version ∈ versions rows ↔ ∃ info ∈ applied rows, version = info.migrationinfoversion := by
  simp [versions, mem_applied, HistoryRow.info, eq_comm]

theorem isMigrationApplied_applied {m : Type → Type} {migration : Migration m}
    {rows : List HistoryRow} : isMigrationApplied migration (applied rows) = true ↔
      migration.migrationversion ∈ versions rows := by
  rw [mem_versions_iff, isMigrationApplied, List.any_eq_true]
  simp only [sameMigrationVersion, beq_iff_eq]

theorem isMigrationApplied_iff {script : Script U} {rows : List HistoryRow} :
    isMigrationApplied script.migration (applied rows) = true ↔ script.version ∈ versions rows :=
  isMigrationApplied_applied

theorem sortMigrations_map (scripts : List (Script U)) :
    sortMigrations (scripts.map Script.migration) = (sortScripts scripts).map Script.migration := by
  rw [sortMigrations, sortScripts, List.map_mergeSort]
  intro a _ b _
  rfl

theorem findApplied_eq (migration : Migration (Eff (DbWorld U))) (infos : List MigrationInfo) :
    migrationStatus.findApplied migration infos = infos.find? (sameMigrationVersion migration) := by
  induction infos with
  | nil => rfl
  | cons info infos ih =>
      cases hsame : sameMigrationVersion migration info <;>
        simp [migrationStatus.findApplied, hsame, ih]

variable [ShowRow]

theorem decodeRows_values {m : Type → Type} [Monad m] [LawfulMonad m] (rows : List HistoryRow) :
    (listAppliedMigrations.decodeRows (rows.map HistoryRow.values) :
      m (Outcome (List MigrationInfo))) = pure (.ok (rows.map HistoryRow.info)) := by
  induction rows with
  | nil => rfl
  | cons row rows ih =>
      have hrow : listAppliedMigrations.decodeRow row.values = .ok row.info := rfl
      simp [listAppliedMigrations.decodeRows, hrow, ih]

/-- Reading the history gives its rows in order. -/
theorem listAppliedMigrations_apply :
    listAppliedMigrations outside.conn w = some (.ok (applied w.rows), w.ready) := by
  simp [listAppliedMigrations, ensureMigrationTable_apply, history_ready, select_migrations,
    decodeRows_values, applied]

theorem pendingMigrations_apply (scripts : List (Script U)) :
    pendingMigrations outside.conn (scripts.map Script.migration) w =
      some (.ok ((pendingScripts w.rows scripts).map Script.migration), w.ready) := by
  have hfilter : ((sortScripts scripts).map Script.migration).filter (fun migration =>
        !isMigrationApplied migration (applied w.rows)) =
      (pendingScripts w.rows scripts).map Script.migration := by
    rw [List.filter_map, pendingScripts]
    congr 1
    apply List.filter_congr
    intro script _
    simp [← isMigrationApplied_iff]
  simp [pendingMigrations, listAppliedMigrations_apply, sortMigrations_map, hfilter]

theorem migrationStatus_apply (migrations : List (Migration (Eff (DbWorld U)))) :
    migrationStatus outside.conn migrations w = some (.ok ((sortMigrations migrations).map
        (fun migration => match (applied w.rows).find? (sameMigrationVersion migration) with
          | none => .migrationPending migration
          | some info => .migrationApplied migration info) ++
        ((applied w.rows).filter fun info =>
          !migrationStatus.containsVersion info migrations).map .migrationMissing), w.ready) := by
  rw [migrationStatus, bind_apply, listAppliedMigrations_apply]
  simp only [Option.bind_some, findApplied_eq]
  rfl

end Runner

end IdrisOracle
