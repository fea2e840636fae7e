import IdrisOracle.Decode

/-! Statements: prepare, bind, execute, fetch and release. -/

namespace IdrisOracle

open Effect

structure Statement where
  ptr : OracleStmt
deriving DecidableEq

variable {σ : Type} (env : Env σ) {α : Type}

/-- Prepare a SQL statement. -/
def prepare (conn : Connection) (sql : String) : Eff (World σ) (Outcome Statement) := do
  match ← oraclePrepareStmt env conn.ptr (toC sql) with
  | none =>
      let lasterr ← getLastError env
      return .error lasterr
  | some ptr => return .ok ⟨ptr⟩

def Statement.release (stmt : Statement) : Eff (World σ) Unit := oracleReleaseStmt env stmt.ptr

/-- Prepare a statement, run an action on it and release it afterwards. -/
def withStatement (conn : Connection) (sql : String)
    (action : Statement → Eff (World σ) (Outcome α)) : Eff (World σ) (Outcome α) :=
  bracket (prepare env conn sql)
    (fun stmt =>
      match stmt with
      | .error err => pure (.error err)
      | .ok stmt => action stmt)
    (fun stmt =>
      match stmt with
      | .error _ => pure ()
      | .ok stmt => stmt.release env)

/-- Execute a prepared statement. -/
def execute (stmt : Statement) : Eff (World σ) (Outcome Unit) := do
  let rc ← oracleExecuteStmt env stmt.ptr
  finish env rc

/-- The function of the C layer that binds a value, with the arguments Idris gives it. -/
def bindStatus (stmt : OracleStmt) (name : List UInt8) : OracleValue → Eff (World σ) Int32
  | .oracleNull => oracleBindNull env stmt name
  | .oracleString s => oracleBindString env stmt name (toC s)
  | .oracleNumber d => oracleBindDouble env stmt name d
  | .oracleBinaryFloat f => oracleBindBinaryFloat env stmt name f
  | .oracleBinaryDouble d => oracleBindBinaryDouble env stmt name d
  | .oracleBool b => oracleBindBool env stmt name (if b then 1 else 0)
  | .oracleRaw b => oracleBindRaw env stmt name (toC (hexEncode b))
  | .oracleClob s => oracleBindClob env stmt name (toC s)
  | .oracleBlob b => oracleBindBlob env stmt name (toC (String.ofList (CString.decode b)))
  | .oracleDate ts =>
      oracleBindDate env stmt name ts.year.toInt16 ts.month.toInt8.toUInt8 ts.day.toInt8.toUInt8
        ts.hour.toInt8.toUInt8 ts.minute.toInt8.toUInt8 ts.second.toInt8.toUInt8
  | .oracleTimestamp ts =>
      oracleBindTimestamp env stmt name ts.year.toInt16 ts.month.toInt8.toUInt8
        ts.day.toInt8.toUInt8 ts.hour.toInt8.toUInt8 ts.minute.toInt8.toUInt8
        ts.second.toInt8.toUInt8 ts.nanosecond.toUInt32
  | .oracleTimestampTZ ts =>
      oracleBindTimestampTZ env stmt name ts.year.toInt16 ts.month.toInt8.toUInt8
        ts.day.toInt8.toUInt8 ts.hour.toInt8.toUInt8 ts.minute.toInt8.toUInt8
        ts.second.toInt8.toUInt8 ts.nanosecond.toUInt32 ts.tzHourOffset.toInt8
        ts.tzMinuteOffset.toInt8
  | .oracleIntervalYM iv => oracleBindIntervalYM env stmt name iv.years iv.months
  | .oracleIntervalDS iv =>
      oracleBindIntervalDS env stmt name iv.days iv.hours iv.minutes iv.seconds iv.nanoseconds

/-- Bind a single named parameter. -/
def bindOne (stmt : Statement) (param : BindParameter) : Eff (World σ) (Outcome Unit) := do
  let rc ← bindStatus env stmt.ptr (toC param.name) param.value
  finish env rc

/-- Bind a collection of named parameters. -/
def bind (stmt : Statement) : List BindParameter → Eff (World σ) (Outcome Unit)
  | [] => return .ok ()
  | x :: xs => do
      match ← bindOne env stmt x with
      | .error err => return .error err
      | .ok () => bind stmt xs

theorem toInt_add_one {index count : Int32} (h : index < count) :
    (index + 1).toInt = index.toInt + 1 := by
  have hlt := Int32.lt_iff_toInt_lt.mp h
  have hcount := count.toInt_lt
  have hindex := index.le_toInt
  have hone : (1 : Int32).toInt = 1 := rfl
  rw [Int32.toInt_add, hone]
  exact Int.bmod_eq_of_le (by norm_num at *; omega) (by norm_num at *; omega)

theorem toInt_toInt32 {n : UInt32} : n.toInt32.toInt = (n.toNat : Int).bmod (2 ^ 32) :=
  BitVec.toInt_eq_toNat_bmod n.toBitVec

theorem toInt32_neg {n : UInt32} (h : 2 ^ 31 ≤ n.toNat) : n.toInt32 < 0 := by
  have hlt := n.toNat_lt
  have hcond : n.toInt32.toInt = if 2 * n.toNat < 2 ^ 32 then (n.toNat : Int)
      else (n.toNat : Int) - (2 ^ 32 : Nat) :=
    BitVec.toInt_eq_toNat_cond n.toBitVec
  have hzero : (0 : Int32).toInt = 0 := rfl
  rw [Int32.lt_iff_toInt_lt, hcond, if_neg (by omega), hzero]
  omega

theorem toNat_toUInt32 {i : Int32} (h : 0 ≤ i.toInt) : (i.toUInt32.toNat : Int) = i.toInt := by
  have hlt := i.toUInt32.toNat_lt
  have hcond : i.toInt = if 2 * i.toUInt32.toNat < 2 ^ 32 then (i.toUInt32.toNat : Int)
      else (i.toUInt32.toNat : Int) - (2 ^ 32 : Nat) :=
    BitVec.toInt_eq_toNat_cond i.toBitVec
  split at hcond <;> omega

theorem toNat_position {index count : Int32} (hindex : 0 ≤ index.toInt) (h : index < count) :
    ((position index).toNat : Int) = index.toInt + 1 := by
  have hnext := toInt_add_one h
  rw [position, toNat_toUInt32 (by omega), hnext]

/-- Decode the columns from `index` on; `acc` holds the values before it in reverse. -/
def fetchRow.go (stmt : Statement) (count index : Int32) (acc : List OracleValue) :
    Eff (World σ) (Outcome (List OracleValue)) :=
  if _h : index ≥ count then
    return .ok acc.reverse
  else do
    match ← decodeColumn env stmt.ptr index with
    | .error err => return .error err
    | .ok v => go stmt count (index + 1) (v :: acc)
termination_by (count.toInt - index.toInt).toNat
decreasing_by
  have hlt : index < count := Int32.not_le.mp _h
  have hnext := toInt_add_one hlt
  have := Int32.lt_iff_toInt_lt.mp hlt
  omega

theorem fetchRow.go_done {stmt : Statement} {count index : Int32} {acc : List OracleValue}
    (h : index ≥ count) : fetchRow.go env stmt count index acc = pure (.ok acc.reverse) := by
  rw [fetchRow.go, dif_pos h]

theorem fetchRow.go_next {stmt : Statement} {count index : Int32} {acc : List OracleValue}
    (h : index < count) :
    fetchRow.go env stmt count index acc =
      andThen (decodeColumn env stmt.ptr index) fun v =>
        fetchRow.go env stmt count (index + 1) (v :: acc) := by
  rw [fetchRow.go, dif_neg (Int32.not_le.mpr h), andThen]
  congr 1
  funext result
  cases result <;> rfl

/-- Fetch a single row from the current result set. -/
def fetchRow (stmt : Statement) : Eff (World σ) (Outcome (Option (List OracleValue))) := do
  let rc ← oracleFetch env stmt.ptr
  if rc < 0 then
    let lasterr ← getLastError env
    return .error lasterr
  else if rc = 0 then
    return .ok none
  else
    let count ← oracleColumnCount env stmt.ptr
    match ← fetchRow.go env stmt count 0 [] with
    | .error err => return .error err
    | .ok values => return .ok (some values)

/-- The fetch loop; `fuel` bounds the rows it may fetch. -/
def fetchRaw.loop (stmt : Statement) :
    Nat → List (List OracleValue) → Eff (World σ) (Outcome (List (List OracleValue)))
  | 0, _ => fun _ => none
  | fuel + 1, acc => do
      match ← fetchRow env stmt with
      | .error err => return .error err
      | .ok none => return .ok acc.reverse
      | .ok (some values) => fetchRaw.loop stmt fuel (values :: acc)

/-- Fetch all remaining rows from the current result set. -/
def fetchRaw (fuel : Nat) (stmt : Statement) : Eff (World σ) (Outcome (List (List OracleValue))) :=
  fetchRaw.loop env stmt fuel []

/-- Execute a SQL query and return all rows. -/
def query (fuel : Nat) (conn : Connection) (sql : String) (params : List BindParameter) :
    Eff (World σ) (Outcome (List (List OracleValue))) :=
  withStatement env conn sql fun stmt => do
    match ← bind env stmt params with
    | .error err => return .error err
    | .ok () =>
        match ← execute env stmt with
        | .error err => return .error err
        | .ok () => fetchRaw env fuel stmt

/-- Execute a SQL query while managing the prepared statement. -/
def queryRaw (fuel : Nat) (conn : Connection) (sql : String) (params : List BindParameter) :
    Eff (World σ) (Outcome (List (List OracleValue))) :=
  withStatement env conn sql fun stmt =>
    andThen (bind env stmt params) fun _ =>
      andThen (execute env stmt) fun _ =>
        fetchRaw env fuel stmt

/-- The two ways to run a query do the same. -/
theorem query_eq_queryRaw : query env = queryRaw env := by
  funext fuel conn sql params
  unfold query queryRaw
  congr 1
  funext stmt
  unfold andThen
  congr 1
  funext bound
  rcases bound with err | u
  · rfl
  · simp only []
    congr 1
    funext executed
    rcases executed with err | v <;> rfl

section OneRow

variable {env} {conn : Connection} {sql : String} {params : List BindParameter}
  {stmt : Statement} {value : OracleValue} {w₀ w₁ w₂ w₃ w₄ w₅ w₆ w₇ w₈ : World σ}

theorem runs_fetchRow_one (hfetch : Runs (oracleFetch env stmt.ptr) w₀ 1 w₁)
    (hcount : Runs (oracleColumnCount env stmt.ptr) w₁ 1 w₂)
    (hvalue : Runs (decodeColumn env stmt.ptr 0) w₂ (.ok value) w₃) :
    Runs (fetchRow env stmt) w₀ (.ok (some [value])) w₃ := by
  have hgo : Runs (fetchRow.go env stmt 1 0 []) w₂ (.ok [value]) w₃ := by
    rw [fetchRow.go_next env (by decide)]
    refine runs_andThen.mpr (.inr ⟨value, w₃, hvalue, ?_⟩)
    rw [fetchRow.go_done env (by decide)]
    exact Runs.pure _ _
  exact runs_bind.mpr ⟨1, w₁, hfetch, runs_bind.mpr ⟨1, w₂, hcount, hgo.bind (Runs.pure _ _)⟩⟩

/-- A query of one row and one column. -/
theorem runs_queryRaw_one (hprepare : Runs (prepare env conn sql) w₀ (.ok stmt) w₁)
    (hbind : Runs (bind env stmt params) w₁ (.ok ()) w₂)
    (hexecute : Runs (execute env stmt) w₂ (.ok ()) w₃)
    (hfetch : Runs (oracleFetch env stmt.ptr) w₃ 1 w₄)
    (hcount : Runs (oracleColumnCount env stmt.ptr) w₄ 1 w₅)
    (hvalue : Runs (decodeColumn env stmt.ptr 0) w₅ (.ok value) w₆)
    (hend : Runs (oracleFetch env stmt.ptr) w₆ 0 w₇)
    (hrelease : Runs (stmt.release env) w₇ () w₈) :
    Runs (queryRaw env 2 conn sql params) w₀ (.ok [[value]]) w₈ := by
  have hlast : Runs (fetchRow env stmt) w₆ (.ok none) w₇ :=
    runs_bind.mpr ⟨0, w₇, hend, Runs.pure _ _⟩
  have hloop : Runs (fetchRaw env 2 stmt) w₃ (.ok [[value]]) w₇ :=
    (runs_fetchRow_one hfetch hcount hvalue).bind (hlast.bind (Runs.pure _ _))
  refine runs_bracket.mpr ⟨.ok stmt, w₁, w₇, hprepare, ?_, hrelease⟩
  refine runs_andThen.mpr (.inr ⟨(), w₂, hbind, ?_⟩)
  exact runs_andThen.mpr (.inr ⟨(), w₃, hexecute, hloop⟩)

end OneRow

/-- Execute a statement that returns no rows. -/
def execute_ (conn : Connection) (sql : String) (params : List BindParameter) :
    Eff (World σ) (Outcome Unit) :=
  withStatement env conn sql fun stmt =>
    andThen (bind env stmt params) fun _ =>
      execute env stmt

end IdrisOracle
