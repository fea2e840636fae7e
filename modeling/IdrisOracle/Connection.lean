import IdrisOracle.Shim

/-! Connections, transactions and the last error, as the library offers them. -/

namespace IdrisOracle

open Effect

structure Connection where
  ptr : DpiConn
deriving DecidableEq

/-- A text as the C layer receives it. -/
def toC (s : String) : List UInt8 := CString.cut (CString.encode s.toList)

section

variable {W α β : Type}

/-- Sequencing of operations that stops at the first error. -/
def andThen (action : Eff W (Outcome α)) (f : α → Eff W (Outcome β)) : Eff W (Outcome β) := do
  match ← action with
  | .error err => return .error err
  | .ok value => f value

theorem runs_andThen {action : Eff W (Outcome α)} {f : α → Eff W (Outcome β)} {w w' : W}
    {r : Outcome β} :
    Runs (andThen action f) w r w' ↔
      (∃ err, Runs action w (.error err) w' ∧ r = .error err) ∨
        ∃ a w₁, Runs action w (.ok a) w₁ ∧ Runs (f a) w₁ r w' := by
  constructor
  · intro h
    obtain ⟨result, w₁, haction, h⟩ := runs_bind.mp h
    cases result with
    | error err =>
        obtain ⟨rfl, rfl⟩ := runs_pure.mp h
        exact .inl ⟨err, haction, rfl⟩
    | ok a => exact .inr ⟨a, w₁, haction, h⟩
  · rintro (⟨err, haction, rfl⟩ | ⟨a, w₁, haction, hrest⟩)
    · exact haction.bind (Runs.pure _ _)
    · exact haction.bind hrest

/-- A run followed by a pure analysis of its result, which passes an error on. -/
theorem runs_analysis {action : Eff W (Outcome α)} {k : Outcome α → Eff W (Outcome β)}
    {f : α → Outcome β} {w w' : W} {result : Outcome α} (hrun : Runs action w result w')
    (herror : ∀ err, k (.error err) = pure (.error err)) (hok : ∀ a, k (.ok a) = pure (f a)) :
    Runs (action >>= k) w (result >>= f) w' := by
  refine hrun.bind ?_
  cases result with
  | error err =>
      rw [herror]
      exact Runs.pure _ _
  | ok a =>
      rw [hok]
      exact Runs.pure _ _

end

variable {σ : Type} (env : Env σ) {α : Type}

/-- A string of the C layer as Idris receives it. -/
def fromC (ptr : CharPtr) : String :=
  match ptr with
  | none => env.nullString
  | some (_, bytes) => CString.read bytes

/-- Retrieve the most recent Oracle error. -/
def getLastError : Eff (World σ) OracleError := do
  let code ← getErrorCode
  let msg ← getErrorMessage env
  return ⟨code, msg, "unknown", false⟩

/-- The error the globals hold. -/
def World.lastError (w : World σ) : OracleError where
  code := if w.gHasError then w.gLastError.code else 0
  message :=
    if w.gHasError then
      match w.gLastError.message with
      | .null => env.nullString
      | .buffer => w.errorBuffer.message
    else ""
  fnname := "unknown"
  recoverable := false

@[simp] theorem getLastError_apply (w : World σ) :
    getLastError env w = some (w.lastError env, w) := rfl

/-- Success for a zero status and otherwise the last error. -/
def finish (rc : Int32) : Eff (World σ) (Outcome Unit) := do
  if rc = 0 then
    return .ok ()
  else
    let lasterr ← getLastError env
    return .error lasterr

@[simp] theorem finish_apply (rc : Int32) (w : World σ) :
    finish env rc w = some (if rc = 0 then .ok () else .error (w.lastError env), w) := by
  by_cases hrc : rc = 0 <;> simp [finish, hrc]

def connectString (cfg : ConnectInfo) : String :=
  cfg.host ++ ":" ++ toString cfg.port ++ "/" ++ cfg.service

/-- Establish a connection to Oracle. -/
def connect (cfg : ConnectInfo) : Eff (World σ) (Outcome Connection) := do
  match ← oracleConnect env (toC cfg.username) (toC cfg.password) (toC (connectString cfg)) with
  | none =>
      let lasterr ← getLastError env
      return .error lasterr
  | some ptr => return .ok ⟨ptr⟩

def disconnect (conn : Connection) : Eff (World σ) Unit := oracleDisconnect env conn.ptr

/-- Run an action on a new connection and close the connection afterwards. -/
def withConnection (cfg : ConnectInfo) (action : Connection → Eff (World σ) (Outcome α)) :
    Eff (World σ) (Outcome α) :=
  bracket (connect env cfg)
    (fun conn =>
      match conn with
      | .error err => pure (.error err)
      | .ok conn => action conn)
    (fun conn =>
      match conn with
      | .error _ => pure ()
      | .ok conn => disconnect env conn)

/-- Commit the current transaction on a connection. -/
def commit (conn : Connection) : Eff (World σ) (Outcome Unit) := do
  let rc ← oracleCommit env conn.ptr
  finish env rc

/-- Roll back the current transaction on a connection. -/
def rollback (conn : Connection) : Eff (World σ) (Outcome Unit) := do
  let rc ← oracleRollback env conn.ptr
  finish env rc

/-- Execute an action inside a transaction. -/
def withTransaction (conn : Connection) (action : Eff (World σ) (Outcome α)) :
    Eff (World σ) (Outcome α) := do
  match ← action with
  | .error err =>
      let _ ← rollback env conn
      return .error err
  | .ok value =>
      match ← commit env conn with
      | .error err => return .error err
      | .ok () => return .ok value

end IdrisOracle
