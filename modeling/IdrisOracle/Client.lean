import IdrisOracle.LastError

/-! Clients that use the handles the library gave them, and the errors they see. -/

namespace IdrisOracle

open Effect

variable {σ : Type} {env : Env σ}

/-- A call of the library by its client. -/
inductive Operation where
  | connect (cfg : ConnectInfo)
  | disconnect (conn : Connection)
  | prepare (conn : Connection) (sql : String)
  | release (stmt : Statement)
  | bindOne (stmt : Statement) (param : BindParameter)
  | execute (stmt : Statement)
  | fetchRow (stmt : Statement)
  | commit (conn : Connection)
  | rollback (conn : Connection)

/-- The handles a client holds. -/
structure Handles where
  conns : List Connection
  stmts : List Statement

/-- Run an operation and hand out what its result gives the client. -/
def handOut {α : Type} (give : α → Handles) (m : Eff (World σ) (Outcome α)) :
    Eff (World σ) (Outcome Handles) :=
  andThen m fun a => pure (.ok (give a))

def Operation.run (env : Env σ) : Operation → Eff (World σ) (Outcome Handles)
  | .connect cfg => handOut (fun conn => ⟨[conn], []⟩) (IdrisOracle.connect env cfg)
  | .disconnect conn => do
      IdrisOracle.disconnect env conn
      return .ok ⟨[], []⟩
  | .prepare conn sql => handOut (fun stmt => ⟨[], [stmt]⟩) (IdrisOracle.prepare env conn sql)
  | .release stmt => do
      stmt.release env
      return .ok ⟨[], []⟩
  | .bindOne stmt param => handOut (fun _ => ⟨[], []⟩) (IdrisOracle.bindOne env stmt param)
  | .execute stmt => handOut (fun _ => ⟨[], []⟩) (IdrisOracle.execute env stmt)
  | .fetchRow stmt => handOut (fun _ => ⟨[], []⟩) (IdrisOracle.fetchRow env stmt)
  | .commit conn => handOut (fun _ => ⟨[], []⟩) (IdrisOracle.commit env conn)
  | .rollback conn => handOut (fun _ => ⟨[], []⟩) (IdrisOracle.rollback env conn)

/-- The operation uses only handles its client holds. -/
def Operation.Allowed (handles : Handles) : Operation → Prop
  | .connect _ => True
  | .disconnect conn | .prepare conn _ | .commit conn | .rollback conn => conn ∈ handles.conns
  | .release stmt | .bindOne stmt _ | .execute stmt | .fetchRow stmt => stmt ∈ handles.stmts

def Handles.add (handles : Handles) : Outcome Handles → Handles
  | .error _ => handles
  | .ok given => ⟨handles.conns ++ given.conns, handles.stmts ++ given.stmts⟩

/-- A world and the handles of a client after some history of library calls. -/
inductive Reachable (env : Env σ) : World σ → Handles → Prop
  | initial (odpi : σ) : Reachable env (.initial odpi) ⟨[], []⟩
  | call {w w' : World σ} {handles : Handles} {op : Operation} {r : Outcome Handles} :
      Reachable env w handles → op.Allowed handles → Runs (op.run env) w r w' →
      Reachable env w' (handles.add r)

theorem runs_handOut_error {α : Type} {give : α → Handles} {m : Eff (World σ) (Outcome α)}
    {w w' : World σ} {err : OracleError} (hrun : Runs (handOut give m) w (.error err) w') :
    Runs m w (.error err) w' := by
  rcases runs_andThen.mp hrun with ⟨err', hm, heq⟩ | ⟨a, w₁, -, hreturn⟩
  · cases heq
    exact hm
  · simp at hreturn

theorem grows_run (op : Operation) : Grows (op.run env) := by
  have F := follows_extends env
  have hgive : ∀ {α : Type} {give : α → Handles} {m : Eff (World σ) (Outcome α)},
      Grows m → Grows (handOut give m) := fun hm => F.andThen hm fun _ => grows_pure _
  cases op with
  | connect cfg => exact hgive (preserves_connect F trivial cfg)
  | disconnect conn => exact F.seq (preserves_odpiRelease F trivial) fun _ => grows_pure _
  | prepare conn sql => exact hgive (preserves_prepare F trivial conn sql)
  | release stmt => exact F.seq (preserves_oracleReleaseStmt F trivial _) fun _ => grows_pure _
  | bindOne stmt param => exact hgive (preserves_bindOne F trivial trivial stmt param)
  | execute stmt => exact hgive (preserves_execute F trivial stmt)
  | fetchRow stmt => exact hgive (grows_fetchRow stmt)
  | commit conn => exact hgive (preserves_commit F trivial conn)
  | rollback conn => exact hgive (preserves_rollback F trivial conn)

section Connect

@[reducible] def connectReq (cfg : ConnectInfo) : Req :=
  .connCreate (counted (toC cfg.username)) (counted (toC cfg.password))
    (counted (toC (connectString cfg)))

theorem runs_oracleInitContext {w w' : World σ} {ready : Bool}
    (hrun : Runs (oracleInitContext env) w ready w') :
    (ready = false ∧ ∃ failure, (env.call .contextCreate w.odpi).1 = .error failure ∧
        w' = (w.called env .contextCreate).captured
          ⟨failure.code, .buffer, failure.messageLength⟩) ∨
      (ready = true ∧ w'.gContext = true) := by
  cases hcontext : w.gContext with
  | true =>
      simp [Runs, oracleInitContext, hcontext] at hrun
      obtain ⟨rfl, rfl⟩ := hrun
      exact .inr ⟨rfl, hcontext⟩
  | false =>
      cases hcall : (env.call .contextCreate w.odpi).1 with
      | error failure =>
          simp [Runs, oracleInitContext, hcontext, hcall] at hrun
          exact .inl ⟨hrun.1, failure, rfl, hrun.2.symm⟩
      | ok reply =>
          simp [Runs, oracleInitContext, hcontext, hcall] at hrun
          obtain ⟨rfl, rfl⟩ := hrun
          exact .inr ⟨rfl, rfl⟩

theorem runs_connect {cfg : ConnectInfo} {w w' : World σ} {r : Outcome Connection}
    (hrun : Runs (connect env cfg) w r w') :
    (r = .error (w'.lastError env) ∧ ∃ failure,
        (env.call .contextCreate w.odpi).1 = .error failure ∧
        w' = (w.called env .contextCreate).captured
          ⟨failure.code, .buffer, failure.messageLength⟩) ∨
      ∃ w₁, Runs (oracleInitContext env) w true w₁ ∧ w₁.gContext = true ∧
        ((∃ failure, (env.call (connectReq cfg) w₁.odpi).1 = .error failure ∧
            w' = (w₁.called env (connectReq cfg)).captured ⟨0, .null, 0⟩ ∧
            r = .error (w'.lastError env)) ∨
          ∃ conn, (env.call (connectReq cfg) w₁.odpi).1 = .ok conn ∧
            w' = w₁.called env (connectReq cfg) ∧ r = .ok ⟨conn⟩) := by
  obtain ⟨ptr, w₂, hconnect, hrest⟩ := runs_bind.mp hrun
  obtain ⟨ready, w₁, hinit, hcreate⟩ := runs_bind.mp hconnect
  rcases runs_oracleInitContext hinit with ⟨rfl, failure, hcall, rfl⟩ | ⟨rfl, hcontext⟩
  · obtain ⟨rfl, rfl⟩ := runs_pure.mp hcreate
    simp [Runs] at hrest
    obtain ⟨rfl, rfl⟩ := hrest
    exact .inl ⟨rfl, failure, hcall, rfl⟩
  · refine .inr ⟨w₁, hinit, hcontext, ?_⟩
    cases hcall : (env.call (connectReq cfg) w₁.odpi).1 with
    | error failure =>
        simp [Runs, hcall] at hcreate
        obtain ⟨rfl, rfl⟩ := hcreate
        simp [Runs] at hrest
        obtain ⟨rfl, rfl⟩ := hrest
        exact .inl ⟨failure, rfl, rfl, rfl⟩
    | ok conn =>
        simp [Runs, hcall] at hcreate
        obtain ⟨rfl, rfl⟩ := hcreate
        obtain ⟨rfl, rfl⟩ := runs_pure.mp hrest
        exact .inr ⟨conn, rfl, rfl, rfl⟩

/-- The ODPI-C context is there once a connection has been made. -/
theorem context_connect {cfg : ConnectInfo} {w w' : World σ} {conn : Connection}
    (hrun : Runs (connect env cfg) w (.ok conn) w') : w'.gContext = true := by
  rcases runs_connect hrun with ⟨heq, -⟩ | ⟨w₁, -, hcontext, ⟨_, -, -, heq⟩ | ⟨_, -, rfl, -⟩⟩
  · cases heq
  · cases heq
  · exact hcontext

end Connect

/-- A client that holds a handle has a context. -/
theorem Reachable.context {w : World σ} {handles : Handles} (h : Reachable env w handles)
    (hheld : handles.conns ≠ [] ∨ handles.stmts ≠ []) : w.gContext = true := by
  induction h with
  | initial odpi => simp at hheld
  | @call w w' handles op r hreach hallowed hrun ih =>
      obtain ⟨-, hcontext⟩ := (grows_run op).of_runs hrun
      by_cases hold : handles.conns ≠ [] ∨ handles.stmts ≠ []
      · exact hcontext (ih hold)
      · obtain ⟨hconns, hstmts⟩ : handles.conns = [] ∧ handles.stmts = [] := by
          simpa [not_or] using hold
        cases op with
        | connect cfg =>
            rcases runs_andThen.mp hrun with ⟨err, -, rfl⟩ | ⟨conn, w₁, hconnect, hreturn⟩
            · exact absurd hheld hold
            · obtain ⟨-, rfl⟩ := runs_pure.mp hreturn
              exact context_connect hconnect
        | _ => simp [Operation.Allowed, hconns, hstmts] at hallowed

theorem blames_run {op : Operation} (hop : ∀ cfg, op ≠ .connect cfg) : Blames (op.run env) := by
  have hgive : ∀ {α : Type} {give : α → Handles} {m : Eff (World σ) (Outcome α)},
      Blames m → Blames (handOut give m) := fun hm w err w' delta hcontext hrun =>
    hm w err w' delta hcontext (runs_handOut_error hrun)
  cases op with
  | connect cfg => exact absurd rfl (hop cfg)
  | disconnect conn =>
      intro w err w' delta _ hrun
      simp [Runs, Operation.run, disconnect, oracleDisconnect] at hrun
  | prepare conn sql => exact hgive (blames_prepare conn sql)
  | release stmt =>
      intro w err w' delta _ hrun
      simp [Runs, Operation.run, Statement.release, oracleReleaseStmt] at hrun
  | bindOne stmt param => exact hgive (blames_bindOne stmt param)
  | execute stmt => exact hgive (reports_oracleExecuteStmt _).finish
  | fetchRow stmt => exact hgive (blames_fetchRow stmt)
  | commit conn => exact hgive (reports_oracleCommit _).finish
  | rollback conn => exact hgive (reports_oracleRollback _).finish

/-- The failing call is the one that makes the connection. -/
def Operation.Creates : Operation → Req → Prop
  | .connect cfg, req => req = connectReq cfg
  | _, _ => False

theorem DpiError.number_ne_zero (failure : DpiError) : failure.number ≠ 0 := by
  cases failure with
  | oracle num text => exact num.2
  | odpi num text =>
      obtain ⟨n, hlow, hhigh⟩ := num
      intro hzero
      have hnat : (Int32.ofNat n).toInt = 0 := congrArg Int32.toInt hzero
      rw [Int32.toInt_ofNat_of_lt (by omega)] at hnat
      omega

/-- A failed `dpiConn_create` leaves an empty error. -/
theorem lastError_captured_null (w : World σ) :
    ((w.captured ⟨0, .null, 0⟩).lastError env).code = 0 := by
  simp [World.lastError, World.captured]

theorem connect_matches_iff {cfg : ConnectInfo} {w w' : World σ} {err : OracleError}
    {delta : List Event} {req : Req} {failure : DpiError}
    (hrun : Runs (connect env cfg) w (.error err) w') (hdelta : w'.log = w.log ++ delta)
    (hlast : lastStep delta = some (.call req (.error failure))) :
    Matches err failure ↔ req ≠ connectReq cfg ∧ failure.Trimmed := by
  rcases runs_connect hrun with ⟨heq, failure', hcall, rfl⟩ |
    ⟨w₁, hinit, -, ⟨failure', hcall, rfl, heq⟩ | ⟨conn, -, -, heq⟩⟩
  · obtain rfl : delta = [.call .contextCreate (.error failure')] := by
      simpa [hcall, eq_comm] using hdelta
    cases hlast
    cases heq
    have hrepeats : Repeats (((w.called env .contextCreate).captured
        ⟨failure.code, .buffer, failure.messageLength⟩).lastError env) failure :=
      (holds_captured _ (by simp [World.called, ErrorBuffer.after, hcall])).repeats_lastError
    simpa using hrepeats.matches_iff
  · obtain ⟨hext, -⟩ := (preserves_oracleInitContext (follows_extends env) trivial).of_runs hinit
    obtain ⟨before, hbefore⟩ := hext
    obtain rfl : delta = before ++ [.call (connectReq cfg) (.error failure')] := by
      simpa [hcall, hbefore, eq_comm] using hdelta
    rw [lastStep_concat] at hlast
    cases hlast
    cases heq
    have hempty :
        (((w₁.called env (connectReq cfg)).captured ⟨0, .null, 0⟩).lastError env).code = 0 :=
      lastError_captured_null _
    have hmismatch : ¬ Matches (((w₁.called env (connectReq cfg)).captured
        ⟨0, .null, 0⟩).lastError env) failure := fun hmatches =>
      failure.number_ne_zero (hmatches.1.symm.trans hempty)
    simpa using hmismatch
  · cases heq

/-- The last error is the failure of the last call, unless that call makes the connection or
the text ends in whitespace that ODPI-C does not report. -/
theorem Operation.run_matches_iff {w w' : World σ} {handles : Handles} {op : Operation}
    {err : OracleError} {delta : List Event} {req : Req} {failure : DpiError}
    (hreach : Reachable env w handles) (hallowed : op.Allowed handles)
    (hrun : Runs (op.run env) w (.error err) w') (hdelta : w'.log = w.log ++ delta)
    (hlast : lastStep delta = some (.call req (.error failure))) :
    Matches err failure ↔ ¬ op.Creates req ∧ failure.Trimmed := by
  by_cases hop : ∃ cfg, op = .connect cfg
  · obtain ⟨cfg, rfl⟩ := hop
    exact connect_matches_iff (runs_handOut_error hrun) hdelta hlast
  · have hcreates : ¬ op.Creates req := by
      cases op with
      | connect cfg => exact absurd ⟨cfg, rfl⟩ hop
      | _ => exact id
    have hcontext : w.gContext = true := by
      refine hreach.context ?_
      cases op with
      | connect cfg => exact absurd ⟨cfg, rfl⟩ hop
      | disconnect | prepare | commit | rollback => exact .inl (List.ne_nil_of_mem hallowed)
      | release | bindOne | execute | fetchRow => exact .inr (List.ne_nil_of_mem hallowed)
    have hrepeats : Repeats err failure :=
      blames_run (fun cfg heq => hop ⟨cfg, heq⟩) w err w' delta hcontext hrun hdelta req failure
        hlast
    rw [hrepeats.matches_iff]
    exact (and_iff_right hcreates).symm

/-- A text of two lines, as OCI writes it. -/
def rolledBack : DpiError := .oracle ⟨2091, by decide⟩ "ORA-02091: transaction rolled back\n"

def endOfFile : DpiError := .oracle ⟨3113, by decide⟩ "ORA-03113: end-of-file"

/-- A database that knows one password, refuses every commit and loses its connection then. -/
def lockedEnv : Env Unit where
  call
    | .contextCreate, s => (.ok (), s)
    | .connCreate _ password _, s =>
        if password = toC "tiger" then (.ok ⟨1⟩, s)
        else (.error (.oracle ⟨1017, by decide⟩ "ORA-01017: invalid credential"), s)
    | .connCommit _, s => (.error rolledBack, s)
    | _, s => (.error endOfFile, s)
  release _ s := s
  storeVar _ _ s := s
  malloc _ _ s := (true, s)
  nullString := ""

def lockedConnect (password : String) : Operation :=
  .connect ⟨"scott", password, "localhost", 1521, "FREE"⟩

theorem reachable_lockedEnv : ∃ w, Reachable lockedEnv w ⟨[⟨⟨1⟩⟩], []⟩ := by
  have hconnect : ∃ w, Runs ((lockedConnect "tiger").run lockedEnv) (World.initial ())
      (.ok ⟨[⟨⟨1⟩⟩], []⟩) w := ⟨_, rfl⟩
  obtain ⟨w, hconnect⟩ := hconnect
  have hallowed : (lockedConnect "tiger").Allowed ⟨[], []⟩ := trivial
  exact ⟨w, .call (.initial ()) hallowed hconnect⟩

/-- A wrong password is reported with code 0, and a failed commit with a line end of OCI. -/
theorem lockedEnv_mismatches :
    (∃ err w', Runs ((lockedConnect "lion").run lockedEnv) (World.initial ()) (.error err) w' ∧
      Reachable lockedEnv (World.initial ()) ⟨[], []⟩ ∧
      lastStep w'.log = some (.call (connectReq ⟨"scott", "lion", "localhost", 1521, "FREE"⟩)
        (.error (.oracle ⟨1017, by decide⟩ "ORA-01017: invalid credential"))) ∧
      err.code = 0 ∧
      ¬ Matches err (.oracle ⟨1017, by decide⟩ "ORA-01017: invalid credential")) ∧
    ∃ w err w', Reachable lockedEnv w ⟨[⟨⟨1⟩⟩], []⟩ ∧
      Runs ((Operation.commit ⟨⟨1⟩⟩).run lockedEnv) w (.error err) w' ∧
      w'.log = w.log ++ [.call (.connCommit ⟨1⟩) (.error rolledBack)] ∧
      err.code = 2091 ∧ ¬ Matches err rolledBack := by
  refine ⟨⟨_, _, rfl, .initial (), rfl, rfl, ?_⟩, ?_⟩
  · rintro ⟨hcode, -⟩
    cases hcode
  · obtain ⟨w, hreach⟩ := reachable_lockedEnv
    have hcontext := hreach.context (.inl (List.cons_ne_nil _ _))
    have hcall : (lockedEnv.call (.connCommit ⟨1⟩) w.odpi).1 = .error rolledBack := rfl
    have hrepeats : Repeats ((w.called lockedEnv (.connCommit ⟨1⟩)).capturedLast.lastError
        lockedEnv) rolledBack := (holds_called hcontext hcall).repeats_lastError
    refine ⟨w, _, (w.called lockedEnv (.connCommit ⟨1⟩)).capturedLast, hreach, ?_, ?_,
      hrepeats.1, ?_⟩
    · simp [Runs, Operation.run, handOut, andThen, commit, oracleCommit, lockedEnv]
    · rw [World.capturedLast_log, World.called_log, hcall]
    · rw [hrepeats.matches_iff]
      intro htrimmed
      exact absurd (htrimmed '\n' rfl) (by decide)

theorem run_matches_iff_rollback :
    ∃ w w' err, Reachable lockedEnv w ⟨[⟨⟨1⟩⟩], []⟩ ∧
      Runs ((Operation.rollback ⟨⟨1⟩⟩).run lockedEnv) w (.error err) w' ∧
      (Matches err endOfFile ↔
        ¬ (Operation.rollback ⟨⟨1⟩⟩).Creates (.connRollback ⟨1⟩) ∧ endOfFile.Trimmed) := by
  obtain ⟨w, hreach⟩ := reachable_lockedEnv
  have hrollback : Runs ((Operation.rollback ⟨⟨1⟩⟩).run lockedEnv) w
      (.error ((w.called lockedEnv (.connRollback ⟨1⟩)).capturedLast.lastError lockedEnv))
      (w.called lockedEnv (.connRollback ⟨1⟩)).capturedLast := by
    simp [Runs, Operation.run, handOut, andThen, rollback, oracleRollback, lockedEnv]
  refine ⟨w, _, _, hreach, hrollback, ?_⟩
  exact Operation.run_matches_iff hreach (List.mem_singleton.mpr rfl) hrollback
    (World.capturedLast_log _) rfl

end IdrisOracle
