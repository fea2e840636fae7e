import IdrisOracle.Database

/-! What a run of the pending migrations does, step by step. -/

namespace IdrisOracle

open Effect

variable {U : Type} {outside : Outside} {rows : List HistoryRow} {script : Script U}
  {scripts : List (Script U)} {w w' : DbWorld U} {result : Outcome Unit}

/-- No change of the history is open and its rows are these. -/
def HistoryAt (rows : List HistoryRow) (w : DbWorld U) : Prop :=
  w.session.committed.history = some rows ∧ w.session.working.history = some rows

/-- The row a migration is recorded with. -/
def Script.row (outside : Outside) (script : Script U) (tick : Nat) : HistoryRow :=
  ⟨castDouble script.version, storedText script.name, outside.clock tick⟩

/-- The ways the application of one migration can go. -/
inductive Applied (outside : Outside) (script : Script U) (rows : List HistoryRow)
    (w : DbWorld U) : Outcome Unit → DbWorld U → Prop
  | upFails {err : OracleError} {w' : DbWorld U} (hup : (script.up w.tick w.user).2 = .error err)
      (hlog : w'.log = w.log ++ [.up script.version false])
      (hsession : w'.session = ⟨⟨(script.up w.tick w.user).1.committed, some rows⟩,
        ⟨(script.up w.tick w.user).1.working, some rows⟩⟩) :
      Applied outside script rows w (.error err) w'
  | insertFails {err : OracleError} {w' : DbWorld U} (hup : (script.up w.tick w.user).2 = .ok ())
      (hinsert : outside.failure (w.tick + 1) ≠ none ∨
        ∃ err, insertRow (script.row outside (w.tick + 1)) (some rows) = .error err)
      (hlog : w'.log = w.log ++ [.up script.version true, .insert false])
      (hsession : w'.session = ⟨⟨(script.up w.tick w.user).1.committed, some rows⟩,
        ⟨(script.up w.tick w.user).1.working, some rows⟩⟩) :
      Applied outside script rows w (.error err) w'
  | commitFails {err : OracleError} {w' : DbWorld U} (hup : (script.up w.tick w.user).2 = .ok ())
      (hcommit : outside.failure (w.tick + 2) ≠ none)
      (hlog : w'.log = w.log ++ [.up script.version true, .insert true, .commit none])
      (hsession : w'.session = ⟨⟨(script.up w.tick w.user).1.committed, some rows⟩,
        ⟨(script.up w.tick w.user).1.working,
          some (rows ++ [script.row outside (w.tick + 1)])⟩⟩) :
      Applied outside script rows w (.error err) w'
  | succeeds {w' : DbWorld U} (hup : (script.up w.tick w.user).2 = .ok ())
      (hinsert : insertRow (script.row outside (w.tick + 1)) (some rows) =
        .ok (rows ++ [script.row outside (w.tick + 1)]))
      (hlog : w'.log = w.log ++
        [.up script.version true, .insert true, .commit (some w'.session.committed)])
      (hsession : w'.session = Session.start ⟨(script.up w.tick w.user).1.working,
        some (rows ++ [script.row outside (w.tick + 1)])⟩) :
      Applied outside script rows w (.ok ()) w'

theorem insertRow_ok {row : HistoryRow} {rows' : List HistoryRow}
    (h : insertRow row (some rows) = .ok rows') : rows' = rows ++ [row] := by
  simp only [insertRow] at h
  split at h
  · cases h
  · split at h
    · cases h
    · split at h <;> cases h
      rfl

/-- Up, INSERT and commit, as `runPending` chains them. -/
def DbWorld.apply (outside : Outside) (w : DbWorld U) (script : Script U) :
    Outcome Unit × DbWorld U :=
  match w.act (.up script.version) script.up with
  | (.error err, w₁) => (.error err, w₁)
  | (.ok (), w₁) =>
      match w₁.edit outside .insert (insertRow (script.row outside w₁.tick) w₁.history) with
      | (.error err, w₂) => (.error err, w₂)
      | (.ok (), w₂) => w₂.commit outside

theorem applied_apply (h : HistoryAt rows w) :
    Applied outside script rows w (w.apply outside script).1 (w.apply outside script).2 := by
  obtain ⟨hcommitted, hworking⟩ := h
  cases hup : (script.up w.tick w.user).2 with
  | error err =>
      simp only [DbWorld.apply, DbWorld.act, hup]
      exact .upFails hup rfl (by simp [hcommitted, hworking])
  | ok u =>
      cases hfailure : outside.failure (w.tick + 1) with
      | some err =>
          simp only [DbWorld.apply, DbWorld.act, hup, DbWorld.edit, DbWorld.record, hfailure]
          exact .insertFails hup (.inl (by simp [hfailure])) (by simp [Except.isOk, Except.toBool])
            (by simp [hcommitted, hworking])
      | none =>
          cases hinsert : insertRow (script.row outside (w.tick + 1)) (some rows) with
          | error err =>
              simp only [DbWorld.apply, DbWorld.act, hup, DbWorld.edit, DbWorld.record, hfailure,
                DbWorld.history, hworking, hinsert]
              exact .insertFails hup (.inr ⟨err, hinsert⟩) (by simp [Except.isOk, Except.toBool])
                (by simp [hcommitted])
          | ok rows' =>
              obtain rfl := insertRow_ok hinsert
              cases hcommit : outside.failure (w.tick + 2) with
              | some err =>
                  simp only [DbWorld.apply, DbWorld.act, hup, DbWorld.edit, DbWorld.record,
                    hfailure, DbWorld.history, hworking, hinsert, DbWorld.commit, hcommit]
                  exact .commitFails hup (by simp [hcommit]) (by simp [Except.isOk, Except.toBool])
                    (by simp [hcommitted, Session.dml])
              | none =>
                  simp only [DbWorld.apply, DbWorld.act, hup, DbWorld.edit, DbWorld.record,
                    hfailure, DbWorld.history, hworking, hinsert, DbWorld.commit, hcommit]
                  refine .succeeds hup hinsert ?_ ?_
                  · simp [Except.isOk, Except.toBool, Session.commit, Session.dml]
                  · simp [Session.commit, Session.dml, Session.start]

theorem runPending_cons (outside : Outside) (script : Script U) (scripts : List (Script U))
    (w : DbWorld U) :
    runMigrations.runPending outside.conn ((script :: scripts).map Script.migration) w =
      match w.apply outside script with
      | (.error err, w') => some (.error err, w')
      | (.ok (), w') =>
          runMigrations.runPending outside.conn (scripts.map Script.migration) w' := by
  cases hact : w.act (.up script.version) script.up with
  | mk r w₁ =>
      have hup : script.migration.migrationup outside.conn w = some (r, w₁) := congrArg some hact
      cases r with
      | error err => simp [runMigrations.runPending, DbWorld.apply, hup, hact]
      | ok u =>
          cases hedit : w₁.edit outside .insert
              (insertRow (script.row outside w₁.tick) w₁.history) with
          | mk r w₂ =>
              have hinsert : recordMigration outside.conn script.migration w₁ = some (r, w₂) := by
                rw [recordMigration, executeStatement_apply, execute_insert]
                exact congrArg some hedit
              cases r with
              | error err =>
                  simp [runMigrations.runPending, DbWorld.apply, hup, hact, hedit, hinsert]
              | ok v =>
                  cases hcommit : w₂.commit outside with
                  | mk r w₃ =>
                      cases r <;> simp [runMigrations.runPending, DbWorld.apply, hup, hact, hedit,
                        hinsert, hcommit]

/-- A run of `runPending`: one application after the other, until one fails. -/
inductive RunsPending (outside : Outside) :
    List (Script U) → List HistoryRow → DbWorld U → Outcome Unit → DbWorld U → Prop
  | done {rows : List HistoryRow} {w : DbWorld U} : RunsPending outside [] rows w (.ok ()) w
  | stops {script : Script U} {scripts : List (Script U)} {rows : List HistoryRow}
      {w w' : DbWorld U} {err : OracleError}
      (happlied : Applied outside script rows w (.error err) w') :
      RunsPending outside (script :: scripts) rows w (.error err) w'
  | applies {script : Script U} {scripts : List (Script U)} {rows : List HistoryRow}
      {w w₁ w' : DbWorld U} {result : Outcome Unit}
      (happlied : Applied outside script rows w (.ok ()) w₁)
      (hrest : RunsPending outside scripts (rows ++ [script.row outside (w.tick + 1)]) w₁
        result w') :
      RunsPending outside (script :: scripts) rows w result w'

theorem Applied.historyAt {w₁ : DbWorld U} (h : Applied outside script rows w (.ok ()) w₁) :
    HistoryAt (rows ++ [script.row outside (w.tick + 1)]) w₁ := by
  cases h with
  | succeeds _ _ _ hsession => exact ⟨by rw [hsession]; rfl, by rw [hsession]; rfl⟩

/-- The loop of the runner returns, with a run of the pending migrations. -/
theorem runPending_runsPending (outside : Outside) (scripts : List (Script U))
    (h : HistoryAt rows w) :
    ∃ result w', Runs (runMigrations.runPending outside.conn (scripts.map Script.migration)) w
      result w' ∧ RunsPending outside scripts rows w result w' := by
  induction scripts generalizing rows w with
  | nil => exact ⟨.ok (), w, rfl, .done⟩
  | cons script scripts ih =>
      have happlied : Applied outside script rows w _ _ := applied_apply h
      have hcons := runPending_cons outside script scripts w
      cases happly : w.apply outside script with
      | mk r w₁ =>
          rw [happly] at happlied hcons
          cases r with
          | error err => exact ⟨.error err, w₁, hcons, .stops happlied⟩
          | ok u =>
              obtain ⟨result, w', hrun, hrest⟩ := ih happlied.historyAt
              exact ⟨result, w', hcons.trans hrun, .applies happlied hrest⟩

section Trace

/-- The events of a run that has applied `done` and stopped before the rest. -/
inductive Trace : List (Script U) → List (Script U) → List (MigrationEvent U) → Prop
  | finished : Trace [] [] []
  | upFails {script : Script U} {rest : List (Script U)} :
      Trace [] (script :: rest) [.up script.version false]
  | insertFails {script : Script U} {rest : List (Script U)} :
      Trace [] (script :: rest) [.up script.version true, .insert false]
  | commitFails {script : Script U} {rest : List (Script U)} :
      Trace [] (script :: rest) [.up script.version true, .insert true, .commit none]
  | applied {script : Script U} {done rest : List (Script U)} {db : Db U}
      {events : List (MigrationEvent U)} (hrest : Trace done rest events) :
      Trace (script :: done) rest
        (.up script.version true :: .insert true :: .commit (some db) :: events)

/-- The row is the record of the script. -/
def Records (script : Script U) (row : HistoryRow) : Prop :=
  row.version = castDouble script.version ∧ row.description = storedText script.name

/-- The versions whose up was invoked, in order. -/
def ups (events : List (MigrationEvent U)) : List Int64 :=
  events.filterMap fun event =>
    match event with
    | .up version _ => some version
    | _ => none

def MigrationEvent.Failed : MigrationEvent U → Prop
  | .up _ ok | .down _ ok | .insert ok | .delete ok => ok = false
  | .commit committed => committed = none

theorem Trace.ups_prefix {done rest : List (Script U)} {events : List (MigrationEvent U)}
    (h : Trace done rest events) : ups events <+: (done ++ rest).map Script.version := by
  induction h with
  | finished => exact List.prefix_rfl
  | applied hrest ih => exact List.cons_prefix_cons.mpr ⟨rfl, ih⟩
  | _ => exact List.cons_prefix_cons.mpr ⟨rfl, List.nil_prefix⟩

/-- Nothing follows a failure. -/
theorem Trace.not_failed {done rest : List (Script U)} {events : List (MigrationEvent U)}
    (h : Trace done rest events) : ∀ event ∈ events.dropLast, ¬ event.Failed := by
  induction h with
  | applied hrest ih =>
      intro event hevent
      rename_i events
      cases events with
      | nil =>
          rcases (by simpa using hevent) with rfl | rfl <;> simp [MigrationEvent.Failed]
      | cons first events =>
          rcases (by simpa using hevent) with rfl | rfl | rfl | hevent
          · simp [MigrationEvent.Failed]
          · simp [MigrationEvent.Failed]
          · simp [MigrationEvent.Failed]
          · exact ih event hevent
  | _ => simp [MigrationEvent.Failed]

/-- What a run of the pending migrations has done when it returns. -/
theorem RunsPending.trace (h : RunsPending outside scripts rows w result w')
    (hstart : HistoryAt rows w) :
    ∃ done rest new delta, scripts = done ++ rest ∧ w'.log = w.log ++ delta ∧
      Trace done rest delta ∧ List.Forall₂ Records done new ∧
      w'.session.committed.history = some (rows ++ new) ∧
      (result = .ok () ↔ rest = []) ∧ (rest = [] → HistoryAt (rows ++ new) w') := by
  induction h with
  | done => exact ⟨[], [], [], [], rfl, by simp, .finished, .nil, by simp [hstart.1], by simp,
      by simpa using hstart⟩
  | @stops script scripts rows w w' err happlied =>
      have hcommitted : w'.session.committed.history = some rows := by
        cases happlied <;> simp [*]
      have htail : ∃ delta, w'.log = w.log ++ delta ∧ Trace [] (script :: scripts) delta := by
        cases happlied with
        | upFails _ hlog => exact ⟨_, hlog, .upFails⟩
        | insertFails _ _ hlog => exact ⟨_, hlog, .insertFails⟩
        | commitFails _ _ hlog => exact ⟨_, hlog, .commitFails⟩
      obtain ⟨delta, hlog, htrace⟩ := htail
      exact ⟨[], script :: scripts, [], delta, rfl, hlog, htrace, .nil, by simp [hcommitted],
        by simp, by simp⟩
  | @applies script scripts rows w w₁ w' result happlied hrest ih =>
      obtain ⟨done, rest, new, delta, rfl, hlog, htrace, hnew, hhistory, hresult, hend⟩ :=
        ih happlied.historyAt
      cases happlied with
      | succeeds _ _ hlog₁ _ =>
          refine ⟨script :: done, rest, script.row outside (w.tick + 1) :: new,
            .up script.version true :: .insert true :: .commit (some w₁.session.committed) :: delta,
            rfl, ?_, .applied htrace, .cons ⟨rfl, rfl⟩ hnew, ?_, hresult, ?_⟩
          · rw [hlog, hlog₁, List.append_assoc]
            rfl
          · simpa using hhistory
          · simpa using hend

end Trace

end IdrisOracle
