import IdrisOracle.Connection
import IdrisOracle.Session

/-! What a transaction leaves committed, and what it leaves for later commits. -/

namespace IdrisOracle

open Effect

variable {σ Db α : Type} {env : Env σ} {conn : Connection}

/-- ODPI-C seen as a database session of one connection. -/
structure SessionEnv (env : Env σ) (Db : Type) (conn : Connection) where
  session : σ → Session Db
  commit_ok : ∀ s, (env.call (.connCommit conn.ptr) s).1 = .ok () →
    session (env.call (.connCommit conn.ptr) s).2 = (session s).commit
  commit_error : ∀ s err, (env.call (.connCommit conn.ptr) s).1 = .error err →
    session (env.call (.connCommit conn.ptr) s).2 = session s
  rollback_ok : ∀ s, (env.call (.connRollback conn.ptr) s).1 = .ok ()
  session_rollback : ∀ s,
    session (env.call (.connRollback conn.ptr) s).2 = (session s).rollback

variable (S : SessionEnv env Db conn)

/-- The action changes the session's own view only: no DDL, commit or rollback. -/
def DmlOnly (action : Eff (World σ) (Outcome α)) : Prop :=
  ∀ w r w', Runs action w r w' →
    (S.session w'.odpi).committed = (S.session w.odpi).committed

/-- A result comes with all changes of the action committed, an error with none of them, ever. -/
structure AllOrNothing (action : Eff (World σ) (Outcome α)) (w : World σ) (r : Outcome α)
    (w' : World σ) : Prop where
  all : ∀ v, r = .ok v →
    ∃ w₁, Runs action w (.ok v) w₁ ∧ S.session w'.odpi = (S.session w₁.odpi).commit
  nothing : ∀ err, r = .error err → ∀ later,
    ((S.session w'.odpi).run later).committed = ((S.session w.odpi).run later).committed

def CommitFails (env : Env σ) (conn : Connection) (w : World σ) : Prop :=
  ∃ err, (env.call (.connCommit conn.ptr) w.odpi).1 = .error err

theorem runs_commit_ok {w : World σ} (h : (env.call (.connCommit conn.ptr) w.odpi).1 = .ok ()) :
    Runs (commit env conn) w (.ok ()) (w.called env (.connCommit conn.ptr)) := by
  simp [Runs, commit, oracleCommit, h]

theorem runs_commit_error {w : World σ} {err : DpiError}
    (h : (env.call (.connCommit conn.ptr) w.odpi).1 = .error err) :
    let w' := (w.called env (.connCommit conn.ptr)).capturedLast
    Runs (commit env conn) w (.error (w'.lastError env)) w' := by
  simp [Runs, commit, oracleCommit, h]

theorem runs_rollback_ok {w : World σ}
    (h : (env.call (.connRollback conn.ptr) w.odpi).1 = .ok ()) :
    Runs (rollback env conn) w (.ok ()) (w.called env (.connRollback conn.ptr)) := by
  simp [Runs, rollback, oracleRollback, h]

section

variable {action : Eff (World σ) (Outcome α)} {w w₁ : World σ}

theorem runs_withTransaction_error {err : OracleError} (haction : Runs action w (.error err) w₁)
    (hrollback : (env.call (.connRollback conn.ptr) w₁.odpi).1 = .ok ()) :
    Runs (withTransaction env conn action) w (.error err)
      (w₁.called env (.connRollback conn.ptr)) :=
  haction.bind ((runs_rollback_ok hrollback).bind (Runs.pure _ _))

theorem runs_withTransaction_ok {v : α} (haction : Runs action w (.ok v) w₁)
    (hcommit : (env.call (.connCommit conn.ptr) w₁.odpi).1 = .ok ()) :
    Runs (withTransaction env conn action) w (.ok v) (w₁.called env (.connCommit conn.ptr)) :=
  haction.bind ((runs_commit_ok hcommit).bind (Runs.pure _ _))

theorem runs_withTransaction_commit_error {v : α} {err : DpiError}
    (haction : Runs action w (.ok v) w₁)
    (hcommit : (env.call (.connCommit conn.ptr) w₁.odpi).1 = .error err) :
    let w' := (w₁.called env (.connCommit conn.ptr)).capturedLast
    Runs (withTransaction env conn action) w (.error (w'.lastError env)) w' :=
  haction.bind ((runs_commit_error hcommit).bind (Runs.pure _ _))

theorem allOrNothing_of_restored {r : Outcome α} {w' : World σ} {err : OracleError}
    (hr : r = .error err) (hsession : S.session w'.odpi = S.session w.odpi) :
    AllOrNothing S action w r w' := by
  subst hr
  constructor
  · intro v hv
    cases hv
  · intro _ _ later
    rw [hsession]

/-- `withTransaction` is all or nothing unless a failed commit finds changes of the action. -/
theorem withTransaction_allOrNothing_iff (hdml : DmlOnly S action)
    (hclean : (S.session w.odpi).Clean) {a : Outcome α} (haction : Runs action w a w₁) :
    ∃ r w', Runs (withTransaction env conn action) w r w' ∧
      (AllOrNothing S action w r w' ↔
        ¬ ((∃ v, a = .ok v) ∧ CommitFails env conn w₁ ∧
          (S.session w₁.odpi).working ≠ (S.session w.odpi).working)) := by
  have hcommitted := hdml w a w₁ haction
  cases a with
  | error err =>
      refine ⟨_, _, runs_withTransaction_error haction (S.rollback_ok _), ?_⟩
      have hrestored : S.session (w₁.called env (.connRollback conn.ptr)).odpi =
          S.session w.odpi := by
        rw [World.called_odpi, S.session_rollback, hclean.eq_start, ← hcommitted]
        rfl
      simpa using allOrNothing_of_restored S rfl hrestored
  | ok v =>
      cases hcommit : (env.call (.connCommit conn.ptr) w₁.odpi).1 with
      | ok done =>
          refine ⟨_, _, runs_withTransaction_ok haction hcommit, ?_⟩
          have hnotFails : ¬ CommitFails env conn w₁ := by
            rintro ⟨err, herr⟩
            simp [hcommit] at herr
          simp only [hnotFails, false_and, and_false, not_false_eq_true, iff_true]
          constructor
          · intro u hu
            cases hu
            exact ⟨w₁, haction, S.commit_ok _ hcommit⟩
          · intro err herr
            cases herr
      | error err =>
          refine ⟨_, _, runs_withTransaction_commit_error haction hcommit, ?_⟩
          have hsession : S.session ((w₁.called env (.connCommit conn.ptr)).capturedLast).odpi =
              S.session w₁.odpi := by
            rw [World.capturedLast_odpi, World.called_odpi, S.commit_error _ _ hcommit]
          have hsame := Session.eq_iff_working hcommitted
          constructor
          · rintro ⟨-, hnothing⟩ ⟨-, -, hchanged⟩
            have hlater := Session.indistinguishable_iff.mp (hnothing _ rfl)
            exact hchanged (hsame.mp (hsession.symm.trans hlater))
          · intro hcond
            have hworking : (S.session w₁.odpi).working = (S.session w.odpi).working := by
              by_contra hchanged
              exact hcond ⟨⟨v, rfl⟩, ⟨err, hcommit⟩, hchanged⟩
            exact allOrNothing_of_restored S rfl (hsession.trans (hsame.mpr hworking))

end

/-- One counter as the database, and a database that refuses every commit. -/
def refusingEnv : Env (Session Nat) where
  call
    | .connCommit _, s => (.error (.oracle ⟨1013, by decide⟩ "ORA-01013: cancelled"), s)
    | .connRollback _, s => (.ok (), s.rollback)
    | _, s => (.error .unsupported, s)
  release _ s := s
  storeVar _ _ s := s
  malloc _ _ s := (true, s)
  nullString := ""

def refusingSession (conn : Connection) : SessionEnv refusingEnv Nat conn where
  session s := s
  commit_ok _ h := nomatch h
  commit_error _ _ _ := rfl
  rollback_ok _ := rfl
  session_rollback _ := rfl

/-- An action that counts once and reports success. -/
def countOnce : Eff (World (Session Nat)) (Outcome Unit) := fun w =>
  some (.ok (), { w with odpi := w.odpi.dml (· + 1) })

theorem dmlOnly_countOnce (conn : Connection) : DmlOnly (refusingSession conn) countOnce := by
  rintro w r w' hrun
  cases hrun
  rfl

/-- The count is reported as failed and committed by the next commit. -/
theorem withTransaction_countOnce_not_allOrNothing :
    ∃ err w', Runs (withTransaction refusingEnv ⟨⟨0⟩⟩ countOnce)
        (World.initial (Session.start 0)) (.error err) w' ∧
      w'.odpi.committed = 0 ∧ (w'.odpi.run [.commit]).committed = 1 ∧
      ¬ AllOrNothing (refusingSession ⟨⟨0⟩⟩) countOnce (World.initial (Session.start 0))
        (.error err) w' := by
  refine ⟨_, _, rfl, rfl, rfl, ?_⟩
  rintro ⟨-, hnothing⟩
  have hlater := hnothing _ rfl [.commit]
  cases hlater

/-- The same database when it accepts every commit. -/
def acceptingEnv : Env (Session Nat) :=
  { refusingEnv with
    call := fun
      | .connCommit _, s => (.ok (), s.commit)
      | .connRollback _, s => (.ok (), s.rollback)
      | _, s => (.error .unsupported, s) }

def acceptingSession (conn : Connection) : SessionEnv acceptingEnv Nat conn where
  session s := s
  commit_ok _ _ := rfl
  commit_error _ _ h := nomatch h
  rollback_ok _ := rfl
  session_rollback _ := rfl

theorem dmlOnly_countOnce_accepted (conn : Connection) :
    DmlOnly (acceptingSession conn) countOnce := by
  rintro w r w' hrun
  cases hrun
  rfl

theorem withTransaction_allOrNothing_countOnce :
    (∃ r w', Runs (withTransaction refusingEnv ⟨⟨0⟩⟩ countOnce)
        (World.initial (Session.start 0)) r w' ∧
      (AllOrNothing (refusingSession ⟨⟨0⟩⟩) countOnce (World.initial (Session.start 0)) r w' ↔
        ¬ ((∃ v, (.ok () : Outcome Unit) = .ok v) ∧
          CommitFails refusingEnv ⟨⟨0⟩⟩ (World.initial ⟨0, 1⟩) ∧ 1 ≠ 0))) ∧
    ∃ r w', Runs (withTransaction acceptingEnv ⟨⟨0⟩⟩ countOnce)
        (World.initial (Session.start 0)) r w' ∧
      AllOrNothing (acceptingSession ⟨⟨0⟩⟩) countOnce (World.initial (Session.start 0)) r w' := by
  have haction : Runs countOnce (World.initial (Session.start 0)) (.ok ()) (World.initial ⟨0, 1⟩) :=
    rfl
  constructor
  · have hclean : ((refusingSession ⟨⟨0⟩⟩).session (World.initial (Session.start 0)).odpi).Clean :=
      rfl
    exact withTransaction_allOrNothing_iff (refusingSession ⟨⟨0⟩⟩) (dmlOnly_countOnce ⟨⟨0⟩⟩) hclean
      haction
  · have hclean :
        ((acceptingSession ⟨⟨0⟩⟩).session (World.initial (Session.start 0)).odpi).Clean := rfl
    obtain ⟨r, w', hrun, hiff⟩ := withTransaction_allOrNothing_iff (acceptingSession ⟨⟨0⟩⟩)
      (dmlOnly_countOnce_accepted ⟨⟨0⟩⟩) hclean haction
    refine ⟨r, w', hrun, hiff.mpr ?_⟩
    rintro ⟨-, ⟨err, hfails⟩, -⟩
    cases hfails

end IdrisOracle
