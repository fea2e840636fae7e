import IdrisOracle.Runner
import IdrisOracle.StableSort

/-! The runner applies exactly the pending migrations. -/

namespace IdrisOracle

open Effect

variable {U : Type} {outside : Outside} {rows : List HistoryRow} {scripts : List (Script U)}
  {w w' : DbWorld U}

/-- No two migrations share a version. -/
def Distinct (scripts : List (Script U)) : Prop :=
  scripts.Pairwise fun a b => a.version ≠ b.version

theorem mem_pendingScripts {script : Script U} :
    script ∈ pendingScripts rows scripts ↔ script ∈ scripts ∧ script.version ∉ versions rows := by
  simp [pendingScripts, sortScripts]

theorem pairwise_sortScripts (h : Distinct scripts) :
    (sortScripts scripts).Pairwise fun a b => a.version < b.version := by
  have hsort : StableSort Script.version scripts (sortScripts scripts) :=
    StableSort.mergeSort Script.version scripts
  have hdistinct : (sortScripts scripts).Pairwise fun a b => a.version ≠ b.version :=
    (List.Perm.pairwise_iff (fun hab => Ne.symm hab) hsort.perm).mpr h
  exact (hsort.sorted.and hdistinct).imp fun hab => Int64.lt_of_le_of_ne hab.1 hab.2

theorem pairwise_pendingScripts (h : Distinct scripts) :
    (pendingScripts rows scripts).Pairwise fun a b => a.version < b.version :=
  (pairwise_sortScripts h).filter _

/-- No change of the history is open, whatever else is. -/
def HistorySettled (w : DbWorld U) : Prop := w.session.working.history = w.session.committed.history

theorem historyAt_ready (h : HistorySettled w) : HistoryAt w.rows w.ready := by
  rw [DbWorld.ready, DbWorld.rows]
  cases hhistory : w.history with
  | some rows => exact ⟨h.symm.trans hhistory, hhistory⟩
  | none => exact ⟨rfl, rfl⟩

theorem log_ready : w.ready.log = w.log := by
  rw [DbWorld.ready]
  split <;> rfl

theorem HistoryAt.rows_eq (h : HistoryAt rows w) : w.rows = rows := by
  rw [DbWorld.rows, DbWorld.history, h.2]
  rfl

theorem HistoryAt.ready_eq (h : HistoryAt rows w) : w.ready = w := by
  simp [DbWorld.ready, DbWorld.history, h.2]

/-- The records of exactly representable versions are read back as these versions. -/
theorem versions_of_records {done : List (Script U)} {new : List HistoryRow}
    (h : List.Forall₂ Records done new)
    (hexact : ∀ script ∈ done, Binary64.Representable script.version.toInt) :
    versions new = done.map Script.version := by
  induction h with
  | nil => rfl
  | @cons script row done new hrow hrest ih =>
      have hversion : castInt row.version = script.version := by
        rw [hrow.1]
        exact (castInt_castDouble_iff _).mpr (hexact script List.mem_cons_self)
      have htail := ih fun s hs => hexact s (List.mem_cons_of_mem _ hs)
      simpa [versions, hversion] using htail

section Runs

variable [ShowRow]

theorem runMigrations_apply (scripts : List (Script U)) (w : DbWorld U) :
    runMigrations outside.conn (scripts.map Script.migration) w =
      runMigrations.runPending outside.conn
        ((pendingScripts w.rows scripts).map Script.migration) w.ready := by
  simp [runMigrations, pendingMigrations_apply]

theorem runMigrations_single {script : Script U} (h : HistoryAt rows w)
    (hpending : pendingScripts rows scripts = [script]) :
    runMigrations outside.conn (scripts.map Script.migration) w =
      some (w.apply outside script) := by
  rw [runMigrations_apply, h.rows_eq, h.ready_eq, hpending, runPending_cons]
  cases w.apply outside script with
  | mk result w' => cases result <;> rfl

/-- With nothing pending the runner changes nothing. -/
theorem runMigrations_of_recorded (h : HistoryAt rows w)
    (hall : ∀ script ∈ scripts, script.version ∈ versions rows) :
    pendingMigrations outside.conn (scripts.map Script.migration) w = some (.ok [], w) ∧
      runMigrations outside.conn (scripts.map Script.migration) w = some (.ok (), w) := by
  have hnone : pendingScripts w.rows scripts = [] := by
    rw [h.rows_eq, List.eq_nil_iff_forall_not_mem]
    intro script hscript
    obtain ⟨hmem, hpending⟩ := mem_pendingScripts.mp hscript
    exact hpending (hall script hmem)
  constructor
  · rw [pendingMigrations_apply, hnone, h.ready_eq]
    rfl
  · rw [runMigrations_apply, hnone, h.ready_eq]
    rfl

/-- The runner applies the pending migrations in order, each once, until a step fails. -/
theorem runMigrations_applies_pending (outside : Outside) (hclean : w.session.Clean)
    (hdistinct : Distinct scripts)
    (hexact : ∀ script ∈ scripts, Binary64.Representable script.version.toInt) :
    ∃ pending done rest new delta result w',
      pending.Pairwise (fun a b : Script U => a.version < b.version) ∧
      (∀ script, script ∈ pending ↔ script ∈ scripts ∧ script.version ∉ versions w.rows) ∧
      Runs (runMigrations outside.conn (scripts.map Script.migration)) w result w' ∧
      w'.log = w.log ++ delta ∧
      pending = done ++ rest ∧ Trace done rest delta ∧
      ups delta <+: pending.map Script.version ∧
      (∀ event ∈ delta.dropLast, ¬ event.Failed) ∧
      w'.session.committed.history = some (w.rows ++ new) ∧
      versions new = done.map Script.version ∧
      (result = .ok () ↔ rest = []) ∧
      (result = .ok () →
        pendingMigrations outside.conn (scripts.map Script.migration) w' = some (.ok [], w') ∧
          runMigrations outside.conn (scripts.map Script.migration) w' = some (.ok (), w')) := by
  have hstart := historyAt_ready (congrArg Db.history hclean)
  obtain ⟨result, w', hrun, hpending⟩ :=
    runPending_runsPending outside (pendingScripts w.rows scripts) hstart
  obtain ⟨done, rest, new, delta, hsplit, hlog, htrace, hnew, hhistory, hresult, hend⟩ :=
    hpending.trace hstart
  have hversions : versions new = done.map Script.version := by
    refine versions_of_records hnew fun script hscript => hexact script ?_
    have hmem : script ∈ pendingScripts w.rows scripts := by simp [hsplit, hscript]
    exact (mem_pendingScripts.mp hmem).1
  refine ⟨pendingScripts w.rows scripts, done, rest, new, delta, result, w',
    pairwise_pendingScripts hdistinct, fun _ => mem_pendingScripts,
    (runMigrations_apply scripts w).trans hrun, by rw [hlog, log_ready], hsplit, htrace,
    hsplit ▸ htrace.ups_prefix, htrace.not_failed, hhistory, hversions, hresult, fun hok => ?_⟩
  obtain rfl := hresult.mp hok
  refine runMigrations_of_recorded (hend rfl) fun script hscript => ?_
  by_cases hbefore : script.version ∈ versions w.rows
  · simp [hbefore]
  · have hdone : script ∈ done := by
      simpa [hsplit] using mem_pendingScripts.mpr ⟨hscript, hbefore⟩
    have hmem : script.version ∈ versions new := by
      rw [hversions]
      exact List.mem_map_of_mem hdone
    simp [hmem]

end Runs

/-- A database where no statement fails from outside. -/
def alwaysUp : Outside := ⟨fun _ => none, fun _ => "2024-01-15T12:00:00.000000000"⟩

/-- A migration that adds one way and takes it back the other. -/
def counterScript (version : Int64) (name : String) : Script Nat where
  version := version
  name := name
  up _ s := (s.dml (· + 1), .ok ())
  down _ s := (s.dml (· - 1), .ok ())

/-- An empty history and nothing open. -/
def fresh : DbWorld Nat := ⟨Session.start ⟨0, some []⟩, 0, []⟩

abbrev unshown : ShowRow := ⟨fun _ => ""⟩

theorem runMigrations_applies_counters :
    let scripts := [counterScript 2 "second", counterScript 1 "first"]
    let _ := unshown
    ∃ pending done rest new delta result w',
      pending.Pairwise (fun a b : Script Nat => a.version < b.version) ∧
      (∀ script, script ∈ pending ↔ script ∈ scripts ∧ script.version ∉ versions []) ∧
      Runs (runMigrations alwaysUp.conn (scripts.map Script.migration)) fresh result w' ∧
      w'.log = delta ∧ pending = done ++ rest ∧ Trace done rest delta ∧
      versions new = done.map Script.version ∧ (result = .ok () ↔ rest = []) := by
  intro scripts _
  have hdistinct : Distinct scripts := by
    simp [scripts, Distinct, counterScript]
  have hexact : ∀ script ∈ scripts, Binary64.Representable script.version.toInt := by
    intro script hscript
    simp only [scripts, List.mem_cons, List.not_mem_nil, or_false] at hscript
    rcases hscript with rfl | rfl
    · exact ⟨2, 0, by decide, by decide⟩
    · exact ⟨1, 0, by decide, by decide⟩
  have happly := runMigrations_applies_pending alwaysUp (w := fresh) rfl hdistinct hexact
  obtain ⟨pending, done, rest, new, delta, result, w', hsorted, hmem, hrun, hlog, hsplit, htrace, -,
    -, -, hversions, hresult, -⟩ := happly
  exact ⟨pending, done, rest, new, delta, result, w', hsorted, hmem, hrun, hlog, hsplit, htrace,
    hversions, hresult⟩

end IdrisOracle
