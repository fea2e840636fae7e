import IdrisOracle.Inspection
import IdrisOracle.Replay

/-! A rollback removes the record of one migration and nothing else. -/

namespace IdrisOracle

open Effect

variable {U : Type} {outside : Outside} {rows : List HistoryRow} {script : Script U}
  {scripts : List (Script U)} {w w' : DbWorld U} {result : Outcome Unit} {version : Int64}

/-- The versions whose down was invoked, in order. -/
def downs (events : List (MigrationEvent U)) : List Int64 :=
  events.filterMap fun event =>
    match event with
    | .down version _ => some version
    | _ => none

/-- The down, the DELETE and the commit succeeded, one after the other. -/
def AllSucceed (events : List (MigrationEvent U)) : Prop :=
  ∃ version db, events = [.down version true, .delete true, .commit (some db)]

theorem RolledBack.spec (h : RolledBack outside script rows w result w') :
    ∃ delta, w'.log = w.log ++ delta ∧ downs delta = [script.version] ∧
      (result = .ok () ↔ AllSucceed delta) ∧
      (result = .ok () → HistoryAt (without rows script.version) w') ∧
      (result ≠ .ok () → w'.session.committed.history = some rows) := by
  cases h with
  | downFails _ hlog hsession | deleteFails _ _ hlog hsession | commitFails _ _ hlog hsession =>
      exact ⟨_, hlog, rfl, by simp [AllSucceed], by simp, fun _ => by simp [hsession]⟩
  | succeeds _ hlog hsession =>
      exact ⟨_, hlog, rfl, by simp [AllSucceed],
        fun _ => by simp [HistoryAt, hsession, Session.start], by simp⟩

section History

theorem Exact.representable (h : Exact rows) (hmem : version ∈ versions rows) :
    Binary64.Representable version.toInt := by
  obtain ⟨row, hrow, rfl⟩ := List.mem_map.mp hmem
  obtain ⟨stored, hstored, hdouble⟩ := h row hrow
  rwa [hdouble, (castInt_castDouble_iff stored).mpr hstored]

theorem Exact.number_eq_iff (h : Exact rows) (hversion : Binary64.Representable version.toInt)
    {row : HistoryRow} (hrow : row ∈ rows) :
    row.number = Binary64.truncate (castDouble version) ↔ castInt row.version = version := by
  obtain ⟨stored, hstored, hdouble⟩ := h row hrow
  constructor
  · intro hnumber
    rw [castInt, ← HistoryRow.number, hnumber]
    exact (castInt_castDouble_iff version).mpr hversion
  · intro hcast
    rw [hdouble, (castInt_castDouble_iff stored).mpr hstored] at hcast
    rw [HistoryRow.number, hdouble, hcast]

theorem applied_without (h : Exact rows) (hversion : Binary64.Representable version.toInt) :
    applied (without rows version) =
      (applied rows).filter fun info => info.migrationinfoversion ≠ version := by
  have hsort : sortRows (without rows version) = (sortRows rows).filter fun row =>
      row.number ≠ Binary64.truncate (castDouble version) :=
    (StableSort.filter_mergeSort _ rows).symm
  rw [applied, hsort, applied, List.filter_map]
  congr 1
  refine List.filter_congr fun row hrow => ?_
  have hmem : row ∈ rows := List.mem_mergeSort.mp hrow
  exact decide_eq_decide.mpr (not_congr (h.number_eq_iff hversion hmem))

theorem pendingScripts_without (h : Exact rows) (hmem : version ∈ versions rows)
    (scripts : List (Script U)) :
    ((pendingScripts (without rows version) scripts).filter fun script =>
      script.version ≠ version) = pendingScripts rows scripts := by
  rw [pendingScripts, pendingScripts, List.filter_filter]
  refine List.filter_congr fun script _ => ?_
  rw [Bool.eq_iff_iff]
  simp only [mem_versions_without h (h.representable hmem), Bool.and_eq_true, decide_eq_true_eq]
  constructor
  · rintro ⟨hne, hnot⟩ hin
    exact hnot ⟨hin, hne⟩
  · intro hnot
    refine ⟨?_, fun hin => hnot hin.1⟩
    rintro rfl
    exact hnot hmem

end History

variable [ShowRow]

/-- What a successful rollback of the migration leaves of the history. -/
structure Removed (outside : Outside) (scripts : List (Script U)) (script : Script U)
    (w w' : DbWorld U) : Prop where
  listed : ∃ front info back, info.migrationinfoversion = script.version ∧
    Runs (listAppliedMigrations outside.conn) w (.ok (front ++ info :: back)) w.ready ∧
    Runs (listAppliedMigrations outside.conn) w' (.ok (front ++ back)) w'
  pending : ∃ front back : List (Script U),
    (front ++ script :: back).Pairwise (fun a b => a.version < b.version) ∧
    Runs (pendingMigrations outside.conn (scripts.map Script.migration)) w
      (.ok ((front ++ back).map Script.migration)) w.ready ∧
    Runs (pendingMigrations outside.conn (scripts.map Script.migration)) w'
      (.ok ((front ++ script :: back).map Script.migration)) w'

theorem removed_of_historyAt (hexact : Exact w.rows) (hnodup : (versions w.rows).Nodup)
    (hdistinct : Distinct scripts) (hscript : script ∈ scripts)
    (hmem : script.version ∈ versions w.rows)
    (h : HistoryAt (without w.rows script.version) w') :
    Removed outside scripts script w w' := by
  have hversion := hexact.representable hmem
  constructor
  case listed =>
    obtain ⟨info, hinfo, hinfoversion⟩ := mem_versions_iff.mp hmem
    obtain ⟨front, back, hsplit, hrest⟩ :=
      List.exists_filter_ne_eq_append (nodup_applied hnodup) hinfo
    refine ⟨front, info, back, hinfoversion.symm, ?_, ?_⟩
    · rw [Runs, listAppliedMigrations_apply, hsplit]
    · rw [Runs, listAppliedMigrations_apply, h.rows_eq, h.ready_eq,
        applied_without hexact hversion, hinfoversion, hrest]
  case pending =>
    have hsorted : (pendingScripts (without w.rows script.version) scripts).Pairwise
        fun a b => a.version < b.version := pairwise_pendingScripts hdistinct
    have hnodup : ((pendingScripts (without w.rows script.version) scripts).map
        Script.version).Nodup := by
      rw [List.Nodup, List.pairwise_map]
      exact hsorted.imp fun hlt => Int64.ne_of_lt hlt
    have hpending : script ∈ pendingScripts (without w.rows script.version) scripts := by
      rw [mem_pendingScripts, mem_versions_without hexact hversion]
      exact ⟨hscript, fun hin => hin.2 rfl⟩
    obtain ⟨front, back, hsplit, hrest⟩ := List.exists_filter_ne_eq_append hnodup hpending
    rw [pendingScripts_without hexact hmem] at hrest
    refine ⟨front, back, hsplit ▸ hsorted, ?_, ?_⟩
    · rw [Runs, pendingMigrations_apply, hrest]
    · rw [Runs, pendingMigrations_apply, h.rows_eq, h.ready_eq, hsplit]

theorem rollbackMigration_ready (migrations : List (Migration (Eff (DbWorld U)))) :
    rollbackMigration outside.conn migrations w =
      rollbackMigration outside.conn migrations w.ready := by
  have hrows : w.ready.rows = w.rows := by
    rw [DbWorld.rows, history_ready]
    rfl
  have hready : w.ready.ready = w.ready := by
    rw [DbWorld.ready, history_ready]
  have hlist : listAppliedMigrations outside.conn w =
      listAppliedMigrations outside.conn w.ready := by
    rw [listAppliedMigrations_apply, listAppliedMigrations_apply, hrows, hready]
  rw [rollbackMigration, bind_apply, hlist]
  rfl

/-- A rollback takes back the latest migration if it was supplied, and nothing else. -/
theorem rollbackMigration_removes_latest (outside : Outside) (hclean : w.session.Clean)
    (hexact : Exact w.rows) (hnodup : (versions w.rows).Nodup) (hdistinct : Distinct scripts) :
    ∃ result w' delta,
      Runs (rollbackMigration outside.conn (scripts.map Script.migration)) w result w' ∧
      w'.log = w.log ++ delta ∧
      (downs delta).length ≤ 1 ∧
      (∀ version, version ∈ downs delta ↔
        Latest version (versions w.rows) ∧ version ∈ scripts.map Script.version) ∧
      (result = .ok () ↔ AllSucceed delta) ∧
      (result = .ok () → ∃ script ∈ scripts, downs delta = [script.version] ∧
        Removed outside scripts script w w') ∧
      (result ≠ .ok () → w'.session.committed.history = some w.rows) := by
  have hstart := historyAt_ready (congrArg Db.history hclean)
  obtain ⟨result, w', hrun, hcases⟩ := rollbackMigration_cases outside scripts hstart
  rw [Runs, ← rollbackMigration_ready] at hrun
  rcases hcases with ⟨rfl, ⟨err, rfl⟩, hnone⟩ | ⟨script, hscript, hlatest, hback⟩
  · refine ⟨_, _, [], hrun, by simp [log_ready], by simp [downs], fun version => ?_,
      by simp [AllSucceed], by simp, fun _ => hstart.1⟩
    simp only [downs, List.filterMap_nil, List.not_mem_nil, List.mem_map, false_iff, not_and]
    rintro hlatest ⟨script, hscript, rfl⟩
    exact hnone script hscript hlatest
  · obtain ⟨delta, hlog, hdowns, hresult, hok, herror⟩ := hback.spec
    refine ⟨result, w', delta, hrun, by rw [hlog, log_ready], by simp [hdowns], fun version => ?_,
      hresult, fun hsuccess => ⟨script, hscript, hdowns, ?_⟩, herror⟩
    · rw [hdowns, List.mem_singleton]
      constructor
      · rintro rfl
        exact ⟨hlatest, List.mem_map_of_mem hscript⟩
      · rintro ⟨hother, -⟩
        exact Int64.le_antisymm (hlatest.2 _ hother.1) (hother.2 _ hlatest.1)
    · exact removed_of_historyAt hexact hnodup hdistinct hscript hlatest.1 (hok hsuccess)

omit [ShowRow] in
theorem rollbackMigration_removes_latest_counters :
    let w : DbWorld Nat := ⟨Session.start ⟨2, some [⟨castDouble 2, "second", ""⟩,
      ⟨castDouble 1, "first", ""⟩]⟩, 0, []⟩
    let scripts := [counterScript 1 "first", counterScript 3 "third", counterScript 2 "second"]
    let _ := unshown
    ∃ result w' delta,
      Runs (rollbackMigration alwaysUp.conn (scripts.map Script.migration)) w result w' ∧
      w'.log = delta ∧ downs delta = [2] ∧ (result = .ok () ↔ AllSucceed delta) ∧
      (result = .ok () → ∃ script ∈ scripts, downs delta = [script.version] ∧
        Removed alwaysUp scripts script w w') ∧
      (result ≠ .ok () → w'.session.committed.history = some w.rows) := by
  intro w scripts _
  have hexact : Exact w.rows := by
    intro row hrow
    rcases List.mem_pair.mp hrow with rfl | rfl
    · exact ⟨2, ⟨2, 0, by decide, by decide⟩, rfl⟩
    · exact ⟨1, ⟨1, 0, by decide, by decide⟩, rfl⟩
  have hnodup : (versions w.rows).Nodup := by decide
  have hdistinct : Distinct scripts := by
    simp [scripts, Distinct, counterScript]
  have hversions : versions w.rows = [2, 1] := rfl
  obtain ⟨result, w', delta, hrun, hlog, hlength, hdowns, hresult, hok, herror⟩ :=
    rollbackMigration_removes_latest alwaysUp (w := w) rfl hexact hnodup hdistinct
  refine ⟨result, w', delta, hrun, hlog, ?_, hresult, hok, herror⟩
  have hlatest : Latest 2 (versions w.rows) := by
    rw [hversions]
    refine ⟨List.mem_cons_self, fun other hother => ?_⟩
    rcases List.mem_pair.mp hother with rfl | rfl
    · exact Int64.le_refl _
    · exact Int64.le_of_lt (by simp)
  have hmem : 2 ∈ downs delta := (hdowns 2).mpr ⟨hlatest, by simp [scripts, counterScript]⟩
  cases hdelta : downs delta with
  | nil => simp [hdelta] at hmem
  | cons first rest =>
      rw [hdelta] at hmem hlength
      obtain rfl : rest = [] := by simpa using hlength
      rw [List.mem_singleton] at hmem
      rw [hmem]

end IdrisOracle
