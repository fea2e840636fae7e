import IdrisOracle.Pending

/-! What a rollback of the latest migration does, step by step. -/

namespace IdrisOracle

open Effect

variable {U : Type} {outside : Outside} {rows : List HistoryRow} {script : Script U}
  {scripts : List (Script U)} {w w' : DbWorld U} {result : Outcome Unit}

/-- The history without the rows of a version. -/
def without (rows : List HistoryRow) (version : Int64) : List HistoryRow :=
  rows.filter fun row => row.number ≠ Binary64.truncate (castDouble version)

/-- The ways the rollback of one migration can go. -/
inductive RolledBack (outside : Outside) (script : Script U) (rows : List HistoryRow)
    (w : DbWorld U) : Outcome Unit → DbWorld U → Prop
  | downFails {err : OracleError} {w' : DbWorld U}
      (hdown : (script.down w.tick w.user).2 = .error err)
      (hlog : w'.log = w.log ++ [.down script.version false])
      (hsession : w'.session = ⟨⟨(script.down w.tick w.user).1.committed, some rows⟩,
        ⟨(script.down w.tick w.user).1.working, some rows⟩⟩) :
      RolledBack outside script rows w (.error err) w'
  | deleteFails {err : OracleError} {w' : DbWorld U}
      (hdown : (script.down w.tick w.user).2 = .ok ())
      (hdelete : outside.failure (w.tick + 1) ≠ none)
      (hlog : w'.log = w.log ++ [.down script.version true, .delete false])
      (hsession : w'.session = ⟨⟨(script.down w.tick w.user).1.committed, some rows⟩,
        ⟨(script.down w.tick w.user).1.working, some rows⟩⟩) :
      RolledBack outside script rows w (.error err) w'
  | commitFails {err : OracleError} {w' : DbWorld U}
      (hdown : (script.down w.tick w.user).2 = .ok ())
      (hcommit : outside.failure (w.tick + 2) ≠ none)
      (hlog : w'.log = w.log ++ [.down script.version true, .delete true, .commit none])
      (hsession : w'.session = ⟨⟨(script.down w.tick w.user).1.committed, some rows⟩,
        ⟨(script.down w.tick w.user).1.working, some (without rows script.version)⟩⟩) :
      RolledBack outside script rows w (.error err) w'
  | succeeds {w' : DbWorld U} (hdown : (script.down w.tick w.user).2 = .ok ())
      (hlog : w'.log = w.log ++
        [.down script.version true, .delete true, .commit (some w'.session.committed)])
      (hsession : w'.session = Session.start ⟨(script.down w.tick w.user).1.working,
        some (without rows script.version)⟩) :
      RolledBack outside script rows w (.ok ()) w'

theorem RolledBack.down_eq (h : RolledBack outside script rows w result w')
    {delta : List (MigrationEvent U)} (hlog : w'.log = w.log ++ delta) {version : Int64} {ok : Bool}
    (hdown : .down version ok ∈ delta) : version = script.version := by
  cases h with
  | downFails _ hlog₁ | deleteFails _ _ hlog₁ | commitFails _ _ hlog₁ | succeeds _ hlog₁ _ =>
      rw [hlog] at hlog₁
      rw [List.append_cancel_left hlog₁] at hdown
      simp at hdown
      exact hdown.1

/-- Down, DELETE and commit, as `rollback` chains them. -/
def DbWorld.revert (outside : Outside) (w : DbWorld U) (script : Script U) :
    Outcome Unit × DbWorld U :=
  match w.act (.down script.version) script.down with
  | (.error err, w₁) => (.error err, w₁)
  | (.ok (), w₁) =>
      match w₁.edit outside .delete (deleteRow (castDouble script.version) w₁.history) with
      | (.error err, w₂) => (.error err, w₂)
      | (.ok (), w₂) => w₂.commit outside

theorem rolledBack_revert (h : HistoryAt rows w) :
    RolledBack outside script rows w (w.revert outside script).1 (w.revert outside script).2 := by
  obtain ⟨hcommitted, hworking⟩ := h
  cases hdown : (script.down w.tick w.user).2 with
  | error err =>
      simp only [DbWorld.revert, DbWorld.act, hdown]
      exact .downFails hdown rfl (by simp [hcommitted, hworking])
  | ok u =>
      cases hfailure : outside.failure (w.tick + 1) with
      | some err =>
          simp only [DbWorld.revert, DbWorld.act, hdown, DbWorld.edit, DbWorld.record, hfailure]
          exact .deleteFails hdown (by simp [hfailure]) (by simp [Except.isOk, Except.toBool])
            (by simp [hcommitted, hworking])
      | none =>
          cases hcommit : outside.failure (w.tick + 2) with
          | some err =>
              simp only [DbWorld.revert, DbWorld.act, hdown, DbWorld.edit, DbWorld.record,
                hfailure, DbWorld.history, hworking, deleteRow, DbWorld.commit, hcommit]
              exact .commitFails hdown (by simp [hcommit]) (by simp [Except.isOk, Except.toBool])
                (by simp [hcommitted, Session.dml, without])
          | none =>
              simp only [DbWorld.revert, DbWorld.act, hdown, DbWorld.edit, DbWorld.record,
                hfailure, DbWorld.history, hworking, deleteRow, DbWorld.commit, hcommit]
              refine .succeeds hdown ?_ ?_
              · simp [Except.isOk, Except.toBool, Session.commit, Session.dml]
              · simp [Session.commit, Session.dml, Session.start, without]

theorem rollback_apply (outside : Outside) (script : Script U) (w : DbWorld U) :
    rollbackMigration.rollback outside.conn script.migration w =
      some (w.revert outside script) := by
  cases hact : w.act (.down script.version) script.down with
  | mk r w₁ =>
      have hdown : script.migration.migrationdown outside.conn w = some (r, w₁) :=
        congrArg some hact
      cases r with
      | error err => simp [rollbackMigration.rollback, DbWorld.revert, hdown, hact]
      | ok u =>
          cases hedit : w₁.edit outside .delete
              (deleteRow (castDouble script.version) w₁.history) with
          | mk r w₂ =>
              have hdelete : removeMigrationRecord outside.conn script.migration w₁ =
                  some (r, w₂) := by
                rw [removeMigrationRecord, executeStatement_apply, execute_delete]
                exact congrArg some hedit
              cases r <;>
                simp [rollbackMigration.rollback, DbWorld.revert, hdown, hact, hedit, hdelete]

section Latest

/-- The highest of the versions. -/
def Latest (version : Int64) (vs : List Int64) : Prop :=
  version ∈ vs ∧ ∀ other ∈ vs, other ≤ version

theorem latestMigration_eq_none {infos : List MigrationInfo} :
    rollbackMigration.latestMigration infos = none ↔ infos = [] := by
  cases infos <;> simp [rollbackMigration.latestMigration]

theorem latestMigration_spec {info latest : MigrationInfo} {infos : List MigrationInfo}
    (h : rollbackMigration.latestMigration (info :: infos) = some latest) :
    latest ∈ info :: infos ∧
      ∀ other ∈ info :: infos, other.migrationinfoversion ≤ latest.migrationinfoversion := by
  induction infos generalizing info with
  | nil =>
      cases h
      simp
  | cons next infos ih =>
      by_cases hnext : next.migrationinfoversion > info.migrationinfoversion
      · have hrest : rollbackMigration.latestMigration (next :: infos) = some latest := by
          simpa [rollbackMigration.latestMigration, hnext] using h
        obtain ⟨hmem, hle⟩ := ih hrest
        refine ⟨List.mem_cons_of_mem _ hmem, fun other hother => ?_⟩
        rcases List.mem_cons.mp hother with rfl | hother
        · exact Int64.le_trans (Int64.le_of_lt hnext) (hle next List.mem_cons_self)
        · exact hle other hother
      · have hrest : rollbackMigration.latestMigration (info :: infos) = some latest := by
          simpa [rollbackMigration.latestMigration, hnext] using h
        obtain ⟨hmem, hle⟩ := ih hrest
        refine ⟨?_, fun other hother => ?_⟩
        · rcases List.mem_cons.mp hmem with hmem | hmem <;> simp [hmem]
        · rcases List.mem_cons.mp hother with rfl | hother
          · exact hle other List.mem_cons_self
          · rcases List.mem_cons.mp hother with rfl | hother
            · exact Int64.le_trans (Int64.not_lt.mp hnext) (hle info List.mem_cons_self)
            · exact hle other (List.mem_cons_of_mem _ hother)

theorem latest_latestMigration {info : MigrationInfo}
    (h : rollbackMigration.latestMigration (applied rows) = some info) :
    Latest info.migrationinfoversion (versions rows) := by
  have hspec : info ∈ applied rows ∧ ∀ other ∈ applied rows,
      other.migrationinfoversion ≤ info.migrationinfoversion := by
    cases hinfos : applied rows with
    | nil => simp [rollbackMigration.latestMigration, hinfos] at h
    | cons first infos =>
        rw [hinfos] at h
        exact latestMigration_spec h
  refine ⟨mem_versions_iff.mpr ⟨info, hspec.1, rfl⟩, ?_⟩
  intro other hother
  obtain ⟨found, hfound, rfl⟩ := mem_versions_iff.mp hother
  exact hspec.2 found hfound

theorem findMigration_map (info : MigrationInfo) (scripts : List (Script U)) :
    rollbackMigration.findMigration info (scripts.map Script.migration) =
      (scripts.find? fun script => info.migrationinfoversion == script.version).map
        Script.migration := by
  induction scripts with
  | nil => rfl
  | cons script scripts ih =>
      cases hmatch : info.migrationinfoversion == script.version <;>
        simp [rollbackMigration.findMigration, Script.migration, hmatch, ih]

end Latest

variable [ShowRow]

/-- A rollback takes back the migration with the highest version or changes nothing. -/
theorem rollbackMigration_cases (outside : Outside) (scripts : List (Script U))
    (h : HistoryAt rows w) :
    ∃ result w', Runs (rollbackMigration outside.conn (scripts.map Script.migration)) w result w' ∧
      ((w' = w ∧ (∃ err, result = .error err) ∧
          ∀ script ∈ scripts, ¬ Latest script.version (versions rows)) ∨
        ∃ script ∈ scripts, Latest script.version (versions rows) ∧
          RolledBack outside script rows w result w') := by
  have hlist : listAppliedMigrations outside.conn w = some (.ok (applied rows), w) := by
    rw [listAppliedMigrations_apply, h.rows_eq, h.ready_eq]
  cases hlatest : rollbackMigration.latestMigration (applied rows) with
  | none =>
      have hnil := latestMigration_eq_none.mp hlatest
      refine ⟨.error noMigrationsApplied, w, ?_, .inl ⟨rfl, ⟨_, rfl⟩, ?_⟩⟩
      · simp [Runs, rollbackMigration, hlist, hnil]
      · rintro script - ⟨hmem, -⟩
        obtain ⟨info, hinfo, -⟩ := mem_versions_iff.mp hmem
        simp [hnil] at hinfo
  | some info =>
      have hmax := latest_latestMigration hlatest
      have hcons : ∃ first infos, applied rows = first :: infos := by
        cases hinfos : applied rows with
        | nil => simp [hinfos, rollbackMigration.latestMigration] at hlatest
        | cons first infos => exact ⟨first, infos, rfl⟩
      obtain ⟨first, infos, hinfos⟩ := hcons
      rw [hinfos] at hlist hlatest
      cases hfind : scripts.find? fun script => info.migrationinfoversion == script.version with
      | none =>
          have hrun : rollbackMigration outside.conn (scripts.map Script.migration) w =
              some (.error (definitionNotFound info.migrationinfoversion), w) := by
            simp only [rollbackMigration, bind_apply, hlist, Option.bind_some, hlatest,
              findMigration_map, hfind]
            rfl
          refine ⟨_, w, hrun, .inl ⟨rfl, ⟨_, rfl⟩, ?_⟩⟩
          rintro script hscript ⟨hmem, hle⟩
          have hne := List.find?_eq_none.mp hfind script hscript
          have heq : info.migrationinfoversion = script.version :=
            Int64.le_antisymm (hle _ hmax.1) (hmax.2 _ hmem)
          simp [heq] at hne
      | some script =>
          have hrun : rollbackMigration outside.conn (scripts.map Script.migration) w =
              some (w.revert outside script) := by
            simp only [rollbackMigration, bind_apply, hlist, Option.bind_some, hlatest,
              findMigration_map, hfind]
            exact rollback_apply outside script w
          have hversion : info.migrationinfoversion = script.version := by
            simpa using List.find?_some hfind
          exact ⟨_, _, hrun, .inr ⟨script, List.mem_of_find?_eq_some hfind, hversion ▸ hmax,
            rolledBack_revert h⟩⟩

end IdrisOracle
