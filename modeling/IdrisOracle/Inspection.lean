import IdrisOracle.Pending

/-! What the calls that inspect the migrations find and what they disturb. -/

namespace IdrisOracle

open Effect

section Status

variable {m : Type → Type} {infos : List MigrationInfo} {migration : Migration m}
  {info : MigrationInfo} {migrations : List (Migration m)}

namespace MigrationStatus

/-- The supplied migration of an entry. -/
def definition : MigrationStatus m → Option (Migration m)
  | .migrationPending migration | .migrationApplied migration _ => some migration
  | .migrationMissing _ => none

def pending : MigrationStatus m → Option (Migration m)
  | .migrationPending migration => some migration
  | .migrationApplied _ _ | .migrationMissing _ => none

def missing : MigrationStatus m → Option MigrationInfo
  | .migrationMissing info => some info
  | .migrationPending _ | .migrationApplied _ _ => none

/-- The entry of a supplied migration. -/
def ofMigration (infos : List MigrationInfo) (migration : Migration m) : MigrationStatus m :=
  match infos.find? (sameMigrationVersion migration) with
  | none => .migrationPending migration
  | some info => .migrationApplied migration info

theorem definition_ofMigration : (ofMigration infos migration).definition = some migration := by
  unfold ofMigration
  split <;> rfl

theorem pending_ofMigration :
    (ofMigration infos migration).pending =
      if !isMigrationApplied migration infos then some migration else none := by
  unfold ofMigration isMigrationApplied
  cases hfind : infos.find? (sameMigrationVersion migration) with
  | none =>
      have hany : infos.any (sameMigrationVersion migration) = false := by
        simpa using hfind
      simp [hany, pending]
  | some info =>
      have hany : infos.any (sameMigrationVersion migration) = true :=
        List.any_eq_true.mpr ⟨info, List.mem_of_find?_eq_some hfind, List.find?_some hfind⟩
      simp [hany, pending]

theorem missing_ofMigration : (ofMigration infos migration).missing = none := by
  unfold ofMigration
  split <;> rfl

theorem ofMigration_eq_applied {found : Migration m}
    (h : ofMigration infos found = .migrationApplied migration info) :
    found = migration ∧ infos.find? (sameMigrationVersion migration) = some info := by
  unfold ofMigration at h
  cases hfind : infos.find? (sameMigrationVersion found) with
  | none => simp [hfind] at h
  | some other =>
      rw [hfind] at h
      cases h
      exact ⟨rfl, hfind⟩

end MigrationStatus

theorem containsVersion_iff :
    migrationStatus.containsVersion info migrations = true ↔
      ∃ migration ∈ migrations, migration.migrationversion = info.migrationinfoversion := by
  induction migrations with
  | nil => simp [migrationStatus.containsVersion]
  | cons migration migrations ih =>
      simp only [List.mem_cons, exists_eq_or_imp, ← ih]
      cases heq : info.migrationinfoversion == migration.migrationversion with
      | true => simp [migrationStatus.containsVersion, (beq_iff_eq.mp heq).symm]
      | false => simp [migrationStatus.containsVersion, heq, Ne.symm (beq_eq_false_iff_ne.mp heq)]

/-- The history records of versions no migration has. -/
def missingInfos (infos : List MigrationInfo) (migrations : List (Migration m)) :
    List MigrationInfo :=
  infos.filter fun info => !migrationStatus.containsVersion info migrations

/-- The entries as the library lists them. -/
def statusEntries (infos : List MigrationInfo) (migrations : List (Migration m)) :
    List (MigrationStatus m) :=
  (sortMigrations migrations).map (MigrationStatus.ofMigration infos) ++
    (missingInfos infos migrations).map .migrationMissing

/-- The entries split the supplied migrations and the history between them. -/
structure Partitions (migrations : List (Migration m)) (infos : List MigrationInfo)
    (pending : List (Migration m)) (statuses : List (MigrationStatus m)) : Prop where
  sorted : StableSort Migration.migrationversion migrations
    (statuses.filterMap MigrationStatus.definition)
  pending : statuses.filterMap MigrationStatus.pending = pending
  paired : ∀ migration info, .migrationApplied migration info ∈ statuses →
    info ∈ infos ∧ migration.migrationversion = info.migrationinfoversion
  missing : statuses.filterMap MigrationStatus.missing = infos.filter fun info =>
    ∀ migration ∈ migrations, migration.migrationversion ≠ info.migrationinfoversion
  covered : ∀ info ∈ infos, (∃ migration, .migrationApplied migration info ∈ statuses) ↔
    .migrationMissing info ∉ statuses

theorem missingInfos_eq : missingInfos infos migrations = infos.filter fun info =>
    ∀ migration ∈ migrations, migration.migrationversion ≠ info.migrationinfoversion := by
  refine List.filter_congr fun info _ => ?_
  rw [Bool.eq_iff_iff, Bool.not_eq_true', ← Bool.not_eq_true, containsVersion_iff]
  simp

theorem definitions_statusEntries :
    (statusEntries infos migrations).filterMap MigrationStatus.definition =
      sortMigrations migrations := by
  have hmissing : ∀ infos : List MigrationInfo,
      (infos.map .migrationMissing).filterMap (MigrationStatus.definition (m := m)) = [] := by
    intro infos
    simp [List.filterMap_map, Function.comp_def, MigrationStatus.definition]
  rw [statusEntries, List.filterMap_append, hmissing, List.append_nil, List.filterMap_map]
  simp [MigrationStatus.definition_ofMigration]

theorem pending_statusEntries :
    (statusEntries infos migrations).filterMap MigrationStatus.pending =
      (sortMigrations migrations).filter fun migration =>
        !isMigrationApplied migration infos := by
  have hmissing : ∀ infos : List MigrationInfo,
      (infos.map .migrationMissing).filterMap (MigrationStatus.pending (m := m)) = [] := by
    intro infos
    simp [List.filterMap_map, Function.comp_def, MigrationStatus.pending]
  rw [statusEntries, List.filterMap_append, hmissing, List.append_nil, List.filterMap_map,
    ← List.filterMap_eq_filter]
  refine List.filterMap_congr fun migration _ => ?_
  simp [MigrationStatus.pending_ofMigration, Option.guard]

theorem missing_statusEntries :
    (statusEntries infos migrations).filterMap MigrationStatus.missing =
      missingInfos infos migrations := by
  have hsupplied : ((sortMigrations migrations).map (MigrationStatus.ofMigration infos)).filterMap
      MigrationStatus.missing = [] := by
    simp [List.filterMap_map, MigrationStatus.missing_ofMigration]
  rw [statusEntries, List.filterMap_append, hsupplied, List.nil_append, List.filterMap_map]
  simp [Function.comp_def, MigrationStatus.missing]

theorem applied_mem_statusEntries :
    .migrationApplied migration info ∈ statusEntries infos migrations ↔
      migration ∈ migrations ∧ infos.find? (sameMigrationVersion migration) = some info := by
  rw [statusEntries, List.mem_append, List.mem_map, sortMigrations]
  constructor
  · rintro (⟨found, hfound, heq⟩ | hmissing)
    · obtain ⟨rfl, hfind⟩ := MigrationStatus.ofMigration_eq_applied heq
      exact ⟨List.mem_mergeSort.mp hfound, hfind⟩
    · simp at hmissing
  · rintro ⟨hmem, hfind⟩
    refine .inl ⟨migration, List.mem_mergeSort.mpr hmem, ?_⟩
    simp [MigrationStatus.ofMigration, hfind]

theorem missing_mem_statusEntries :
    .migrationMissing info ∈ statusEntries infos migrations ↔
      info ∈ missingInfos infos migrations := by
  rw [statusEntries, List.mem_append, List.mem_map, List.mem_map]
  constructor
  · rintro (⟨found, -, heq⟩ | ⟨found, hfound, heq⟩)
    · have hnone : (MigrationStatus.ofMigration infos found).missing = none :=
        MigrationStatus.missing_ofMigration
      simp [heq, MigrationStatus.missing] at hnone
    · cases heq
      exact hfound
  · intro hinfo
    exact .inr ⟨info, hinfo, rfl⟩

/-- The record of a version is the only one of it. -/
theorem find?_of_nodup (h : (infos.map MigrationInfo.migrationinfoversion).Nodup)
    (hinfo : info ∈ infos) (hversion : migration.migrationversion = info.migrationinfoversion) :
    infos.find? (sameMigrationVersion migration) = some info := by
  cases hfind : infos.find? (sameMigrationVersion migration) with
  | none =>
      have hne := List.find?_eq_none.mp hfind info hinfo
      simp [sameMigrationVersion, hversion] at hne
  | some found =>
      have hfound : migration.migrationversion = found.migrationinfoversion := by
        simpa [sameMigrationVersion] using List.find?_some hfind
      have hmem := List.mem_of_find?_eq_some hfind
      rw [List.inj_on_of_nodup_map h hmem hinfo (hfound.symm.trans hversion)]

theorem partitions_statusEntries (migrations : List (Migration m))
    (h : (infos.map MigrationInfo.migrationinfoversion).Nodup) :
    Partitions migrations infos
      ((sortMigrations migrations).filter fun migration => !isMigrationApplied migration infos)
      (statusEntries infos migrations) := by
  constructor
  case sorted =>
    rw [definitions_statusEntries]
    exact StableSort.mergeSort Migration.migrationversion migrations
  case pending => exact pending_statusEntries
  case paired =>
    intro migration info hmem
    obtain ⟨-, hfind⟩ := applied_mem_statusEntries.mp hmem
    refine ⟨List.mem_of_find?_eq_some hfind, ?_⟩
    simpa [sameMigrationVersion] using List.find?_some hfind
  case missing => exact missing_statusEntries.trans missingInfos_eq
  case covered =>
    intro info hinfo
    rw [missing_mem_statusEntries, missingInfos_eq, List.mem_filter]
    simp only [hinfo, true_and, decide_eq_true_eq, applied_mem_statusEntries]
    constructor
    · rintro ⟨migration, hmem, hfind⟩ hnone
      refine hnone migration hmem ?_
      simpa [sameMigrationVersion] using List.find?_some hfind
    · intro hsome
      obtain ⟨migration, hmem, hversion⟩ : ∃ migration ∈ migrations,
          migration.migrationversion = info.migrationinfoversion := by
        simpa using hsome
      exact ⟨migration, hmem, find?_of_nodup h hinfo hversion⟩

end Status

theorem nodup_applied {rows : List HistoryRow} (h : (versions rows).Nodup) :
    ((applied rows).map MigrationInfo.migrationinfoversion).Nodup := by
  rw [applied, List.map_map]
  exact (((List.mergeSort_perm rows _).map _).nodup_iff).mpr h

variable {U : Type} {outside : Outside} {w w' : DbWorld U}

/-- The history table, as the others and as the session see it. -/
def DbWorld.histories (w : DbWorld U) : Session (Option (List HistoryRow)) :=
  ⟨w.session.committed.history, w.session.working.history⟩

/-- The committed database and the open changes stay, but for a history table that is new. -/
structure Undisturbed (w w' : DbWorld U) : Prop where
  user : w'.user = w.user
  history : w'.histories = w.histories ∨
    w.histories = Session.start none ∧ w'.histories = Session.start (some [])
  discarded : w'.session.rollback.working.user = w.session.committed.user

section Calls

variable [ShowRow]

theorem pendingMigrations_eq (migrations : List (Migration (Eff (DbWorld U)))) :
    pendingMigrations outside.conn migrations w =
      some (.ok ((sortMigrations migrations).filter fun migration =>
        !isMigrationApplied migration (applied w.rows)), w.ready) := by
  rw [pendingMigrations, bind_apply, listAppliedMigrations_apply]
  rfl

theorem migrationStatus_eq (migrations : List (Migration (Eff (DbWorld U)))) :
    migrationStatus outside.conn migrations w =
      some (.ok (statusEntries (applied w.rows) migrations), w.ready) :=
  migrationStatus_apply migrations

/-- The status lists every supplied migration and every record once, as the other calls do. -/
theorem migrationStatus_partitions (outside : Outside)
    (migrations : List (Migration (Eff (DbWorld U)))) (h : (versions w.rows).Nodup) :
    ∃ infos pending statuses,
      Runs (listAppliedMigrations outside.conn) w (.ok infos) w.ready ∧
      Runs (pendingMigrations outside.conn migrations) w (.ok pending) w.ready ∧
      Runs (migrationStatus outside.conn migrations) w (.ok statuses) w.ready ∧
      Partitions migrations infos pending statuses :=
  ⟨_, _, _, listAppliedMigrations_apply, pendingMigrations_eq migrations,
    migrationStatus_eq migrations, partitions_statusEntries migrations (nodup_applied h)⟩

omit [ShowRow] in
theorem migrationStatus_partitions_counters :
    let w : DbWorld Nat := ⟨Session.start ⟨0, some [⟨castDouble 3, "third", ""⟩,
      ⟨castDouble 1, "first", ""⟩]⟩, 0, []⟩
    let migrations := [(counterScript 2 "second").migration, (counterScript 1 "first").migration]
    let _ := unshown
    (versions w.rows).Nodup ∧ ∃ infos pending statuses,
      Runs (listAppliedMigrations alwaysUp.conn) w (.ok infos) w.ready ∧
      Runs (pendingMigrations alwaysUp.conn migrations) w (.ok pending) w.ready ∧
      Runs (migrationStatus alwaysUp.conn migrations) w (.ok statuses) w.ready ∧
      Partitions migrations infos pending statuses := by
  intro w migrations _
  have hnodup : (versions w.rows).Nodup := by decide
  exact ⟨hnodup, migrationStatus_partitions alwaysUp migrations hnodup⟩

omit [ShowRow] in
/-- Creating the history table commits what the caller has open. -/
theorem undisturbed_ready_iff : Undisturbed w w.ready ↔ w.history ≠ none ∨ w.session.Clean := by
  cases hhistory : w.history with
  | some rows =>
      have hready : w.ready = w := by simp [DbWorld.ready, hhistory]
      rw [hready]
      exact ⟨fun _ => .inl (by simp), fun _ => ⟨rfl, .inl rfl, rfl⟩⟩
  | none =>
      have hready : w.ready.session = Session.start ⟨w.session.working.user, some []⟩ := by
        simp [DbWorld.ready, hhistory, DbWorld.createTable, Session.ddl, Session.start]
      have hworking : w.session.working.history = none := hhistory
      constructor
      · intro h
        have huser : w.session.working.user = w.session.committed.user := by
          simpa [DbWorld.user, hready, Session.start] using congrArg Session.committed h.user
        have hcommitted : w.session.committed.history = none := by
          rcases h.history with hsame | ⟨hnone, -⟩
          · have hcontra := congrArg Session.working hsame
            simp [DbWorld.histories, hready, hworking, Session.start] at hcontra
          · exact congrArg Session.committed hnone
        exact .inr (congrArg₂ Db.mk huser (hworking.trans hcommitted.symm))
      · rintro (hcontra | hclean)
        · exact absurd rfl hcontra
        · rw [hclean] at hready hworking
          refine ⟨?_, .inr ⟨?_, ?_⟩, ?_⟩
          · rw [DbWorld.user, DbWorld.user, hready, hclean]
            rfl
          · rw [DbWorld.histories, hclean, hworking]
            rfl
          · rw [DbWorld.histories, hready]
            rfl
          · rw [hready]
            rfl

/-- Inspecting the migrations disturbs only a caller with open changes and no history table. -/
theorem inspections_undisturbed_iff (outside : Outside) (w : DbWorld U)
    (migrations : List (Migration (Eff (DbWorld U)))) :
    ∃ infos pending statuses w',
      Runs (listAppliedMigrations outside.conn) w (.ok infos) w' ∧
      Runs (pendingMigrations outside.conn migrations) w (.ok pending) w' ∧
      Runs (migrationStatus outside.conn migrations) w (.ok statuses) w' ∧
      (Undisturbed w w' ↔ w.history ≠ none ∨ w.session.Clean) :=
  ⟨_, _, _, _, listAppliedMigrations_apply, pendingMigrations_eq migrations,
    migrationStatus_eq migrations, undisturbed_ready_iff⟩

omit [ShowRow] in
theorem pendingMigrations_commits_open_change :
    let w : DbWorld Nat := ⟨⟨⟨0, none⟩, ⟨1, none⟩⟩, 0, []⟩
    let _ := unshown
    ∃ w', Runs (pendingMigrations alwaysUp.conn []) w (.ok []) w' ∧
      w.session.rollback.working.user = 0 ∧ w'.session.rollback.working.user = 1 ∧
      ¬ Undisturbed w w' := by
  intro w _
  have hpending : pendingMigrations alwaysUp.conn [] w = _ := pendingMigrations_eq []
  simp only [sortMigrations, List.mergeSort_nil, List.filter_nil] at hpending
  refine ⟨w.ready, hpending, rfl, rfl, ?_⟩
  rw [undisturbed_ready_iff]
  rintro (hhistory | hclean)
  · exact hhistory rfl
  · have huser := congrArg Db.user hclean
    exact absurd huser (by decide)

end Calls

end IdrisOracle
