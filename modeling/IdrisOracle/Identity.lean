import Mathlib.Data.List.Pairwise
import IdrisOracle.Rollback

/-! Which migrations the persisted history identifies. -/

namespace IdrisOracle

open Effect

variable {U : Type} {outside : Outside} {rows : List HistoryRow} {script : Script U}
  {scripts : List (Script U)} {w w' : DbWorld U} {result : Outcome Unit}

/-- No statement fails for a reason of its own. -/
def Faultless (outside : Outside) : Prop := ∀ tick, outside.failure tick = none

/-- The version fits a double and the description is stored as it is. -/
def Good (script : Script U) : Prop :=
  Binary64.Representable script.version.toInt ∧ script.name ≠ "" ∧ '\x00' ∉ script.name.toList

theorem storedText_eq_iff {text : String} : storedText text = text ↔ '\x00' ∉ text.toList := by
  rw [← CString.visible_eq_self, storedText]
  constructor
  · intro h
    simpa using congrArg String.toList h
  · intro h
    rw [h, String.ofList_toList]

theorem zero_not_mem_storedText (text : String) : '\x00' ∉ (storedText text).toList := by
  rw [← CString.visible_eq_self, storedText]
  simp [CString.visible_visible]

theorem insertRow_ok_iff {row : HistoryRow} :
    insertRow row (some rows) = .ok (rows ++ [row]) ↔
      row.description ≠ "" ∧ (CString.encode row.description.toList).length ≤ 4000 ∧
        ¬ Recorded rows row.version := by
  simp only [insertRow]
  split
  · simp [*]
  · split
    · simp [*]
    · split <;> simp_all

/-- A version read back from the database is exactly representable. -/
theorem representable_castInt (n : Int64) :
    Binary64.Representable (castInt (castDouble n)).toInt := by
  have hbound := Binary64.natAbs_truncate_le n.toInt (natAbs_toInt_le n)
  rw [castInt, castDouble]
  by_cases hsmall : Binary64.truncate (Binary64.ofInt n.toInt) < 2 ^ 63
  · rw [Int64.toInt_ofInt_of_le (by omega) hsmall]
    exact Binary64.representable_truncate _ (natAbs_toInt_le n)
  · have hround : Binary64.truncate (Binary64.ofInt n.toInt) = 2 ^ 63 := by omega
    rw [hround]
    exact ⟨-1, 63, by decide, by decide⟩

/-- A version the history does not have is new to the table as well. -/
theorem not_recorded {version : Int64} (hexact : Binary64.Representable version.toInt)
    (h : version ∉ versions rows) : ¬ Recorded rows (castDouble version) := by
  rintro ⟨row, hrow, hnumber⟩
  apply h
  have hback : castInt row.version = version := by
    rw [castInt, ← HistoryRow.number, hnumber]
    exact (castInt_castDouble_iff version).mpr hexact
  exact hback ▸ List.mem_map_of_mem hrow

/-- What a run without faults has recorded and which migration it was refused. -/
theorem RunsPending.recorded (hout : Faultless outside)
    (h : RunsPending outside scripts rows w result w') (hstart : HistoryAt rows w) :
    ∃ done rest new delta, scripts = done ++ rest ∧ w'.log = w.log ++ delta ∧
      List.Forall₂ Records done new ∧ (∀ row ∈ new, row.description ≠ "") ∧
      HistoryAt (rows ++ new) w' ∧
      (∀ script ∈ done, .up script.version true ∈ delta) ∧
      ∀ version, .up version true ∈ delta → (∃ script ∈ done, script.version = version) ∨
        ∃ script ∈ scripts, script.version = version ∧ ∃ tick,
          insertRow (script.row outside tick) (some (rows ++ new)) ≠
            .ok (rows ++ new ++ [script.row outside tick]) := by
  induction h with
  | done => exact ⟨[], [], [], [], rfl, by simp, .nil, by simp, by simpa using hstart, by simp,
      by simp⟩
  | @stops script scripts rows w w' err happlied =>
      cases happlied with
      | upFails _ hlog hsession =>
          refine ⟨[], script :: scripts, [], _, rfl, hlog, .nil, by simp, ?_, by simp, by simp⟩
          simp [HistoryAt, hsession]
      | insertFails _ hinsert hlog hsession =>
          refine ⟨[], script :: scripts, [], _, rfl, hlog, .nil, by simp, ?_, by simp, ?_⟩
          · simp [HistoryAt, hsession]
          · intro version hversion
            have heq : version = script.version := by simpa using hversion
            rcases hinsert with hfailure | ⟨err, hrefused⟩
            · exact absurd (hout _) hfailure
            · refine .inr ⟨script, List.mem_cons_self, heq.symm, w.tick + 1, ?_⟩
              simp [hrefused]
      | commitFails _ hcommit => exact absurd (hout _) hcommit
  | @applies script scripts rows w w₁ w' result happlied hrest ih =>
      obtain ⟨done, rest, new, delta, rfl, hlog, hnew, hnames, hhistory, hdone, hups⟩ :=
        ih happlied.historyAt
      cases happlied with
      | succeeds _ hinsert hlog₁ _ =>
          have hname := (insertRow_ok_iff.mp hinsert).1
          refine ⟨script :: done, rest, script.row outside (w.tick + 1) :: new,
            .up script.version true :: .insert true :: .commit (some w₁.session.committed) :: delta,
            rfl, ?_, .cons ⟨rfl, rfl⟩ hnew, ?_, ?_, ?_, ?_⟩
          · rw [hlog, hlog₁, List.append_assoc]
            rfl
          · simpa [hname] using hnames
          · simpa using hhistory
          · intro s hs
            rcases List.mem_cons.mp hs with rfl | hs
            · exact List.mem_cons_self
            · simp [hdone s hs]
          · intro version hversion
            have hcases : version = script.version ∨ .up version true ∈ delta := by
              simpa using hversion
            rcases hcases with rfl | hversion
            · exact .inl ⟨script, List.mem_cons_self, rfl⟩
            · rcases hups version hversion with ⟨s, hs, heq⟩ | ⟨s, hs, heq, tick, hrefused⟩
              · exact .inl ⟨s, List.mem_cons_of_mem _ hs, heq⟩
              · refine .inr ⟨s, List.mem_cons_of_mem _ hs, heq, tick, ?_⟩
                simpa using hrefused

section

variable {done : List (Script U)} {new : List HistoryRow} {delta : List (MigrationEvent U)}

/-- The run invoked the up of the migration and it succeeded. -/
def Ran (scripts : List (Script U)) (delta : List (MigrationEvent U)) (script : Script U) : Prop :=
  script ∈ scripts ∧ .up script.version true ∈ delta

/-- The version was applied before or the run applied it. -/
def Known (before : List HistoryRow) (ran : Script U → Prop) (version : Int64) : Prop :=
  version ∈ versions before ∨ ∃ script, ran script ∧ script.version = version

theorem eq_of_version_eq (h : Distinct scripts) {a b : Script U} (ha : a ∈ scripts)
    (hb : b ∈ scripts) (heq : a.version = b.version) : a = b := by
  have hsymm : Std.Symm fun a b : Script U => a.version ≠ b.version := ⟨fun _ _ => Ne.symm⟩
  by_contra hne
  exact List.Pairwise.forall h ha hb hne heq

theorem exists_related {α β : Type} {R : α → β → Prop} {xs : List α} {ys : List β} {x : α}
    (h : List.Forall₂ R xs ys) (hx : x ∈ xs) : ∃ y ∈ ys, R x y := by
  induction h with
  | nil => cases hx
  | cons hfirst hrest ih =>
      rcases List.mem_cons.mp hx with rfl | hx
      · exact ⟨_, List.mem_cons_self, hfirst⟩
      · obtain ⟨y, hy, hrelated⟩ := ih hx
        exact ⟨y, List.mem_cons_of_mem _ hy, hrelated⟩

/-- A migration with a good version and description is not refused. -/
theorem insertRow_of_good {rows : List HistoryRow} {script : Script U} {tick : Nat}
    (hgood : Good script) (hlength : (CString.encode script.name.toList).length ≤ 4000)
    (hnew : script.version ∉ versions rows) :
    insertRow (script.row outside tick) (some rows) = .ok (rows ++ [script.row outside tick]) := by
  obtain ⟨hexact, hname, hzero⟩ := hgood
  have hstored : storedText script.name = script.name := storedText_eq_iff.mpr hzero
  rw [insertRow_ok_iff]
  refine ⟨?_, ?_, not_recorded hexact hnew⟩
  · simpa [Script.row, hstored] using hname
  · simpa [Script.row, hstored] using hlength

variable [ShowRow]

/-- The history has every migration that ran under its own version and description. -/
structure Identifies (outside : Outside) (before : List HistoryRow) (ran : Script U → Prop)
    (w : DbWorld U) : Prop where
  recorded : ∀ script, ran script → ∃ rows, w.session.committed.history = some rows ∧
    ∃ row ∈ rows, castInt row.version = script.version ∧ row.description = script.name
  listed : ∀ script, ran script → ∃ infos,
    Runs (listAppliedMigrations outside.conn) w (.ok infos) w ∧
      ∃ info ∈ infos, info.migrationinfoversion = script.version ∧
        info.migrationinfoname = script.name
  notPending : ∀ script, ran script → ∀ scripts : List (Script U), ∃ pending,
    Runs (pendingMigrations outside.conn (scripts.map Script.migration)) w (.ok pending) w ∧
      ∀ migration ∈ pending, migration.migrationversion ≠ script.version
  applied : ∀ infos w', Runs (listAppliedMigrations outside.conn) w (.ok infos) w' →
    ∀ script : Script U, isMigrationApplied script.migration infos = true ↔
      Known before ran script.version
  status : ∀ migrations statuses w',
    Runs (migrationStatus outside.conn migrations) w (.ok statuses) w' →
      (∀ migration info, .migrationApplied migration info ∈ statuses →
        Known before ran migration.migrationversion) ∧
      ∀ migration, .migrationPending migration ∈ statuses →
        ¬ Known before ran migration.migrationversion
  rolledBack : ∀ (scripts : List (Script U)) result w' delta version ok,
    Runs (rollbackMigration outside.conn (scripts.map Script.migration)) w result w' →
      w'.log = w.log ++ delta → .down version ok ∈ delta →
      Known before ran version ∧ ∀ other, Known before ran other → other ≤ version

/-- A history whose versions are the known ones identifies them. -/
theorem identifies_of_versions {before : List HistoryRow} {ran : Script U → Prop}
    (h : HistoryAt rows w)
    (hrecorded : ∀ script, ran script →
      ∃ row ∈ rows, castInt row.version = script.version ∧ row.description = script.name)
    (hversions : ∀ version, version ∈ versions rows ↔ Known before ran version) :
    Identifies outside before ran w := by
  have hlist : listAppliedMigrations outside.conn w = some (.ok (IdrisOracle.applied rows), w) := by
    rw [listAppliedMigrations_apply, h.rows_eq, h.ready_eq]
  constructor
  case recorded => exact fun script hran => ⟨rows, h.1, hrecorded script hran⟩
  case listed =>
    intro script hran
    obtain ⟨row, hrow, hversion, hname⟩ := hrecorded script hran
    refine ⟨_, hlist, row.info, ?_, hversion, hname⟩
    exact List.mem_map_of_mem (List.mem_mergeSort.mpr hrow)
  case notPending =>
    intro script hran scripts
    refine ⟨_, by rw [Runs, pendingMigrations_apply, h.rows_eq, h.ready_eq], ?_⟩
    intro migration hmigration heq
    obtain ⟨pending, hpending, rfl⟩ := List.mem_map.mp hmigration
    have hknown := (hversions script.version).mpr (.inr ⟨script, hran, rfl⟩)
    have hversion : pending.version = script.version := heq
    exact (mem_pendingScripts.mp hpending).2 (hversion ▸ hknown)
  case applied =>
    intro infos w' hrun script
    have heq := hrun.symm.trans hlist
    cases heq
    rw [isMigrationApplied_iff, hversions]
  case status =>
    intro migrations statuses w' hrun
    have hstatus := hrun.symm.trans (migrationStatus_apply migrations)
    rw [h.rows_eq] at hstatus
    cases hstatus
    constructor
    · intro migration info hmem
      rcases List.mem_append.mp hmem with hmem | hmem
      · obtain ⟨defined, -, hcase⟩ := List.mem_map.mp hmem
        cases hfind : (IdrisOracle.applied rows).find? (sameMigrationVersion defined) with
        | none => simp [hfind] at hcase
        | some found =>
            simp only [hfind] at hcase
            cases hcase
            have hinfo := List.mem_of_find?_eq_some hfind
            refine (hversions _).mp (mem_versions_iff.mpr ⟨info, hinfo, ?_⟩)
            simpa [sameMigrationVersion] using List.find?_some hfind
      · simp at hmem
    · intro migration hmem hknown
      obtain ⟨info, hinfo, hversion⟩ := mem_versions_iff.mp ((hversions _).mpr hknown)
      rcases List.mem_append.mp hmem with hmem | hmem
      · obtain ⟨defined, -, hcase⟩ := List.mem_map.mp hmem
        cases hfind : (IdrisOracle.applied rows).find? (sameMigrationVersion defined) with
        | none =>
            simp only [hfind] at hcase
            cases hcase
            have hne := List.find?_eq_none.mp hfind info hinfo
            simp [sameMigrationVersion, hversion] at hne
        | some found => simp [hfind] at hcase
      · simp at hmem
  case rolledBack =>
    intro scripts result w' delta version ok hrun hlog hdown
    obtain ⟨result₁, w₁, hrun₁, hcases⟩ := rollbackMigration_cases outside scripts h
    obtain ⟨rfl, rfl⟩ := hrun.unique hrun₁
    rcases hcases with ⟨rfl, -, -⟩ | ⟨script, hscript, hlatest, hback⟩
    · have hnil : delta = [] := by simpa using hlog
      simp [hnil] at hdown
    · rw [hback.down_eq hlog hdown]
      refine ⟨(hversions _).mp hlatest.1, fun other hother => ?_⟩
      exact hlatest.2 other ((hversions other).mpr hother)

/-- The history identifies what ran exactly if what ran has a version and description it keeps. -/
theorem runMigrations_identifies_iff (hout : Faultless outside) (hsettled : HistorySettled w)
    (hdistinct : Distinct scripts)
    (hlength : ∀ script ∈ scripts, (CString.encode script.name.toList).length ≤ 4000) :
    ∃ result w' delta,
      Runs (runMigrations outside.conn (scripts.map Script.migration)) w result w' ∧
      w'.log = w.log ++ delta ∧
      (Identifies outside w.rows (Ran scripts delta) w' ↔
        ∀ script, Ran scripts delta script → Good script) := by
  have hstart := historyAt_ready hsettled
  obtain ⟨result, w', hrun, hpending⟩ :=
    runPending_runsPending outside (pendingScripts w.rows scripts) hstart
  obtain ⟨done, rest, new, delta, hsplit, hlog, hnew, hnames, hend, hdone, hups⟩ :=
    hpending.recorded hout hstart
  refine ⟨result, w', delta, (runMigrations_apply scripts w).trans hrun, by rw [hlog, log_ready],
    ?_⟩
  have hcases : ∀ script, Ran scripts delta script → script ∈ done ∨
      script ∈ pendingScripts w.rows scripts ∧ ∃ tick,
        insertRow (script.row outside tick) (some (w.rows ++ new)) ≠
          .ok (w.rows ++ new ++ [script.row outside tick]) := by
    rintro script ⟨hscript, hup⟩
    rcases hups _ hup with ⟨other, hother, heq⟩ | ⟨other, hother, heq, tick, hrefused⟩
    · have hpending : other ∈ pendingScripts w.rows scripts := by simp [hsplit, hother]
      obtain rfl := eq_of_version_eq hdistinct (mem_pendingScripts.mp hpending).1 hscript heq
      exact .inl hother
    · obtain rfl := eq_of_version_eq hdistinct (mem_pendingScripts.mp hother).1 hscript heq
      exact .inr ⟨hother, tick, hrefused⟩
  have hran_done : ∀ script ∈ done, Ran scripts delta script := by
    intro script hscript
    have hpending : script ∈ pendingScripts w.rows scripts := by simp [hsplit, hscript]
    exact ⟨(mem_pendingScripts.mp hpending).1, hdone script hscript⟩
  constructor
  · intro hid script hran
    have hpending : script.version ∉ versions w.rows := by
      rcases hcases script hran with hscript | ⟨hscript, -⟩
      · have hmem : script ∈ pendingScripts w.rows scripts := by simp [hsplit, hscript]
        exact (mem_pendingScripts.mp hmem).2
      · exact (mem_pendingScripts.mp hscript).2
    obtain ⟨rows, hhistory, row, hrow, hversion, hname⟩ := hid.recorded script hran
    obtain rfl : w.rows ++ new = rows := by simpa [hend.1] using hhistory
    rcases List.mem_append.mp hrow with hold | hrow
    · exact absurd (hversion ▸ List.mem_map_of_mem hold) hpending
    · obtain ⟨other, -, hrecords⟩ := exists_related hnew.flip hrow
      refine ⟨?_, ?_, ?_⟩
      · rw [← hversion, hrecords.1]
        exact representable_castInt other.version
      · rw [← hname]
        exact hnames row hrow
      · rw [← hname, hrecords.2]
        exact zero_not_mem_storedText other.name
  · intro hgood
    have hversions := versions_of_records hnew fun script hscript =>
      (hgood script (hran_done script hscript)).1
    have hran : ∀ script, Ran scripts delta script → script ∈ done := by
      intro script hran
      rcases hcases script hran with hscript | ⟨hscript, tick, hrefused⟩
      · exact hscript
      · by_contra hnot
        apply hrefused
        apply insertRow_of_good (hgood script hran) (hlength script hran.1)
        rw [versions_append, List.mem_append, hversions, List.mem_map]
        rintro (hold | ⟨other, hother, heq⟩)
        · exact (mem_pendingScripts.mp hscript).2 hold
        · have hsame := eq_of_version_eq hdistinct (hran_done other hother).1 hran.1 heq
          exact hnot (hsame ▸ hother)
    apply identifies_of_versions hend
    · intro script hscript
      obtain ⟨row, hrow, hrecords⟩ := exists_related hnew (hran script hscript)
      obtain ⟨hexact, -, hzero⟩ := hgood script hscript
      refine ⟨row, List.mem_append_right _ hrow, ?_, ?_⟩
      · rw [hrecords.1, castInt_castDouble_iff]
        exact hexact
      · rw [hrecords.2, storedText_eq_iff]
        exact hzero
    · intro version
      rw [versions_append, List.mem_append, hversions, Known, List.mem_map]
      apply or_congr_right
      constructor
      · rintro ⟨script, hscript, heq⟩
        exact ⟨script, hran_done script hscript, heq⟩
      · rintro ⟨script, hscript, heq⟩
        exact ⟨script, hran script hscript, heq⟩

end

theorem runMigrations_identifies_counters :
    let scripts := [counterScript 2 "second", counterScript 1 "first"]
    let _ := unshown
    ∃ result w' delta,
      Runs (runMigrations alwaysUp.conn (scripts.map Script.migration)) fresh result w' ∧
      w'.log = delta ∧
      (Identifies alwaysUp [] (Ran scripts delta) w' ↔
        ∀ script, Ran scripts delta script → Good script) := by
  intro scripts _
  have hdistinct : Distinct scripts := by
    simp [scripts, Distinct, counterScript]
  have hlength : ∀ script ∈ scripts, (CString.encode script.name.toList).length ≤ 4000 := by
    decide
  exact runMigrations_identifies_iff (w := fresh) (fun _ => rfl) rfl hdistinct hlength

/-- One version is rounded on its way to the history, one description is empty. -/
def unstorable : List (Script Nat) :=
  [counterScript 9007199254740993 "wide", counterScript 9007199254740994 ""]

/-- The row the first of them leaves. -/
def roundedRow : HistoryRow :=
  ⟨castDouble 9007199254740993, "wide", "2024-01-15T12:00:00.000000000"⟩

theorem pendingScripts_unstorable : pendingScripts [] unstorable = unstorable := by
  rw [pendingScripts, sortScripts, List.mergeSort_of_pairwise]
  · rfl
  · simp [unstorable, counterScript]

theorem runMigrations_unstorable_not_identified :
    let _ := unshown
    ∃ err w', Runs (runMigrations alwaysUp.conn (unstorable.map Script.migration)) fresh
        (.error err) w' ∧
      (∀ script ∈ unstorable, Ran unstorable w'.log script) ∧
      Runs (listAppliedMigrations alwaysUp.conn) w'
        (.ok [⟨9007199254740992, "wide", "2024-01-15T12:00:00.000000000"⟩]) w' ∧
      ¬ Identifies alwaysUp [] (Ran unstorable w'.log) w' := by
  intro _
  let w' : DbWorld Nat := ⟨⟨⟨1, some [roundedRow]⟩, ⟨2, some [roundedRow]⟩⟩, 5,
    [.up 9007199254740993 true, .insert true, .commit (some ⟨1, some [roundedRow]⟩),
      .up 9007199254740994 true, .insert false]⟩
  have hran : ∀ script ∈ unstorable, Ran unstorable w'.log script := by
    simp [w', unstorable, Ran, counterScript]
  let w₁ : DbWorld Nat := ⟨Session.start ⟨1, some [roundedRow]⟩, 3, w'.log.take 3⟩
  have hwide : fresh.apply alwaysUp (counterScript 9007199254740993 "wide") = (.ok (), w₁) := rfl
  let refused := oraError 1400 "ORA-01400: cannot insert NULL into (\"DESCRIPTION\")"
  have hunnamed : w₁.apply alwaysUp (counterScript 9007199254740994 "") =
      (.error refused, w') := rfl
  refine ⟨refused, w', ?_, hran, ?_, ?_⟩
  · have hrows : fresh.rows = [] := rfl
    have hready : fresh.ready = fresh := rfl
    rw [Runs, runMigrations_apply, hrows, hready, pendingScripts_unstorable, unstorable,
      runPending_cons, hwide]
    simp only [runPending_cons, hunnamed]
  · have hrows : w'.rows = [roundedRow] := rfl
    rw [Runs, listAppliedMigrations_apply, hrows, applied, sortRows, List.mergeSort_singleton]
    rfl
  · intro hid
    have hunnamed : counterScript 9007199254740994 "" ∈ unstorable := by simp [unstorable]
    obtain ⟨rows, hrows, row, hrow, -, hname⟩ := hid.recorded _ (hran _ hunnamed)
    cases hrows
    obtain rfl := List.mem_singleton.mp hrow
    exact absurd hname (by decide)

end IdrisOracle
