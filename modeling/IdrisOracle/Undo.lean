import IdrisOracle.Removal

/-! A rollback takes back what was applied last, as long as the versions only ascend. -/

namespace IdrisOracle

open Effect

variable {U : Type} {outside : Outside} {rows : List HistoryRow} {script : Script U}
  {scripts : List (Script U)} {w w' : DbWorld U} {version : Int64} {cs : List Change}

section Stack

/-- The version was applied last among those that are recorded. -/
def MostRecent (cs : List Change) (recorded : List Int64) (version : Int64) : Prop :=
  version ∈ recorded ∧ ∃ before after, cs = before ++ .up version :: after ∧
    ∀ other ∈ recorded, .up other ∉ after

def Change.push (stack : List Int64) : Change → List Int64
  | .up version => (stack.filter fun other => other ≠ version) ++ [version]
  | .down version => stack.filter fun other => other ≠ version

/-- The applied versions by the time of their application. -/
def stack (cs : List Change) : List Int64 := cs.foldl Change.push []

@[simp] theorem stack_concat (change : Change) :
    stack (cs ++ [change]) = change.push (stack cs) := by
  simp [stack]

theorem mostRecent_unique {recorded : List Int64} {a b : Int64} (ha : MostRecent cs recorded a)
    (hb : MostRecent cs recorded b) : a = b := by
  obtain ⟨hamem, before, after, rfl, hafter⟩ := ha
  obtain ⟨hbmem, before', after', heq, hafter'⟩ := hb
  rcases List.append_eq_append_iff.mp heq with ⟨between, hbefore, hrest⟩ | ⟨between, hbefore, hrest⟩
  · cases between with
    | nil => exact Change.up.inj (List.cons.inj hrest).1
    | cons change between =>
        have hmem : .up b ∈ after := by
          rw [(List.cons.inj hrest).2]
          simp
        exact absurd hmem (hafter b hbmem)
  · cases between with
    | nil => exact (Change.up.inj (List.cons.inj hrest).1).symm
    | cons change between =>
        have hmem : .up a ∈ after' := by
          rw [(List.cons.inj hrest).2]
          simp
        exact absurd hmem (hafter' a hamem)

/-- A version on the stack was applied after those below it. -/
theorem applied_after {front back : List Int64} (h : stack cs = front ++ version :: back) :
    ∃ before after, cs = before ++ .up version :: after ∧
      ∀ other ∈ front ++ [version], .up other ∉ after := by
  induction cs using List.reverseRecOn generalizing front version back with
  | nil => simp [stack] at h
  | append_singleton cs change ih =>
      -- what stays of the stack keeps its place in the order
      have hkept : ∀ {removed : Int64} {back : List Int64},
          ((stack cs).filter fun other => other ≠ removed) = front ++ version :: back →
          ∃ before after, cs = before ++ .up version :: after ∧
            ∀ other ∈ front ++ [version], .up other ∉ after ∧ other ≠ removed := by
        intro removed back hfilter
        obtain ⟨below, above, hstack, rfl, habove⟩ := List.filter_eq_append_iff.mp hfilter
        obtain ⟨gone, rest, rfl, -, hne, -⟩ := List.filter_eq_cons_iff.mp habove
        rw [← List.append_assoc] at hstack
        obtain ⟨before, after, hsplit, hafter⟩ := ih hstack
        refine ⟨before, after, hsplit, fun other hother => ⟨hafter other ?_, ?_⟩⟩
        · rcases List.mem_append.mp hother with hother | hother
          · simp [List.mem_of_mem_filter hother]
          · exact List.mem_append_right _ hother
        · rcases List.mem_append.mp hother with hother | hother
          · simpa using (List.mem_filter.mp hother).2
          · rw [List.mem_singleton.mp hother]
            simpa using hne
      rw [stack_concat] at h
      cases change with
      | up applied =>
          rcases List.eq_nil_or_concat back with rfl | ⟨back, last, rfl⟩
          · obtain ⟨hfront, hlast⟩ := List.append_inj' h rfl
            obtain rfl : applied = version := by simpa using hlast
            exact ⟨cs, [], rfl, by simp⟩
          · have hsplit : ((stack cs).filter fun other => other ≠ applied) ++ [applied] =
                (front ++ version :: back) ++ [last] := by
              simpa [Change.push] using h
            obtain ⟨before, after, rfl, hafter⟩ := hkept (List.append_inj' hsplit rfl).1
            refine ⟨before, after ++ [.up applied], by simp, fun other hother => ?_⟩
            simpa using hafter other hother
      | down removed =>
          obtain ⟨before, after, rfl, hafter⟩ := hkept h
          refine ⟨before, after ++ [.down removed], by simp, fun other hother => ?_⟩
          simpa using (hafter other hother).1

end Stack

section Steps

/-- The history has the applied versions, exactly, in ascending order. -/
structure Stacked (rows : List HistoryRow) (w : DbWorld U) : Prop where
  settled : HistoryAt rows w
  exact : Exact rows
  ascending : (versions rows).Pairwise fun a b => a < b
  stacked : stack (changes w.log) = versions rows

/-- The version can be stored exactly and is above those of the history. -/
def Above (rows : List HistoryRow) (version : Int64) : Prop :=
  Binary64.Representable version.toInt ∧ ∀ recorded ∈ versions rows, recorded < version

theorem Stacked.applied (h : Stacked rows w) (habove : Above rows script.version)
    (happlied : Applied outside script rows w (.ok ()) w') :
    Stacked (rows ++ [script.row outside (w.tick + 1)]) w' := by
  obtain ⟨hversion, hlt⟩ := habove
  have hback : versions [script.row outside (w.tick + 1)] = [script.version] :=
    congrArg (fun version => [version]) ((castInt_castDouble_iff script.version).mpr hversion)
  refine ⟨happlied.historyAt, ?_, ?_, ?_⟩
  · intro row hrow
    rcases List.mem_append.mp hrow with hrow | hrow
    · exact h.exact row hrow
    · obtain rfl := List.mem_singleton.mp hrow
      exact ⟨script.version, hversion, rfl⟩
  · rw [versions_append, hback, List.pairwise_append]
    exact ⟨h.ascending, List.pairwise_singleton _ _, fun a ha b hb =>
      (List.mem_singleton.mp hb) ▸ hlt a ha⟩
  · cases happlied with
    | succeeds _ _ hlog _ =>
        have hnew : ((versions rows).filter fun other => other ≠ script.version) = versions rows :=
          List.filter_eq_self.mpr fun other hother => by
            simpa using Int64.ne_of_lt (hlt other hother)
        rw [hlog, changes_up, stack_concat, h.stacked, Change.push, hnew, versions_append, hback]

theorem Stacked.runsPending (h : Stacked rows w)
    (hsorted : scripts.Pairwise fun a b => a.version < b.version)
    (habove : ∀ script ∈ scripts, Above rows script.version)
    (hrun : RunsPending outside scripts rows w (.ok ()) w') :
    ∃ new, Stacked (rows ++ new) w' ∧ versions new = scripts.map Script.version := by
  induction scripts generalizing rows w with
  | nil =>
      cases hrun
      exact ⟨[], by simpa using h, rfl⟩
  | cons script scripts ih =>
      obtain ⟨hlt, hsorted⟩ := List.pairwise_cons.mp hsorted
      cases hrun with
      | applies happlied hrest =>
          have hfirst := habove script List.mem_cons_self
          have hback : castInt (castDouble script.version) = script.version :=
            (castInt_castDouble_iff script.version).mpr hfirst.1
          have hnext : ∀ next ∈ scripts,
              Above (rows ++ [script.row outside (w.tick + 1)]) next.version := by
            intro next hnext
            obtain ⟨hversion, hrows⟩ := habove next (List.mem_cons_of_mem _ hnext)
            refine ⟨hversion, fun recorded hrecorded => ?_⟩
            rw [versions_append, List.mem_append] at hrecorded
            rcases hrecorded with hrecorded | hrecorded
            · exact hrows recorded hrecorded
            · have heq : recorded = script.version := by
                rw [← hback]
                exact List.mem_singleton.mp hrecorded
              exact heq ▸ hlt next hnext
          obtain ⟨new, hstacked, hnew⟩ := ih (h.applied hfirst happlied) hsorted hnext hrest
          refine ⟨script.row outside (w.tick + 1) :: new, by simpa using hstacked, ?_⟩
          rw [List.map_cons, ← hnew]
          exact congrArg (· :: versions new) hback

theorem Exact.without (h : Exact rows) : Exact (without rows version) :=
  fun row hrow => h row (List.mem_of_mem_filter hrow)

/-- The removal of a version above the history takes the row that recorded it. -/
theorem without_append_row (h : Exact rows) (habove : Above rows script.version) (tick : Nat) :
    without (rows ++ [script.row outside tick]) script.version = rows := by
  have hkeep : ∀ row ∈ rows, row.number ≠ Binary64.truncate (castDouble script.version) := by
    intro row hrow hnumber
    have hrecorded : script.version ∈ versions rows := by
      rw [← (h.number_eq_iff habove.1 hrow).mp hnumber]
      exact List.mem_map_of_mem hrow
    exact Int64.lt_irrefl (habove.2 _ hrecorded)
  rw [without, List.filter_append, List.filter_eq_self.mpr (by simpa using hkeep)]
  simp [HistoryRow.number, Script.row]

theorem versions_without (h : Exact rows) (hversion : Binary64.Representable version.toInt) :
    versions (without rows version) = (versions rows).filter fun other => other ≠ version := by
  rw [versions, without, versions, List.filter_map]
  congr 1
  refine List.filter_congr fun row hrow => ?_
  exact decide_eq_decide.mpr (not_congr (h.number_eq_iff hversion hrow))

theorem Stacked.rolledBack (h : Stacked rows w) (hmem : script.version ∈ versions rows)
    (hback : RolledBack outside script rows w (.ok ()) w') :
    Stacked (without rows script.version) w' := by
  have hversion := h.exact.representable hmem
  obtain ⟨delta, -, -, -, hok, -⟩ := hback.spec
  refine ⟨hok rfl, h.exact.without, ?_, ?_⟩
  · rw [versions_without h.exact hversion]
    exact h.ascending.filter _
  · cases hback with
    | succeeds _ hlog _ =>
        rw [hlog, changes_down, stack_concat, h.stacked, versions_without h.exact hversion,
          Change.push]

theorem latest_unique {vs : List Int64} {a b : Int64} (ha : Latest a vs) (hb : Latest b vs) :
    a = b :=
  Int64.le_antisymm (hb.2 a ha.1) (ha.2 b hb.1)

theorem Stacked.exists_top (h : Stacked rows w) (hmem : version ∈ versions rows) :
    ∃ top, Latest top (versions rows) ∧ MostRecent (changes w.log) (versions rows) top := by
  rcases List.eq_nil_or_concat' (versions rows) with hnil | ⟨front, top, hsplit⟩
  · simp [hnil] at hmem
  · have htop : top ∈ versions rows := by simp [hsplit]
    obtain ⟨before, after, hchanges, hafter⟩ := applied_after (h.stacked.trans hsplit)
    refine ⟨top, ⟨htop, fun other hother => ?_⟩, htop, before, after, hchanges, ?_⟩
    · have hascending := h.ascending
      rw [hsplit, List.pairwise_append] at hascending
      rw [hsplit] at hother
      rcases List.mem_append.mp hother with hother | hother
      · exact Int64.le_of_lt (hascending.2.2 other hother top List.mem_cons_self)
      · exact Int64.le_of_eq (List.mem_singleton.mp hother)
    · rw [hsplit]
      exact hafter

/-- The highest version is the one that was applied last. -/
theorem Stacked.latest_iff (h : Stacked rows w) :
    Latest version (versions rows) ↔ MostRecent (changes w.log) (versions rows) version := by
  constructor
  · intro hlatest
    obtain ⟨top, htop, hrecent⟩ := h.exists_top hlatest.1
    exact latest_unique hlatest htop ▸ hrecent
  · intro hrecent
    obtain ⟨top, htop, htoprecent⟩ := h.exists_top hrecent.1
    exact mostRecent_unique hrecent htoprecent ▸ htop

end Steps

section Calls

/-- A call of the runner with the migrations it is given. -/
inductive RunnerCall (U : Type) where
  | runMigrations (scripts : List (Script U))
  | rollbackMigration (scripts : List (Script U))

def RunnerCall.supplied : RunnerCall U → List (Script U)
  | .runMigrations scripts | .rollbackMigration scripts => scripts

/-- Every migration the call has yet to apply is above the history. -/
def RunnerCall.Ascends (rows : List HistoryRow) : RunnerCall U → Prop
  | .runMigrations scripts =>
      ∀ script ∈ scripts, script.version ∉ versions rows → Above rows script.version
  | .rollbackMigration _ => True

variable [ShowRow]

def RunnerCall.run (outside : Outside) : RunnerCall U → Eff (DbWorld U) (Outcome Unit)
  | .runMigrations scripts =>
      IdrisOracle.runMigrations outside.conn (scripts.map Script.migration)
  | .rollbackMigration scripts =>
      IdrisOracle.rollbackMigration outside.conn (scripts.map Script.migration)

/-- A sequence of successful calls on an empty history, each with the world it started in. -/
inductive Succeeding (outside : Outside) : List (RunnerCall U × DbWorld U) → DbWorld U → Prop
  | start {w : DbWorld U} (hempty : w.rows = []) (hsettled : HistorySettled w)
      (hlog : w.log = []) : Succeeding outside [] w
  | call {calls : List (RunnerCall U × DbWorld U)} {call : RunnerCall U} {w w' : DbWorld U}
      (hcalls : Succeeding outside calls w) (hdistinct : Distinct call.supplied)
      (hrun : Runs (call.run outside) w (.ok ()) w') :
      Succeeding outside (calls ++ [(call, w)]) w'

/-- A rollback would take back what was applied last. -/
structure UndoesLast (outside : Outside) (w : DbWorld U) : Prop where
  latest : ∀ scripts : List (Script U), Distinct scripts →
    (∀ version ∈ versions w.rows, version ∈ scripts.map Script.version) →
    ∃ result w' delta,
      Runs (rollbackMigration outside.conn (scripts.map Script.migration)) w result w' ∧
      w'.log = w.log ++ delta ∧
      ∀ version, version ∈ downs delta ↔ MostRecent (changes w.log) (versions w.rows) version
  restores : ∀ (script : Script U) (scripts scripts' : List (Script U)) (w₁ w₂ : DbWorld U),
    pendingScripts w.rows scripts = [script] → Above w.rows script.version →
    Runs (runMigrations outside.conn (scripts.map Script.migration)) w (.ok ()) w₁ →
    Runs (rollbackMigration outside.conn (scripts'.map Script.migration)) w₁ (.ok ()) w₂ →
    w₂.session.committed.history = some w.rows ∧
      Runs (listAppliedMigrations outside.conn) w₂ (.ok (applied w.rows)) w₂

omit [ShowRow] in
theorem Stacked.ready (h : Stacked rows w) : Stacked w.rows w.ready := by
  rwa [h.settled.rows_eq, h.settled.ready_eq]

theorem Stacked.run (h : Stacked w.rows w.ready) {call : RunnerCall U}
    (hdistinct : Distinct call.supplied) (hascends : call.Ascends w.rows)
    (hrun : Runs (call.run outside) w (.ok ()) w') : Stacked w'.rows w'.ready := by
  cases call with
  | runMigrations scripts =>
      obtain ⟨result, w₁, hrun₁, hpending⟩ :=
        runPending_runsPending outside (pendingScripts w.rows scripts) h.settled
      obtain ⟨rfl, rfl⟩ := hrun.unique ((runMigrations_apply scripts w).trans hrun₁)
      have habove : ∀ script ∈ pendingScripts w.rows scripts, Above w.rows script.version := by
        intro script hscript
        obtain ⟨hmem, hnew⟩ := mem_pendingScripts.mp hscript
        exact hascends script hmem hnew
      obtain ⟨new, hstacked, -⟩ :=
        h.runsPending (pairwise_pendingScripts hdistinct) habove hpending
      exact hstacked.ready
  | rollbackMigration scripts =>
      obtain ⟨result, w₁, hrun₁, hcases⟩ := rollbackMigration_cases outside scripts h.settled
      rw [Runs, ← rollbackMigration_ready] at hrun₁
      obtain ⟨rfl, rfl⟩ := hrun.unique hrun₁
      rcases hcases with ⟨-, ⟨err, herror⟩, -⟩ | ⟨script, -, hlatest, hback⟩
      · cases herror
      · exact (h.rolledBack hlatest.1 hback).ready

theorem Stacked.undoesLast (h : Stacked w.rows w.ready) : UndoesLast outside w := by
  constructor
  case latest =>
    intro scripts hdistinct hall
    obtain ⟨result, w', hrun, hcases⟩ := rollbackMigration_cases outside scripts h.settled
    rw [Runs, ← rollbackMigration_ready] at hrun
    have hchanges : changes w.ready.log = changes w.log := by rw [log_ready]
    rcases hcases with ⟨rfl, -, hnone⟩ | ⟨script, -, hlatest, hback⟩
    · refine ⟨result, w.ready, [], hrun, by simp [log_ready], fun version => ?_⟩
      simp only [downs, List.filterMap_nil, List.not_mem_nil, false_iff]
      intro hrecent
      rw [← hchanges, ← h.latest_iff] at hrecent
      obtain ⟨script, hscript, rfl⟩ := List.mem_map.mp (hall version hrecent.1)
      exact hnone script hscript hrecent
    · obtain ⟨delta, hlog, hdowns, -⟩ := hback.spec
      refine ⟨result, w', delta, hrun, by rw [hlog, log_ready], fun version => ?_⟩
      rw [hdowns, List.mem_singleton, ← hchanges, ← h.latest_iff]
      constructor
      · rintro rfl
        exact hlatest
      · intro hother
        exact latest_unique hother hlatest
  case restores =>
    intro script scripts scripts' w₁ w₂ hpending habove hrun hrollback
    obtain ⟨result, w', hrun₁, hruns⟩ := runPending_runsPending outside [script] h.settled
    rw [Runs, runMigrations_apply, hpending] at hrun
    obtain ⟨rfl, rfl⟩ := Runs.unique hrun hrun₁
    cases hruns with
    | applies happlied hrest =>
        cases hrest
        have happliedstack := h.applied habove happlied
        obtain ⟨result, w', hrun₂, hcases⟩ :=
          rollbackMigration_cases outside scripts' happliedstack.settled
        obtain ⟨rfl, rfl⟩ := hrollback.unique hrun₂
        rcases hcases with ⟨-, ⟨err, herror⟩, -⟩ | ⟨removed, -, hlatest, hback⟩
        · cases herror
        · have hnew : versions [script.row outside (w.ready.tick + 1)] = [script.version] :=
            congrArg (fun version => [version])
              ((castInt_castDouble_iff script.version).mpr habove.1)
          have hlast : Latest script.version
              (versions (w.rows ++ [script.row outside (w.ready.tick + 1)])) := by
            rw [versions_append, hnew]
            refine ⟨by simp, fun other hother => ?_⟩
            rcases List.mem_append.mp hother with hother | hother
            · exact Int64.le_of_lt (habove.2 other hother)
            · exact Int64.le_of_eq (List.mem_singleton.mp hother)
          have hsettled := (happliedstack.rolledBack hlatest.1 hback).settled
          rw [latest_unique hlatest hlast, without_append_row h.exact habove] at hsettled
          refine ⟨hsettled.1, ?_⟩
          rw [Runs, listAppliedMigrations_apply, hsettled.rows_eq, hsettled.ready_eq]

/-- If versions only ascend, a rollback always takes back what was applied last. -/
theorem succeeding_undoesLast_of_ascends {calls : List (RunnerCall U × DbWorld U)}
    (hcalls : Succeeding outside calls w)
    (hascends : ∀ call ∈ calls, call.1.Ascends call.2.rows) : UndoesLast outside w := by
  suffices hstacked : Stacked w.rows w.ready from hstacked.undoesLast
  induction hcalls with
  | @start w hempty hsettled hlog =>
      have hstart := historyAt_ready hsettled
      rw [hempty] at hstart ⊢
      exact ⟨hstart, by simp [Exact], by simp [versions], by simp [log_ready, hlog, changes, stack,
        versions]⟩
  | @call calls call w w' hcalls hdistinct hrun ih =>
      have hbefore := ih fun c hc => hascends c (List.mem_append_left _ hc)
      exact hbefore.run hdistinct (hascends (call, w) (by simp)) hrun

end Calls

section Counters

/-- The record of a counter script. -/
def counterRow (version : Int64) (name : String) : HistoryRow :=
  ⟨castDouble version, name, "2024-01-15T12:00:00.000000000"⟩

/-- The world after the second version was applied. -/
def secondApplied : DbWorld Nat :=
  ⟨Session.start ⟨1, some [counterRow 2 "second"]⟩, 3,
    [.up 2 true, .insert true, .commit (some ⟨1, some [counterRow 2 "second"]⟩)]⟩

theorem succeeding_second :
    let _ := unshown
    Succeeding alwaysUp [(.runMigrations [counterScript 2 "second"], fresh)] secondApplied := by
  intro _
  have hstart : Succeeding alwaysUp [] fresh := .start rfl rfl rfl
  refine hstart.call (by simp [Distinct, RunnerCall.supplied]) ?_
  have hpending : pendingScripts [] [counterScript 2 "second"] = [counterScript 2 "second"] := by
    simp [pendingScripts, sortScripts, versions]
  have happly : fresh.apply alwaysUp (counterScript 2 "second") = (.ok (), secondApplied) := rfl
  exact (runMigrations_single ⟨rfl, rfl⟩ hpending).trans (congrArg some happly)

theorem succeeding_second_undoesLast :
    let _ := unshown
    UndoesLast alwaysUp secondApplied := by
  intro _
  refine succeeding_undoesLast_of_ascends succeeding_second ?_
  intro call hcall
  obtain rfl := List.mem_singleton.mp hcall
  intro script hscript _
  obtain rfl := List.mem_singleton.mp hscript
  exact ⟨⟨1, 1, by decide, by decide⟩, by simp [versions, fresh, DbWorld.rows, DbWorld.history,
    Session.start]⟩

/-- The world after the first version was applied late. -/
def firstAppliedLate : DbWorld Nat :=
  let rows := [counterRow 2 "second", counterRow 1 "first"]
  ⟨Session.start ⟨2, some rows⟩, 6,
    secondApplied.log ++ [.up 1 true, .insert true, .commit (some ⟨2, some rows⟩)]⟩

theorem succeeding_firstLate_not_undoesLast :
    let _ := unshown
    let scripts := [counterScript 1 "first", counterScript 2 "second"]
    Succeeding alwaysUp [(.runMigrations [counterScript 2 "second"], fresh),
        (.runMigrations scripts, secondApplied)] firstAppliedLate ∧
      MostRecent (changes firstAppliedLate.log) (versions firstAppliedLate.rows) 1 ∧
      (∃ result w' delta, Runs (rollbackMigration alwaysUp.conn (scripts.map Script.migration))
        firstAppliedLate result w' ∧ w'.log = firstAppliedLate.log ++ delta ∧ downs delta = [2]) ∧
      ¬ UndoesLast alwaysUp firstAppliedLate := by
  intro _ scripts
  have hversions : versions firstAppliedLate.rows = [2, 1] := rfl
  have hdistinct : Distinct scripts := by
    simp [scripts, Distinct, counterScript]
  have hrecent : MostRecent (changes firstAppliedLate.log) (versions firstAppliedLate.rows) 1 := by
    rw [hversions]
    exact ⟨by simp, [.up 2], [], rfl, by simp⟩
  have hlatest : Latest 2 (versions firstAppliedLate.rows) := by
    rw [hversions]
    refine ⟨by simp, fun other hother => ?_⟩
    rcases List.mem_pair.mp hother with rfl | rfl
    · exact Int64.le_refl _
    · exact Int64.le_of_lt (by simp)
  obtain ⟨result, w', hrun, hcases⟩ :=
    rollbackMigration_cases alwaysUp scripts (w := firstAppliedLate) ⟨rfl, rfl⟩
  have hdowns : ∃ delta, w'.log = firstAppliedLate.log ++ delta ∧ downs delta = [2] := by
    rcases hcases with ⟨-, -, hnone⟩ | ⟨script, -, hscript, hback⟩
    · exact absurd hlatest (hnone (counterScript 2 "second") (by simp [scripts]))
    · obtain ⟨delta, hlog, hdowns, -⟩ := hback.spec
      exact ⟨delta, hlog, by rw [hdowns, latest_unique hscript hlatest]⟩
  obtain ⟨delta, hlog, hdelta⟩ := hdowns
  refine ⟨?_, hrecent, ⟨result, w', delta, hrun, hlog, hdelta⟩, fun h => ?_⟩
  · have hpending : pendingScripts [counterRow 2 "second"] scripts = [counterScript 1 "first"] := by
      rw [pendingScripts, sortScripts]
      rw [List.mergeSort_of_pairwise (by simp [scripts, counterScript])]
      rfl
    have happly : secondApplied.apply alwaysUp (counterScript 1 "first") =
        (.ok (), firstAppliedLate) := rfl
    exact succeeding_second.call hdistinct
      ((runMigrations_single ⟨rfl, rfl⟩ hpending).trans (congrArg some happly))
  · obtain ⟨result₁, w₁, delta₁, hrun₁, hlog₁, hiff⟩ := h.latest scripts hdistinct (by
      rw [hversions]
      simp [scripts, counterScript])
    obtain ⟨-, rfl⟩ := hrun.unique hrun₁
    obtain rfl := List.append_cancel_left (hlog.symm.trans hlog₁)
    have hone : (1 : Int64) ∈ downs delta := (hiff 1).mpr hrecent
    simp [hdelta] at hone

end Counters

end IdrisOracle
