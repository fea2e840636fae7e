import IdrisOracle.Rollback

/-! The committed data is the replay of the migrations whose commit succeeded. -/

namespace IdrisOracle

open Effect

/-- The application or the removal of a migration. -/
inductive Change where
  | up (version : Int64)
  | down (version : Int64)
deriving DecidableEq

def Change.version : Change → Int64
  | .up version | .down version => version

/-- Migrations by their versions: a name, and what the complete up and down do to the data. -/
structure Family (U : Type) where
  name : Int64 → String
  up : Int64 → U → U
  down : Int64 → U → U

variable {U : Type} {family : Family U} {outside : Outside} {rows : List HistoryRow} {u₀ : U}
  {u : U}
  {cs : List Change} {version : Int64} {w w' : DbWorld U} {result : Outcome Unit}
  {fails : Nat → U → Option (OracleError × U)} {log : List (MigrationEvent U)}

section Actions

/-- A DML-only action, which can stop with an error after a part of its changes. -/
def dmlAction (fails : Nat → U → Option (OracleError × U)) (change : U → U) (tick : Nat)
    (s : Session U) : Session U × Outcome Unit :=
  match fails tick s.working with
  | some (err, u) => (s.dml fun _ => u, .error err)
  | none => (s.dml change, .ok ())

def Family.script (family : Family U) (fails : Nat → U → Option (OracleError × U))
    (version : Int64) : Script U :=
  ⟨version, family.name version, dmlAction fails (family.up version),
    dmlAction fails (family.down version)⟩

theorem dmlAction_committed (fails : Nat → U → Option (OracleError × U)) (change : U → U)
    (tick : Nat) (s : Session U) : (dmlAction fails change tick s).1.committed = s.committed := by
  unfold dmlAction
  split <;> rfl

theorem dmlAction_ok {change : U → U} {tick : Nat} {s : Session U}
    (h : (dmlAction fails change tick s).2 = .ok ()) :
    (dmlAction fails change tick s).1.working = change s.working := by
  unfold dmlAction at h ⊢
  split at h
  · cases h
  · simp [*, Session.dml]

end Actions

section Ledger

/-- The change that waits for its commit and the changes whose commit succeeded. -/
structure Ledger where
  running : Option Change
  done : List Change

def Ledger.next (ledger : Ledger) : MigrationEvent U → Ledger
  | .up version true => { ledger with running := some (.up version) }
  | .down version true => { ledger with running := some (.down version) }
  | .insert true | .delete true => ledger
  | .commit (some _) => ⟨none, ledger.done ++ ledger.running.toList⟩
  | .up _ false | .down _ false | .insert false | .delete false | .commit none =>
      { ledger with running := none }

/-- The changes whose commit succeeded, in the order of the commits. -/
def changes (log : List (MigrationEvent U)) : List Change :=
  (log.foldl Ledger.next ⟨none, []⟩).done

/-- The complete action of a change. -/
def Family.complete (family : Family U) (u : U) : Change → U
  | .up version => family.up version u
  | .down version => family.down version u

/-- The data after the complete actions of the changes. -/
def Family.replay (family : Family U) (u : U) (cs : List Change) : U :=
  cs.foldl family.complete u

/-- The last change of a version. -/
def lastChange (cs : List Change) (version : Int64) : Option Change :=
  (cs.filter fun change => change.version = version).getLast?

theorem changes_up (db : Db U) :
    changes (log ++ [.up version true, .insert true, .commit (some db)]) =
      changes log ++ [.up version] := by
  simp [changes, Ledger.next]

theorem changes_down (db : Db U) :
    changes (log ++ [.down version true, .delete true, .commit (some db)]) =
      changes log ++ [.down version] := by
  simp [changes, Ledger.next]

/-- The event leaves what is committed as it is. -/
def Quiet (event : MigrationEvent U) : Prop := ∀ db, event ≠ .commit (some db)

theorem Ledger.done_next {event : MigrationEvent U} (h : Quiet event) (ledger : Ledger) :
    (ledger.next event).done = ledger.done := by
  cases event with
  | commit committed =>
      cases committed with
      | none => rfl
      | some db => exact absurd rfl (h db)
  | up _ ok | down _ ok | insert ok | delete ok => cases ok <;> rfl

theorem changes_quiet {delta : List (MigrationEvent U)} (h : ∀ event ∈ delta, Quiet event) :
    changes (log ++ delta) = changes log := by
  rw [changes, changes, List.foldl_append]
  generalize log.foldl Ledger.next ⟨none, []⟩ = ledger
  induction delta generalizing ledger with
  | nil => rfl
  | cons event delta ih =>
      have hrest := ih (fun e he => h e (List.mem_cons_of_mem _ he)) (ledger.next event)
      rw [List.foldl_cons, hrest, Ledger.done_next (h event List.mem_cons_self)]

theorem replay_concat (change : Change) :
    family.replay u₀ (cs ++ [change]) = family.complete (family.replay u₀ cs) change := by
  simp [Family.replay]

theorem lastChange_concat (change : Change) (version : Int64) :
    lastChange (cs ++ [change]) version =
      if change.version = version then some change else lastChange cs version := by
  by_cases h : change.version = version <;> simp [lastChange, h]

end Ledger

section Agreement

/-- The data is the replay of the changes and the history has the versions they left applied. -/
structure Agrees (family : Family U) (u₀ : U) (cs : List Change) (db : Db U) : Prop where
  user : db.user = family.replay u₀ cs
  history : ∃ rows, db.history = some rows ∧
    ∀ version, version ∈ versions rows ↔ lastChange cs version = some (.up version)

/-- Every database a commit left agrees with the changes committed up to it. -/
def EveryCommit (family : Family U) (u₀ : U) (log : List (MigrationEvent U)) : Prop :=
  ∀ before db, before ++ [.commit (some db)] <+: log →
    Agrees family u₀ (changes (before ++ [.commit (some db)])) db

/-- The versions of the rows are exactly representable. -/
def Exact (rows : List HistoryRow) : Prop :=
  ∀ row ∈ rows, ∃ version : Int64, Binary64.Representable version.toInt ∧
    row.version = castDouble version

/-- What holds of every committed database, the present one and the earlier ones. -/
structure Consistent (family : Family U) (u₀ : U) (w : DbWorld U) : Prop where
  present : Agrees family u₀ (changes w.log) w.session.committed
  every : EveryCommit family u₀ w.log

theorem EveryCommit.concat (h : EveryCommit family u₀ log) {event : MigrationEvent U}
    (hevent : ∀ db, event = .commit (some db) → Agrees family u₀ (changes (log ++ [event])) db) :
    EveryCommit family u₀ (log ++ [event]) := by
  intro before db hprefix
  rcases List.prefix_concat_iff.mp hprefix with heq | hprefix
  · obtain ⟨rfl, hlast⟩ := List.append_inj' heq rfl
    obtain rfl : event = .commit (some db) := by simpa using hlast.symm
    exact hevent db rfl
  · exact h before db hprefix

theorem EveryCommit.append (h : EveryCommit family u₀ log) {delta : List (MigrationEvent U)}
    (hquiet : ∀ event ∈ delta, Quiet event) : EveryCommit family u₀ (log ++ delta) := by
  induction delta generalizing log with
  | nil => simpa using h
  | cons event delta ih =>
      have hevent : EveryCommit family u₀ (log ++ [event]) := h.concat fun db heq =>
        absurd heq (hquiet event List.mem_cons_self db)
      simpa using ih hevent fun e he => hquiet e (List.mem_cons_of_mem _ he)

theorem mem_versions_without (hexact : Exact rows) (hversion : Binary64.Representable version.toInt)
    (other : Int64) : other ∈ versions (without rows version) ↔
      other ∈ versions rows ∧ other ≠ version := by
  simp only [versions, without, List.mem_map, List.mem_filter, decide_eq_true_eq]
  constructor
  · rintro ⟨row, ⟨hrow, hnumber⟩, rfl⟩
    refine ⟨⟨row, hrow, rfl⟩, fun heq => hnumber ?_⟩
    obtain ⟨stored, hstored, hdouble⟩ := hexact row hrow
    rw [hdouble, (castInt_castDouble_iff stored).mpr hstored] at heq
    rw [HistoryRow.number, hdouble, heq]
  · rintro ⟨⟨row, hrow, rfl⟩, hne⟩
    refine ⟨row, ⟨hrow, fun hnumber => hne ?_⟩, rfl⟩
    rw [castInt, ← HistoryRow.number, hnumber]
    exact (castInt_castDouble_iff version).mpr hversion

theorem Agrees.up (h : Agrees family u₀ cs ⟨u, some rows⟩) {row : HistoryRow}
    (hrow : castInt row.version = version) :
    Agrees family u₀ (cs ++ [.up version]) ⟨family.up version u, some (rows ++ [row])⟩ := by
  obtain ⟨huser, _, hrows, hhistory⟩ := h
  cases hrows
  constructor
  · rw [replay_concat, ← huser]
    rfl
  · refine ⟨_, rfl, fun other => ?_⟩
    rw [versions_append, List.mem_append, hhistory, lastChange_concat]
    by_cases heq : version = other <;> simp [versions, Change.version, hrow, heq, eq_comm]

theorem Agrees.down (h : Agrees family u₀ cs ⟨u, some rows⟩) (hexact : Exact rows)
    (hversion : Binary64.Representable version.toInt) :
    Agrees family u₀ (cs ++ [.down version])
      ⟨family.down version u, some (without rows version)⟩ := by
  obtain ⟨huser, _, hrows, hhistory⟩ := h
  cases hrows
  constructor
  · rw [replay_concat, ← huser]
    rfl
  · refine ⟨_, rfl, fun other => ?_⟩
    rw [mem_versions_without hexact hversion, hhistory, lastChange_concat]
    by_cases heq : version = other <;> simp [Change.version, heq, eq_comm]

/-- The invariant of a session between two calls. -/
structure Invariant (family : Family U) (u₀ : U) (w : DbWorld U) : Prop extends
    Consistent family u₀ w where
  exact : ∃ rows, w.session.committed.history = some rows ∧ Exact rows

theorem Invariant.quiet (h : Invariant family u₀ w) {delta : List (MigrationEvent U)}
    (hcommitted : w'.session.committed = w.session.committed) (hlog : w'.log = w.log ++ delta)
    (hquiet : ∀ event ∈ delta, Quiet event) : Invariant family u₀ w' := by
  obtain ⟨⟨hpresent, hevery⟩, hexact⟩ := h
  refine ⟨⟨?_, ?_⟩, by rwa [hcommitted]⟩
  · rwa [hlog, changes_quiet hquiet, hcommitted]
  · rw [hlog]
    exact hevery.append hquiet

theorem Invariant.commit (h : Invariant family u₀ w) {action edit : MigrationEvent U}
    (hlog : w'.log = w.log ++ [action, edit, .commit (some w'.session.committed)])
    (haction : Quiet action) (hedit : Quiet edit)
    (hagrees : Agrees family u₀ (changes w'.log) w'.session.committed)
    (hexact : ∃ rows, w'.session.committed.history = some rows ∧ Exact rows) :
    Invariant family u₀ w' := by
  refine ⟨⟨hagrees, ?_⟩, hexact⟩
  have hsplit : w'.log = w.log ++ [action, edit] ++ [.commit (some w'.session.committed)] := by
    simp [hlog]
  rw [hsplit] at hagrees ⊢
  apply (h.every.append (by simp [haction, hedit])).concat
  intro db heq
  obtain rfl : w'.session.committed = db := by simpa using heq
  exact hagrees

end Agreement

section Steps

theorem HistoryAt.committed_eq (h : HistoryAt rows w) :
    w.session.committed = ⟨w.session.committed.user, some rows⟩ := by
  rw [← h.1]

theorem Invariant.exact_rows (h : Invariant family u₀ w) (hhistory : HistoryAt rows w) :
    Exact rows := by
  obtain ⟨rows', hrows, hexact⟩ := h.exact
  obtain rfl : rows = rows' := by simpa [hhistory.1] using hrows
  exact hexact

variable (h : Invariant family u₀ w) (hclean : w.session.Clean) (hhistory : HistoryAt rows w)

include h hclean hhistory

theorem Invariant.applied (hversion : Binary64.Representable version.toInt)
    (happlied : Applied outside (family.script fails version) rows w result w') :
    Invariant family u₀ w' ∧ (result = .ok () → w'.session.Clean) := by
  have hkept := dmlAction_committed fails (family.up version) w.tick w.user
  cases happlied with
  | upFails _ hlog hsession | insertFails _ _ hlog hsession | commitFails _ _ hlog hsession =>
      refine ⟨h.quiet ?_ hlog (by simp [Quiet]), by simp⟩
      rw [hsession, hhistory.committed_eq]
      exact congrArg (Db.mk · (some rows)) hkept
  | succeeds hup hinsert hlog hsession =>
      have hagrees : Agrees family u₀ (changes w'.log) w'.session.committed := by
        have hpresent := hhistory.committed_eq ▸ h.present
        have hworking : ((family.script fails version).up w.tick w.user).1.working =
            family.up version w.session.committed.user :=
          (dmlAction_ok hup).trans (congrArg (fun db => family.up version db.user) hclean)
        rw [hlog, changes_up, hsession, hworking]
        exact hpresent.up ((castInt_castDouble_iff version).mpr hversion)
      refine ⟨h.commit hlog (by simp [Quiet]) (by simp [Quiet]) hagrees ?_, fun _ => hsession ▸ rfl⟩
      refine ⟨_, by rw [hsession]; rfl, ?_⟩
      intro row hrow
      rcases List.mem_append.mp hrow with hrow | hrow
      · exact h.exact_rows hhistory row hrow
      · obtain rfl := List.mem_singleton.mp hrow
        exact ⟨version, hversion, rfl⟩

theorem Invariant.rolledBack (hversion : Binary64.Representable version.toInt)
    (hback : RolledBack outside (family.script fails version) rows w result w') :
    Invariant family u₀ w' := by
  have hkept := dmlAction_committed fails (family.down version) w.tick w.user
  cases hback with
  | downFails _ hlog hsession | deleteFails _ _ hlog hsession | commitFails _ _ hlog hsession =>
      refine h.quiet ?_ hlog (by simp [Quiet])
      rw [hsession, hhistory.committed_eq]
      exact congrArg (Db.mk · (some rows)) hkept
  | succeeds hdown hlog hsession =>
      have hagrees : Agrees family u₀ (changes w'.log) w'.session.committed := by
        have hpresent := hhistory.committed_eq ▸ h.present
        have hworking : ((family.script fails version).down w.tick w.user).1.working =
            family.down version w.session.committed.user :=
          (dmlAction_ok hdown).trans (congrArg (fun db => family.down version db.user) hclean)
        rw [hlog, changes_down, hsession, hworking]
        exact hpresent.down (h.exact_rows hhistory) hversion
      refine h.commit hlog (by simp [Quiet]) (by simp [Quiet]) hagrees ?_
      refine ⟨_, by rw [hsession]; rfl, ?_⟩
      intro row hrow
      exact h.exact_rows hhistory row (List.mem_of_mem_filter hrow)

theorem Invariant.runsPending {scripts : List (Script U)}
    (hscripts : ∀ script ∈ scripts, ∃ version, Binary64.Representable version.toInt ∧
      family.script fails version = script)
    (hrun : RunsPending outside scripts rows w result w') : Invariant family u₀ w' := by
  induction scripts generalizing rows w with
  | nil =>
      cases hrun
      exact h
  | cons script scripts ih =>
      obtain ⟨version, hversion, rfl⟩ := hscripts script List.mem_cons_self
      cases hrun with
      | stops happlied => exact (h.applied hclean hhistory hversion happlied).1
      | applies happlied hrest =>
          obtain ⟨hinvariant, hstart⟩ := h.applied hclean hhistory hversion happlied
          exact ih hinvariant (hstart rfl) happlied.historyAt
            (fun s hs => hscripts s (List.mem_cons_of_mem _ hs)) hrest

end Steps

section Calls

/-- What a caller does with the connection, with the versions of the migrations it supplies. -/
inductive Call where
  | runMigrations (versions : List Int64)
  | rollbackMigration (versions : List Int64)
  | rollback

def Call.versions : Call → List Int64
  | .runMigrations versions | .rollbackMigration versions => versions
  | .rollback => []

variable [ShowRow]

def Family.call (family : Family U) (outside : Outside)
    (fails : Nat → U → Option (OracleError × U)) : Call → Eff (DbWorld U) (Outcome Unit)
  | .runMigrations versions =>
      IdrisOracle.runMigrations outside.conn
        ((versions.map (family.script fails)).map Script.migration)
  | .rollbackMigration versions =>
      IdrisOracle.rollbackMigration outside.conn
        ((versions.map (family.script fails)).map Script.migration)
  | .rollback => step fun w => (.ok (), { w with session := w.session.rollback })

/-- A sequence of calls on an empty history, each with the world it started in. -/
inductive CallRun (family : Family U) (outside : Outside)
    (fails : Nat → U → Option (OracleError × U)) (u₀ : U) :
    List (Call × DbWorld U) → DbWorld U → Prop
  | start : CallRun family outside fails u₀ [] ⟨Session.start ⟨u₀, some []⟩, 0, []⟩
  | call {calls : List (Call × DbWorld U)} {call : Call} {w w' : DbWorld U} {result : Outcome Unit}
      (hcalls : CallRun family outside fails u₀ calls w)
      (hrun : Runs (family.call outside fails call) w result w') :
      CallRun family outside fails u₀ (calls ++ [(call, w)]) w'

theorem Invariant.call {call : Call} (h : Invariant family u₀ w)
    (hclean : call = .rollback ∨ w.session.Clean)
    (hexact : ∀ version ∈ call.versions, Binary64.Representable version.toInt)
    (hrun : Runs (family.call outside fails call) w result w') : Invariant family u₀ w' := by
  obtain ⟨rows, hrows, -⟩ := h.exact
  have hscripts : ∀ script ∈ call.versions.map (family.script fails),
      ∃ version, Binary64.Representable version.toInt ∧ family.script fails version = script := by
    intro script hscript
    obtain ⟨version, hversion, rfl⟩ := List.mem_map.mp hscript
    exact ⟨version, hexact version hversion, rfl⟩
  rcases hclean with rfl | hclean
  · cases hrun
    exact h.quiet rfl (List.append_nil _).symm (by simp)
  have hhistory : HistoryAt rows w := ⟨hrows, (congrArg Db.history hclean).trans hrows⟩
  cases call with
  | rollback =>
      cases hrun
      exact h.quiet rfl (List.append_nil _).symm (by simp)
  | runMigrations vs =>
      obtain ⟨r, w₁, hrun₁, hpending⟩ := runPending_runsPending outside
        (pendingScripts rows (vs.map (family.script fails))) hhistory
      have hrun₂ : Runs (family.call outside fails (.runMigrations vs)) w r w₁ := by
        rw [Runs, Family.call, runMigrations_apply, hhistory.rows_eq, hhistory.ready_eq]
        exact hrun₁
      obtain ⟨rfl, rfl⟩ := hrun.unique hrun₂
      exact h.runsPending hclean hhistory
        (fun script hscript => hscripts script (mem_pendingScripts.mp hscript).1) hpending
  | rollbackMigration vs =>
      obtain ⟨r, w₁, hrun₁, hcases⟩ := rollbackMigration_cases outside
        (vs.map (family.script fails)) hhistory
      obtain ⟨rfl, rfl⟩ := hrun.unique hrun₁
      rcases hcases with ⟨rfl, -, -⟩ | ⟨script, hscript, -, hback⟩
      · exact h
      · obtain ⟨version, hversion, rfl⟩ := hscripts script hscript
        exact h.rolledBack hclean hhistory hversion hback

/-- If no call starts with changes an earlier one left open, data and history always agree. -/
theorem callRun_consistent_of_clean {calls : List (Call × DbWorld U)}
    (hrun : CallRun family outside fails u₀ calls w)
    (hexact : ∀ call ∈ calls, ∀ version ∈ call.1.versions, Binary64.Representable version.toInt)
    (hclean : ∀ call ∈ calls, call.1 = .rollback ∨ call.2.session.Clean) :
    Consistent family u₀ w := by
  suffices hinvariant : Invariant family u₀ w from hinvariant.toConsistent
  induction hrun with
  | start =>
      refine ⟨⟨⟨rfl, [], rfl, by simp [versions, lastChange, changes]⟩, ?_⟩, [], rfl,
        by simp [Exact]⟩
      intro before db hprefix
      simp at hprefix
  | @call calls call w w' result hcalls hcall ih =>
      have hbefore := ih (fun c hc => hexact c (List.mem_append_left _ hc))
        (fun c hc => hclean c (List.mem_append_left _ hc))
      have hlast : (call, w) ∈ calls ++ [(call, w)] := by simp
      exact hbefore.call (hclean _ hlast) (hexact _ hlast) hcall

end Calls

section Tens

/-- Each application adds ten and each removal takes ten away. -/
def tens : Family Nat := ⟨fun _ => "tens", fun _ u => u + 10, fun _ u => u - 10⟩

/-- The first action stops after it has added one. -/
def firstStops (tick u : Nat) : Option (OracleError × Nat) :=
  if tick = 0 then some (oraError 1722 "ORA-01722: invalid number", u + 1) else none

/-- The row of its first version. -/
def tensRow : HistoryRow := ⟨castDouble 1, "tens", "2024-01-15T12:00:00.000000000"⟩

theorem call_single [ShowRow] (h : HistoryAt [] w) (version : Int64) :
    family.call outside fails (.runMigrations [version]) w =
      some (w.apply outside (family.script fails version)) := by
  have hpending : pendingScripts [] ([version].map (family.script fails)) =
      [family.script fails version] := by
    simp [pendingScripts, sortScripts, versions]
  exact runMigrations_single h hpending

theorem call_tens_first :
    let _ := unshown
    Runs (tens.call alwaysUp firstStops (.runMigrations [1])) ⟨Session.start ⟨0, some []⟩, 0, []⟩
      (.error (oraError 1722 "ORA-01722: invalid number"))
      ⟨⟨⟨0, some []⟩, ⟨1, some []⟩⟩, 1, [.up 1 false]⟩ := by
  intro _
  exact call_single ⟨rfl, rfl⟩ 1

theorem callRun_consistent_after_rollback :
    let _ := unshown
    ∃ calls w, CallRun tens alwaysUp firstStops 0 calls w ∧
      calls.map Prod.fst = [.runMigrations [1], .rollback, .runMigrations [1]] ∧
      w.session.committed.user = 10 ∧ Consistent tens 0 w := by
  intro _
  have hrollback : Runs (tens.call alwaysUp firstStops .rollback)
      ⟨⟨⟨0, some []⟩, ⟨1, some []⟩⟩, 1, [.up 1 false]⟩ (.ok ())
      ⟨⟨⟨0, some []⟩, ⟨0, some []⟩⟩, 1, [.up 1 false]⟩ := rfl
  have happly : DbWorld.apply alwaysUp ⟨⟨⟨0, some []⟩, ⟨0, some []⟩⟩, 1, [.up 1 false]⟩
      (tens.script firstStops 1) = (.ok (), ⟨Session.start ⟨10, some [tensRow]⟩, 4,
        [.up 1 false, .up 1 true, .insert true, .commit (some ⟨10, some [tensRow]⟩)]⟩) := rfl
  have hagain := (call_single ⟨rfl, rfl⟩ 1).trans (congrArg some happly)
  have hrun := ((CallRun.start.call call_tens_first).call hrollback).call hagain
  refine ⟨_, _, hrun, rfl, rfl, callRun_consistent_of_clean hrun ?_ ?_⟩
  · have hone : Binary64.Representable 1 := ⟨1, 0, by decide, by decide⟩
    simp [Call.versions, hone]
  · simp [Session.Clean, Session.start]

/-- What the first run left open is committed by the second and belongs to no migration. -/
theorem callRun_not_consistent_after_failure :
    let _ := unshown
    ∃ calls w, CallRun tens alwaysUp firstStops 0 calls w ∧
      calls.map Prod.fst = [.runMigrations [1], .runMigrations [1]] ∧
      changes w.log = [.up 1] ∧ w.session.committed.user = 11 ∧ tens.replay 0 [.up 1] = 10 ∧
      ¬ Consistent tens 0 w := by
  intro _
  have happly : DbWorld.apply alwaysUp ⟨⟨⟨0, some []⟩, ⟨1, some []⟩⟩, 1, [.up 1 false]⟩
      (tens.script firstStops 1) = (.ok (), ⟨Session.start ⟨11, some [tensRow]⟩, 4,
        [.up 1 false, .up 1 true, .insert true, .commit (some ⟨11, some [tensRow]⟩)]⟩) := rfl
  have hagain := (call_single ⟨rfl, rfl⟩ 1).trans (congrArg some happly)
  refine ⟨_, _, (CallRun.start.call call_tens_first).call hagain, rfl, rfl, rfl, rfl, ?_⟩
  intro h
  have huser := h.present.user
  revert huser
  decide

end Tens

end IdrisOracle
