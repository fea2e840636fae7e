import IdrisOracle.Interleaving
import IdrisOracle.Identity

/-! Two clients that run the same migrations on one database. -/

namespace IdrisOracle

open Interleaving Interleaving.Program

/-- A call on a connection. -/
inductive ConnCall where
  | queryRaw (sql : String) (params : List BindParameter)
  | execute_ (sql : String) (params : List BindParameter)
  | commit

abbrev ConnCall.Answer : ConnCall → Type
  | .queryRaw .. => Outcome (List (List OracleValue))
  | .execute_ .. | .commit => Outcome Unit

/-- A call on a connection, or the moment at which the runner invokes an up. -/
inductive Action where
  | up (version : Int64)
  | call (c : ConnCall)

abbrev Action.Answer : Action → Type
  | .up _ => Unit
  | .call c => c.Answer

def ConnCall.conn : Conn (Program ConnCall ConnCall.Answer) where
  queryRaw sql params := .call (.queryRaw sql params) .done
  execute_ sql params := .call (.execute_ sql params) .done
  commit := .call .commit .done

def Action.conn : Conn (Program Action Action.Answer) where
  queryRaw sql params := .call (.call (.queryRaw sql params)) .done
  execute_ sql params := .call (.call (.execute_ sql params)) .done
  commit := .call (.call .commit) .done

/-- The migration with the invocations of its up visible. -/
def watched (migration : Migration (Program ConnCall ConnCall.Answer)) :
    Migration (Program Action Action.Answer) where
  migrationversion := migration.migrationversion
  migrationname := migration.migrationname
  migrationup _ := .call (.up migration.migrationversion) fun _ =>
    (migration.migrationup ConnCall.conn).embed .call
  migrationdown _ := (migration.migrationdown ConnCall.conn).embed .call

inductive Side where
  | first
  | second
deriving DecidableEq

def Side.other : Side → Side
  | .first => .second
  | .second => .first

/-- The migration history: the committed rows, and those each connection has inserted since. -/
structure SharedHistory where
  committed : List HistoryRow
  inserted : Side → List HistoryRow

namespace SharedHistory

/-- A connection sees its own and all committed rows. -/
def rows (s : SharedHistory) (side : Side) : List HistoryRow := s.committed ++ s.inserted side

def insert (s : SharedHistory) (side : Side) (row : HistoryRow) : SharedHistory :=
  { s with inserted := Function.update s.inserted side (s.inserted side ++ [row]) }

def commit (s : SharedHistory) (side : Side) : SharedHistory :=
  ⟨s.rows side, Function.update s.inserted side []⟩

/-- No two rows, committed or not, have the same version. -/
def Keyed (s : SharedHistory) : Prop :=
  ((s.committed ++ s.inserted .first ++ s.inserted .second).map HistoryRow.number).Nodup

/-- What the database does with an action of a connection, which may also fail. -/
inductive Performs (side : Side) (s : SharedHistory) :
    (action : Action) → action.Answer → SharedHistory → Prop
  | up (version : Int64) : Performs side s (.up version) () s
  | select {sql : String} {params : List BindParameter}
      (hsql : sql = selectMigrationTable ∨ sql = selectMigrations) :
      Performs side s (.call (.queryRaw sql params)) (IdrisOracle.select sql (some (s.rows side))) s
  | query {sql : String} {params : List BindParameter}
      {answer : Outcome (List (List OracleValue))} (htable : sql ≠ selectMigrationTable)
      (hhistory : sql ≠ selectMigrations) :
      Performs side s (.call (.queryRaw sql params)) answer s
  | queryFails {sql : String} {params : List BindParameter} (err : OracleError) :
      Performs side s (.call (.queryRaw sql params)) (.error err) s
  | insertFails {params : List BindParameter} {description : String} {version : Float}
      (time : String) {err : OracleError}
      (hversion : bound ":version" params = some (.oracleNumber version))
      (hdescription : bound ":description" params = some (.oracleString description))
      (hinsert : insertRow ⟨version, storedText description, time⟩ (some (s.rows side)) =
        .error err) :
      Performs side s (.call (.execute_ insertMigration params)) (.error err) s
  -- an INSERT waits while the other connection has an open row with its version
  | insert {params : List BindParameter} {description : String} {version : Float} (time : String)
      {rows : List HistoryRow}
      (hversion : bound ":version" params = some (.oracleNumber version))
      (hdescription : bound ":description" params = some (.oracleString description))
      (hinsert : insertRow ⟨version, storedText description, time⟩ (some (s.rows side)) = .ok rows)
      (hfree : ¬ Recorded (s.inserted side.other) version) :
      Performs side s (.call (.execute_ insertMigration params)) (.ok ())
        (s.insert side ⟨version, storedText description, time⟩)
  -- the statements of the migrations themselves, of which a DDL statement commits
  | statement {sql : String} {params : List BindParameter} {answer : Outcome Unit}
      (hcreate : sql ≠ createMigrationTable) (hinsert : sql ≠ insertMigration) :
      Performs side s (.call (.execute_ sql params)) answer s
  | ddl {sql : String} {params : List BindParameter} {answer : Outcome Unit}
      (hcreate : sql ≠ createMigrationTable) (hinsert : sql ≠ insertMigration) :
      Performs side s (.call (.execute_ sql params)) answer (s.commit side)
  | executeFails {sql : String} {params : List BindParameter} (err : OracleError) :
      Performs side s (.call (.execute_ sql params)) (.error err) s
  | commit : Performs side s (.call .commit) (.ok ()) (s.commit side)
  | commitFails (err : OracleError) : Performs side s (.call .commit) (.error err) s

section Keys

variable {s s' : SharedHistory} {side : Side}

theorem keyed_iff (s : SharedHistory) (side : Side) :
    s.Keyed ↔ ((s.rows side ++ s.inserted side.other).map HistoryRow.number).Nodup := by
  cases side with
  | first => exact Iff.rfl
  | second =>
      have hperm : (s.committed ++ s.inserted .first ++ s.inserted .second).Perm
          (s.committed ++ s.inserted .second ++ s.inserted .first) := by
        rw [List.append_assoc, List.append_assoc]
        exact List.perm_append_comm.append_left _
      exact (hperm.map HistoryRow.number).nodup_iff

@[simp] theorem inserted_other_commit :
    (s.commit side).inserted side.other = s.inserted side.other := by
  cases side <;> rfl

@[simp] theorem inserted_other_insert (row : HistoryRow) :
    (s.insert side row).inserted side.other = s.inserted side.other := by
  cases side <;> rfl

theorem rows_commit : (s.commit side).rows side = s.rows side := by
  simp [SharedHistory.rows, SharedHistory.commit]

theorem rows_insert (row : HistoryRow) : (s.insert side row).rows side = s.rows side ++ [row] := by
  simp [SharedHistory.rows, SharedHistory.insert]

theorem keyed_commit (h : s.Keyed) : (s.commit side).Keyed := by
  rw [keyed_iff _ side] at h ⊢
  rwa [rows_commit, inserted_other_commit]

theorem not_recorded_of_insertRow {row : HistoryRow} {rows rows' : List HistoryRow}
    (h : insertRow row (some rows) = .ok rows') : ¬ Recorded rows row.version := by
  simp only [insertRow] at h
  split at h
  · cases h
  · split at h
    · cases h
    · split at h
      · cases h
      · assumption

theorem keyed_insert {row : HistoryRow} (h : s.Keyed) (hrow : ¬ Recorded (s.rows side) row.version)
    (hfree : ¬ Recorded (s.inserted side.other) row.version) : (s.insert side row).Keyed := by
  have hnumber : row.number ∉ (s.rows side ++ s.inserted side.other).map HistoryRow.number := by
    intro hmem
    obtain ⟨row', hrow', hnumber⟩ := List.mem_map.mp hmem
    rcases List.mem_append.mp hrow' with hmem' | hmem'
    · exact hrow ⟨row', hmem', hnumber⟩
    · exact hfree ⟨row', hmem', hnumber⟩
  rw [keyed_iff _ side] at h ⊢
  rw [rows_insert, inserted_other_insert]
  have hperm : (s.rows side ++ [row] ++ s.inserted side.other).Perm
      (row :: (s.rows side ++ s.inserted side.other)) := by
    rw [List.append_assoc]
    exact List.perm_middle
  exact ((hperm.map HistoryRow.number).nodup_iff).mpr (List.nodup_cons.mpr ⟨hnumber, h⟩)

/-- The PRIMARY KEY holds across both connections after every action. -/
theorem keyed_performs {action : Action} {answer : action.Answer} (h : s.Keyed)
    (hperforms : s.Performs side action answer s') : s'.Keyed := by
  cases hperforms with
  | insert time _ _ hinsert hfree => exact keyed_insert h (not_recorded_of_insertRow hinsert) hfree
  | ddl _ _ => exact keyed_commit h
  | commit => exact keyed_commit h
  | _ => exact h

end Keys

end SharedHistory

section Paths

variable {calls : List (Σ action : Action, action.Answer)} {version : Int64}

def Action.IsUp : Action → Prop
  | .up _ => True
  | .call _ => False

/-- The versions whose up is invoked, in order. -/
def invoked (calls : List (Σ action : Action, action.Answer)) : List Int64 :=
  calls.filterMap fun call =>
    match call.1 with
    | .up version => some version
    | .call _ => none

@[simp] theorem invoked_append (first rest : List (Σ action : Action, action.Answer)) :
    invoked (first ++ rest) = invoked first ++ invoked rest := List.filterMap_append

theorem invoked_eq_nil (h : ∀ call ∈ calls, ¬ call.1.IsUp) : invoked calls = [] := by
  rw [invoked, List.filterMap_eq_nil_iff]
  rintro ⟨action, answer⟩ hcall
  cases action with
  | up version => exact (h _ hcall trivial).elim
  | call c => rfl

/-- A program without invocations of an up. -/
abbrev Silent {α : Type} (p : Program Action Action.Answer α) : Prop := Makes (¬ ·.IsUp) p

theorem Silent.invoked {α : Type} {p q : Program Action Action.Answer α} (h : Silent p)
    (hpath : Path p calls q) : invoked calls = [] := invoked_eq_nil (h calls q hpath)

theorem silent_call {α : Type} (c : ConnCall) {next : c.Answer → Program Action Action.Answer α}
    (h : ∀ answer, Silent (next answer)) : Silent (.call (.call c) next) :=
  makes_call not_false h

theorem silent_ensureMigrationTable : Silent (ensureMigrationTable Action.conn) := by
  refine silent_call _ fun answer => ?_
  cases answer with
  | error err => exact makes_done _
  | ok rows =>
      cases rows with
      | nil => exact silent_call _ fun _ => makes_done _
      | cons row rows => exact makes_done _

/-- Every path of the program invokes ups in this order, and perhaps not all. -/
def Invokes {α : Type} (versions : List Int64) (p : Program Action Action.Answer α) : Prop :=
  ∀ calls q, Path p calls q → invoked calls <+: versions

section Invokes

variable {α β : Type} {versions : List Int64} {p : Program Action Action.Answer α}
  {f : α → Program Action Action.Answer β}

theorem Silent.invokes (h : Silent p) : Invokes versions p := by
  intro calls q hpath
  rw [h.invoked hpath]
  exact List.nil_prefix

theorem Silent.andThen (h : Silent p) (hf : ∀ a, Invokes versions (f a)) :
    Invokes versions (p >>= f) := by
  intro calls q hpath
  rcases hpath.of_bind with ⟨p', hfirst⟩ | ⟨a, first, rest, rfl, hfirst, hrest⟩
  · rw [h.invoked hfirst]
    exact List.nil_prefix
  · rw [invoked_append, h.invoked hfirst, List.nil_append]
    exact hf a rest q hrest

theorem invokes_up {next : Unit → Program Action Action.Answer α} (h : Invokes versions (next ())) :
    Invokes (version :: versions) (.call (.up version) next) := by
  intro calls q hpath
  cases hpath with
  | nil => exact List.nil_prefix
  | cons hpath => exact List.cons_prefix_cons.mpr ⟨rfl, h _ _ hpath⟩

end Invokes

variable {migrations : List (Migration (Program Action Action.Answer))}

/-- The loop invokes the ups of its migrations in their order. -/
theorem invokes_runPending
    (hwatched : ∀ migration ∈ migrations, ∃ original, migration = watched original) :
    Invokes (migrations.map Migration.migrationversion)
      (runMigrations.runPending Action.conn migrations) := by
  induction migrations with
  | nil => exact Silent.invokes (makes_done _)
  | cons migration migrations ih =>
      obtain ⟨original, rfl⟩ := hwatched migration List.mem_cons_self
      have hrest := ih fun migration hmem => hwatched migration (List.mem_cons_of_mem _ hmem)
      have hup : Silent ((original.migrationup ConnCall.conn).embed Action.call :
          Program Action Action.Answer (Outcome Unit)) :=
        makes_embed (P := (¬ ·.IsUp)) Action.call (fun _ => not_false) _
      have hrecord : Silent (recordMigration Action.conn (watched original)) :=
        silent_call _ fun _ => makes_done _
      have hcommit : Silent Action.conn.commit := silent_call _ fun _ => makes_done _
      refine invokes_up (hup.andThen fun result => ?_)
      cases result with
      | error err => exact Silent.invokes (makes_done _)
      | ok u =>
          refine hrecord.andThen fun result => ?_
          cases result with
          | error err => exact Silent.invokes (makes_done _)
          | ok u =>
              refine hcommit.andThen fun result => ?_
              cases result with
              | error err => exact Silent.invokes (makes_done _)
              | ok u => exact hrest

/-- The migrations a client finds pending in a history. -/
def pendingIn (rows : List HistoryRow)
    (migrations : List (Migration (Program Action Action.Answer))) :
    List (Migration (Program Action Action.Answer)) :=
  (sortMigrations migrations).filter fun migration => !isMigrationApplied migration (applied rows)

theorem nodup_pendingIn {rows : List HistoryRow}
    (h : (migrations.map Migration.migrationversion).Nodup) :
    ((pendingIn rows migrations).map Migration.migrationversion).Nodup := by
  have hperm : (sortMigrations migrations).Perm migrations := List.mergeSort_perm _ _
  have hsorted : ((sortMigrations migrations).map Migration.migrationversion).Nodup :=
    (hperm.map _).nodup_iff.mpr h
  exact hsorted.sublist (List.filter_sublist.map _)

theorem not_mem_of_pendingIn {rows : List HistoryRow}
    (h : version ∈ (pendingIn rows migrations).map Migration.migrationversion) :
    version ∉ versions rows := by
  obtain ⟨migration, hmem, rfl⟩ := List.mem_map.mp h
  intro hversion
  have hpending := (List.mem_filter.mp hmem).2
  rw [isMigrationApplied_applied.mpr hversion] at hpending
  cases hpending

variable [ShowRow]

/-- What a client does with the answer to its reading of the history. -/
def afterRead (migrations : List (Migration (Program Action Action.Answer))) :
    Outcome (List (List OracleValue)) → Program Action Action.Answer (Outcome Unit)
  | .error err => .done (.error err)
  | .ok rows => do
      match ← listAppliedMigrations.decodeRows rows with
      | .error err => return .error err
      | .ok applied =>
          runMigrations.runPending Action.conn ((sortMigrations migrations).filter fun migration =>
            !isMigrationApplied migration applied)

theorem runMigrations_eq (migrations : List (Migration (Program Action Action.Answer))) :
    runMigrations Action.conn migrations = (do
      match ← ensureMigrationTable Action.conn with
      | .error err => return .error err
      | .ok () => .call (.call (.queryRaw selectMigrations [])) (afterRead migrations)) := by
  simp only [runMigrations, pendingMigrations, listAppliedMigrations, bind_assoc]
  congr 1
  funext result
  cases result with
  | error err => rfl
  | ok u =>
      change Program.call _ _ = Program.call _ _
      congr 1
      funext answer
      cases answer with
      | error err => rfl
      | ok rows =>
          refine congrArg (Program.bind (listAppliedMigrations.decodeRows rows)) ?_
          funext applied
          cases applied <;> rfl

/-- A client reads the history once, and only then invokes ups. -/
theorem invoked_runMigrations {calls : List (Σ action : Action, action.Answer)}
    {q : Program Action Action.Answer (Outcome Unit)}
    (h : Path (runMigrations Action.conn migrations) calls q) :
    invoked calls = [] ∨ ∃ before answer after,
      calls = before ++ ⟨.call (.queryRaw selectMigrations []), answer⟩ :: after ∧
      invoked before = [] ∧ Path (afterRead migrations answer) after q := by
  rw [runMigrations_eq] at h
  rcases h.of_bind with ⟨p', hfirst⟩ | ⟨result, first, rest, rfl, hfirst, hrest⟩
  · exact .inl (silent_ensureMigrationTable.invoked hfirst)
  · have hnone : invoked first = [] := silent_ensureMigrationTable.invoked hfirst
    cases result with
    | error err =>
        obtain ⟨rfl, -⟩ := path_done hrest
        exact .inl (by simpa using hnone)
    | ok u =>
        cases hrest with
        | nil => exact .inl (by simpa using hnone)
        | @cons _ _ answer after _ hrest => exact .inr ⟨first, answer, after, rfl, hnone, hrest⟩

theorem afterRead_history (rows : List HistoryRow) :
    afterRead migrations (.ok ((sortRows rows).map HistoryRow.values)) =
      runMigrations.runPending Action.conn (pendingIn rows migrations) := by
  rw [afterRead, decodeRows_values]
  rfl

end Paths

abbrev ClientEvent := Interleaving.Event Side Action Action.Answer

/-- What is left to do for the two clients, over the history they share. -/
abbrev Clients := Config Side SharedHistory Action Action.Answer (Outcome Unit)

variable {migrations : List (Migration (Program ConnCall ConnCall.Answer))} {s : SharedHistory}
  {side : Side} {version : Int64} {events : List ClientEvent}

theorem read_answer {s' : SharedHistory} {answer : Outcome (List (List OracleValue))}
    (h : s.Performs side (.call (.queryRaw selectMigrations [])) answer s') :
    (∃ err, answer = .error err) ∨
      answer = .ok ((sortRows (s.rows side)).map HistoryRow.values) := by
  cases h with
  | select _ => exact .inr (select_migrations _)
  | query _ hhistory => exact absurd rfl hhistory
  | queryFails err => exact .inl ⟨err, rfl⟩

section Accounts

/-- A migration with one statement. -/
def seedAccounts : Migration (Program ConnCall ConnCall.Answer) where
  migrationversion := 1
  migrationname := "seed accounts"
  migrationup conn := conn.execute_ "INSERT INTO accounts (id) VALUES (1)" []
  migrationdown conn := conn.execute_ "DELETE FROM accounts WHERE id = 1" []

def accountsRow : HistoryRow :=
  ⟨castDouble 1, storedText "seed accounts", "2024-01-15T12:00:00.000000000"⟩

def duplicateRow : OracleError := oraError 1 "ORA-00001: unique constraint violated"

def emptyHistory : SharedHistory := ⟨[], fun _ => []⟩

/-- The calls with which a client finds an empty history. -/
def emptyReads : List (Σ action : Action, action.Answer) :=
  [⟨.call (.queryRaw selectMigrationTable []), .ok [[.oracleString "IDRIS_ORACLE_MIGRATIONS"]]⟩,
    ⟨.call (.queryRaw selectMigrations []), .ok ((sortRows []).map HistoryRow.values)⟩]

/-- The up of the migration and the INSERT of its row. -/
def upAndInsert (inserted : Outcome Unit) : List (Σ action : Action, action.Answer) :=
  [⟨.up 1, ()⟩, ⟨.call (.execute_ "INSERT INTO accounts (id) VALUES (1)" []), .ok ()⟩,
    ⟨.call (.execute_ insertMigration [⟨":version", .oracleNumber (castDouble 1)⟩,
      ⟨":description", .oracleString "seed accounts"⟩]), inserted⟩]

theorem insertRow_accountsRow : insertRow accountsRow (some []) = .ok [accountsRow] :=
  insertRow_ok_iff.mpr ⟨by decide, by decide, by simp [Recorded]⟩

theorem insertRow_accountsRow_again :
    insertRow accountsRow (some [accountsRow]) = .error duplicateRow := by
  have hname : accountsRow.description ≠ "" := by decide
  have hlength : ¬ 4000 < (CString.encode accountsRow.description.toList).length := by decide
  have hrecorded : Recorded [accountsRow] accountsRow.version :=
    ⟨accountsRow, List.mem_singleton_self _, rfl⟩
  rw [insertRow, if_neg hname, if_neg hlength, if_pos hrecorded]
  rfl

theorem path_upAndInsert :
    Path (runMigrations.runPending Action.conn [watched seedAccounts])
      (upAndInsert (.error duplicateRow)) (.done (.error duplicateRow)) :=
  .cons (.cons (.cons .nil))

theorem path_upInsertCommit :
    Path (runMigrations.runPending Action.conn [watched seedAccounts])
      (upAndInsert (.ok ()) ++ [⟨.call .commit, .ok ()⟩]) (.done (.ok ())) :=
  .cons (.cons (.cons (.cons .nil)))

theorem serves_emptyReads (h : s.rows side = []) :
    Serves SharedHistory.Performs side s emptyReads s := by
  have htable : s.Performs side (.call (.queryRaw selectMigrationTable []))
      (.ok [[.oracleString "IDRIS_ORACLE_MIGRATIONS"]]) s := by
    have hanswer : select selectMigrationTable (some (s.rows side)) =
        .ok [[.oracleString "IDRIS_ORACLE_MIGRATIONS"]] := select_migrationTable _
    rw [← hanswer]
    exact .select (.inl rfl)
  have hhistory : s.Performs side (.call (.queryRaw selectMigrations []))
      (.ok ((sortRows []).map HistoryRow.values)) s := by
    rw [← select_migrations, ← h]
    exact .select (.inr rfl)
  exact .cons htable (.cons hhistory .nil)

/-- The up changes the accounts only, before the row is inserted. -/
theorem serves_upAndInsert {s' : SharedHistory} {inserted : Outcome Unit}
    (hinsert : s.Performs side (.call (.execute_ insertMigration
      [⟨":version", .oracleNumber (castDouble 1)⟩,
        ⟨":description", .oracleString "seed accounts"⟩])) inserted s') :
    Serves SharedHistory.Performs side s (upAndInsert inserted) s' := by
  have hcreate : "INSERT INTO accounts (id) VALUES (1)" ≠ createMigrationTable := by
    simp [createMigrationTable]
  have hother : "INSERT INTO accounts (id) VALUES (1)" ≠ insertMigration := by
    simp [insertMigration]
  exact .cons (.up 1) (.cons (.statement hcreate hother) (.cons hinsert .nil))

variable [ShowRow]

theorem path_emptyReads : Path (runMigrations Action.conn ([seedAccounts].map watched))
    emptyReads (runMigrations.runPending Action.conn [watched seedAccounts]) := by
  have hpending : pendingIn [] ([seedAccounts].map watched) = [watched seedAccounts] := by
    simp [pendingIn, sortMigrations, applied, sortRows, isMigrationApplied]
  rw [runMigrations_eq, ← hpending, ← afterRead_history]
  exact .cons (.cons .nil)

end Accounts

section Runs

variable [ShowRow]

/-- Two connections that each run the migrations on the same database. -/
def twoClients (migrations : List (Migration (Program ConnCall ConnCall.Answer)))
    (s : SharedHistory) : Clients :=
  ⟨s, fun _ => runMigrations Action.conn (migrations.map watched)⟩

/-- The versions whose up the connection invokes. -/
def invocations (side : Side) (events : List ClientEvent) :
    List Int64 := invoked (callsOf side events)

/-- How often the two connections execute the up of a version. -/
def executions (version : Int64)
    (events : List ClientEvent) : Nat :=
  (invocations .first events).count version + (invocations .second events).count version

/-- Before its first up the connection read a history without the version. -/
def ReadWithout (migrations : List (Migration (Program ConnCall ConnCall.Answer)))
    (s : SharedHistory) (events : List ClientEvent)
    (version : Int64) (side : Side) : Prop :=
  ∃ first rest u,
    events = first ++ ⟨side, .call (.queryRaw selectMigrations []),
      .ok ((sortRows (u.shared.rows side)).map HistoryRow.values)⟩ :: rest ∧
    Run SharedHistory.Performs (twoClients migrations s) first u ∧
    invocations side first = [] ∧ version ∉ versions (u.shared.rows side)

theorem invocations_side (hdistinct : (migrations.map Migration.migrationversion).Nodup)
    {t : Clients}
    (hrun : Run SharedHistory.Performs (twoClients migrations s) events t) (side : Side) :
    (invocations side events).Nodup ∧
      ∀ version ∈ invocations side events, ReadWithout migrations s events version side := by
  have hwatched : ∀ migration ∈ migrations.map watched,
      ∃ original, migration = watched original := by
    intro migration hmem
    obtain ⟨original, -, rfl⟩ := List.mem_map.mp hmem
    exact ⟨original, rfl⟩
  have hversions : ((migrations.map watched).map Migration.migrationversion).Nodup := by
    rw [List.map_map]
    exact hdistinct
  rcases invoked_runMigrations (hrun.path side) with hnone |
    ⟨before, answer, after, hsplit, hbefore, hafter⟩
  · have hnone' : invocations side events = [] := hnone
    simp [hnone']
  · have hinvoked : invocations side events = invoked after := by
      rw [invocations, hsplit, invoked_append, hbefore]
      rfl
    rw [hinvoked]
    obtain ⟨first, rest, rfl, hfirst⟩ := split_of_callsOf hsplit
    obtain ⟨u, v, hstart, hstep, -⟩ := hrun.split
    cases hstep with
    | call _ hperforms =>
        rcases read_answer hperforms with ⟨err, rfl⟩ | rfl
        · obtain ⟨rfl, -⟩ := path_done hafter
          simp [invoked]
        · rw [afterRead_history] at hafter
          have hpending : ∀ migration ∈ pendingIn (u.shared.rows side) (migrations.map watched),
              ∃ original, migration = watched original := by
            intro migration hmem
            have hsorted := (List.mem_filter.mp hmem).1
            exact hwatched migration (by simpa [sortMigrations] using hsorted)
          have hinvoked' := invokes_runPending hpending _ _ hafter
          refine ⟨hinvoked'.sublist.nodup (nodup_pendingIn hversions), fun version hmem => ?_⟩
          have hmissing := not_mem_of_pendingIn (hinvoked'.subset hmem)
          exact ⟨first, rest, u, rfl, hstart, by rw [invocations, hfirst, hbefore], hmissing⟩

/-- Both connections read the empty history before either records the migration. -/
theorem run_seedAccounts :
    ∃ events t, Run SharedHistory.Performs (twoClients [seedAccounts] emptyHistory) events t ∧
      t.program .first = .done (.ok ()) ∧ t.program .second = .done (.error duplicateRow) ∧
      executions 1 events = 2 := by
  let s₁ := (emptyHistory.insert .first accountsRow).commit .first
  let c₀ := twoClients [seedAccounts] emptyHistory
  let pending := runMigrations.runPending Action.conn [watched seedAccounts]
  let c₁ : Clients := ⟨emptyHistory, Function.update c₀.program .first pending⟩
  let c₂ : Clients := ⟨emptyHistory, Function.update c₁.program .second pending⟩
  let c₃ : Clients := ⟨s₁, Function.update c₂.program .first (.done (.ok ()))⟩
  have hfirst : Path (c₀.program .first) emptyReads pending := path_emptyReads
  have hsecond : Path (c₁.program .second) emptyReads pending := path_emptyReads
  have happly : Path (c₂.program .first) (upAndInsert (.ok ()) ++ [⟨.call .commit, .ok ()⟩])
      (.done (.ok ())) := path_upInsertCommit
  have hduplicate : Path (c₃.program .second) (upAndInsert (.error duplicateRow))
      (.done (.error duplicateRow)) := path_upAndInsert
  have hinsert : Serves SharedHistory.Performs .first emptyHistory
      (upAndInsert (.ok ()) ++ [⟨.call .commit, .ok ()⟩]) s₁ := by
    have hfree : ¬ Recorded (emptyHistory.inserted .second) (castDouble 1) := by
      rintro ⟨row, hrow, -⟩
      cases hrow
    refine (serves_upAndInsert ?_).append (.cons .commit .nil)
    exact .insert accountsRow.appliedAt rfl rfl insertRow_accountsRow hfree
  have hrefused : Serves SharedHistory.Performs .second s₁ (upAndInsert (.error duplicateRow))
      s₁ := by
    refine serves_upAndInsert ?_
    exact .insertFails accountsRow.appliedAt rfl rfl insertRow_accountsRow_again
  have hreads := (Run.of_path hfirst (serves_emptyReads rfl)).trans
    (Run.of_path hsecond (serves_emptyReads rfl))
  have happlies := (Run.of_path happly hinsert).trans (Run.of_path hduplicate hrefused)
  exact ⟨_, _, hreads.trans happlies, rfl, rfl, rfl⟩

/-- Each connection executes an up at most once, and none whose version it read in the history. -/
theorem runMigrations_together (hdistinct : (migrations.map Migration.migrationversion).Nodup)
    (hkeyed : s.Keyed) {t : Clients}
    (hrun : Run SharedHistory.Performs (twoClients migrations s) events t) (version : Int64) :
    executions version events ≤ 2 ∧
    (1 < executions version events → ∀ side, ReadWithout migrations s events version side) ∧
    (∀ side, (invocations side events).count version ≤ 1 ∧
      (version ∈ invocations side events → ReadWithout migrations s events version side)) ∧
    t.shared.Keyed := by
  have hside := invocations_side hdistinct hrun
  have honce : ∀ side, (invocations side events).count version ≤ 1 := fun side =>
    List.nodup_iff_count_le_one.mp (hside side).1 version
  have hfirst := honce .first
  have hsecond := honce .second
  refine ⟨by rw [executions]; omega, fun hboth side => ?_, fun side => ?_, ?_⟩
  · refine (hside side).2 version (List.count_pos_iff.mp ?_)
    rw [executions] at hboth
    cases side <;> omega
  · exact ⟨honce side, (hside side).2 version⟩
  · exact hrun.invariant (I := SharedHistory.Keyed)
      (fun _ _ _ _ _ hs hperforms => SharedHistory.keyed_performs hs hperforms) hkeyed

end Runs

theorem runMigrations_together_seedAccounts :
    let _ := unshown
    ∃ events t, Run SharedHistory.Performs (twoClients [seedAccounts] emptyHistory) events t ∧
      executions 1 events = 2 ∧
      (∀ side, ReadWithout [seedAccounts] emptyHistory events 1 side) ∧ t.shared.Keyed := by
  intro _
  obtain ⟨events, t, hrun, -, -, htwice⟩ := run_seedAccounts
  have hdistinct : ([seedAccounts].map Migration.migrationversion).Nodup :=
    List.nodup_singleton _
  have hkeyed : emptyHistory.Keyed := List.nodup_nil
  obtain ⟨-, hboth, -, hend⟩ := runMigrations_together hdistinct hkeyed hrun 1
  exact ⟨events, t, hrun, htwice, hboth (by omega), hend⟩

/-- Two clients execute the up of one migration twice before they return. -/
theorem seedAccounts_executed_twice :
    let _ := unshown
    ∃ events t, Run SharedHistory.Performs (twoClients [seedAccounts] emptyHistory) events t ∧
      t.program .first = .done (.ok ()) ∧ t.program .second = .done (.error duplicateRow) ∧
      executions 1 events = 2 := by
  intro _
  exact run_seedAccounts

end IdrisOracle
