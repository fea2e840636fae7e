import IdrisOracle.Fetch
import IdrisOracle.Lob
import Mathlib.Data.List.Nodup

/-! A cursor that reads a result through a row buffer, and the references a query leaves. -/

namespace IdrisOracle

open Effect RefCount

/-- The rows to come, with which columns have a value, and the state of the row buffer. -/
structure Cursor where
  rows : List (List Bool)
  current : List Bool
  slot : Nat
  buffered : Nat
  firstLob : Nat
  ledger : Ledger DpiLob

namespace Cursor

def start (rows : List (List Bool)) : Cursor := ⟨rows, [], 0, 0, 0, ⟨fun _ => 0, [], true⟩⟩

variable (columns : List DpiOracleTypeNum) (arraySize : Nat)

def columnType (pos : UInt32) : DpiOracleTypeNum := columns.getD (pos.toNat - 1) 0

/-- One LOB for each slot of each LOB column. -/
def newLobs (first : Nat) : List DpiLob :=
  ((List.range (arraySize * columns.length)).filter fun k =>
    (fromOracleTypeNum (columns.getD (k % columns.length) 0)).IsLob).map fun k => ⟨first + k⟩

theorem nodup_newLobs (first : Nat) : (newLobs columns arraySize first).Nodup := by
  refine List.Nodup.map_on ?_ (List.nodup_range.filter _)
  intro k _ l _ hkl
  simpa using hkl

/-- The next row; an exhausted buffer is filled again first. -/
def fetch (c : Cursor) : Bool × Cursor :=
  match c.rows with
  | [] => (false, c)
  | row :: rows =>
      if c.buffered = 0 then
        let first := c.firstLob + arraySize * columns.length
        let ledger := c.ledger.refill (newLobs columns arraySize first)
        (true, ⟨rows, row, 0, arraySize - 1, first, ledger⟩)
      else
        (true, { c with rows, current := row, slot := c.slot + 1, buffered := c.buffered - 1 })

def queryValue (pos : UInt32) (c : Cursor) : Except DpiError (DpiNativeTypeNum × DpiData) :=
  let index := pos.toNat - 1
  let ty := fromOracleTypeNum (columnType columns pos)
  let lob : DpiLob := ⟨c.firstLob + c.slot * columns.length + index⟩
  let native := (defaultNativeType ty).getD .bytes
  if c.current.getD index false = false then .ok (native, dpiDataSetNull .zero)
  else if ¬ ty.IsLob then .ok (native, .zero)
  else if lob ∈ c.ledger.owned then .ok (native, ⟨0, { DpiDataBuffer.zero with asLOB := some lob }⟩)
  else .error (.odpi ⟨1002, by omega⟩ "invalid handle")

def env : Env Cursor where
  call req c :=
    match req with
    | .contextCreate => (.ok (), c)
    | .connCreate .. => (.ok ⟨0⟩, c)
    | .connCommit _ => (.ok (), c)
    | .connRollback _ => (.ok (), c)
    | .connPrepareStmt .. => (.ok ⟨0⟩, c)
    | .connNewVar .. => (.ok ⟨0⟩, c)
    | .stmtBindByName .. => (.ok (), c)
    | .stmtBindValueByName .. => (.ok (), c)
    | .stmtExecute _ => (.ok (), c)
    | .stmtFetch _ => (.ok (fetch columns arraySize c).1, (fetch columns arraySize c).2)
    | .stmtGetNumQueryColumns _ => (.ok (UInt32.ofNat columns.length), c)
    | .stmtGetQueryInfo _ pos => (.ok ⟨[], ⟨columnType columns pos, 0, 0, 0⟩, 1⟩, c)
    | .stmtGetQueryValue _ pos => (queryValue columns pos c, c)
    | .lobGetSize _ => (.ok 0, c)
    | .lobGetBufferSize .. => (.ok 0, c)
    | .lobReadBytes .. => (.ok [], c)
  release handle c :=
    match handle with
    | .lob lob => { c with ledger := c.ledger.release lob }
    | .stmt _ => { c with ledger := c.ledger.clear }
    | .conn _ | .var _ => c
  storeVar _ _ c := c
  malloc _ _ c := (true, c)
  nullString := ""

/-- The row buffer obeys the laws of the fetch variables. -/
def lobs : LobEnv (env columns arraySize) where
  ledger := ledger
  columnType := columnType columns
  called req c hreq := by
    cases req <;> first
      | exact absurd rfl hreq
      | rfl
  fetched stmt c := by
    simp only [env, fetch]
    split
    · exact .inl rfl
    · split
      · exact .inr ⟨_, nodup_newLobs columns arraySize _, rfl⟩
      · exact .inl rfl
  stored _ _ _ := rfl
  allocated _ _ _ := rfl
  releasedConn _ _ := rfl
  releasedVar _ _ := rfl
  releasedStmt _ _ := rfl
  releasedLob _ _ := rfl
  described stmt pos c info hcall := by
    cases hcall
    rfl
  valued stmt pos c native data _ hcall hnull hty := by
    simp only [env, queryValue, hty, not_true, if_false] at hcall
    split at hcall
    · cases hcall
      cases hnull
    · split at hcall
      · cases hcall
        exact ⟨_, ‹_›, rfl⟩
      · cases hcall

/-- Each fetched row is taken off the rows to come. -/
def finite : FiniteRows (env columns arraySize) where
  remaining c := c.rows.length
  fetched stmt c hfound := by
    simp only [env, fetch] at hfound ⊢
    cases hrows : c.rows with
    | nil => simp [hrows] at hfound
    | cons row rows =>
        simp only []
        split <;> simp
  called req c hreq := by
    cases req <;> first
      | exact hreq.elim
      | exact le_rfl
  released handle c := by cases handle <;> exact le_rfl
  stored _ _ _ := le_rfl
  allocated _ _ _ := le_rfl

end Cursor

variable {σ : Type} {env : Env σ} {conn : Connection} {sql : String}
  {params : List BindParameter} {fuel : Nat} {result : Outcome (List (List OracleValue))}
  {w w' : World σ}

/-- The references stay balanced if and only if no LOB is handed out. -/
theorem query_balanced_iff (L : LobEnv env) (howned : (L.ledger w.odpi).owned = [])
    (hsound : (L.ledger w.odpi).sound = true)
    (hrun : Runs (queryRaw env fuel conn sql params) w result w' ∨
      Runs (query env fuel conn sql params) w result w') :
    ∃ delta, w'.log = w.log ++ delta ∧
      ((L.ledger w'.odpi).sound = true ↔ ∀ event ∈ delta, ¬ L.LobCell event) := by
  rw [query_eq_queryRaw, or_self] at hrun
  have hwf : (L.ledger w.odpi).WellFormed := fun _ => Ledger.exact_empty howned
  obtain ⟨delta, hlog, -, hiff⟩ := L.tracks_queryRaw hrun hwf
  exact ⟨delta, hlog, by simpa [hsound] using hiff⟩

theorem query_balanced_notes :
    ∃ fuel result w', Runs (queryRaw (Cursor.env [.number, .clob] 100) fuel ⟨⟨0⟩⟩
        "SELECT id, note FROM notes" [])
        (World.initial (Cursor.start [[true, false], [true, true]])) result w' ∧
      (w'.odpi.ledger.sound = true ↔
        ∀ event ∈ w'.log, ¬ (Cursor.lobs [.number, .clob] 100).LobCell event) := by
  obtain ⟨bound, hreturns⟩ := (Cursor.finite [.number, .clob] 100).returns_queryRaw ⟨⟨0⟩⟩
    "SELECT id, note FROM notes" [] (World.initial (Cursor.start [[true, false], [true, true]]))
  obtain ⟨result, w', hrun⟩ := hreturns bound le_rfl
  obtain ⟨delta, hlog, hiff⟩ :=
    query_balanced_iff (Cursor.lobs [.number, .clob] 100) rfl rfl (.inl hrun)
  obtain rfl : w'.log = delta := hlog
  exact ⟨bound, result, w', hrun, hiff⟩

/-- One row with one CLOB is enough to release a LOB the fetch variable still has. -/
theorem queryRaw_clob_not_balanced :
    ∃ result w', Runs (queryRaw (Cursor.env [.clob] 100) 2 ⟨⟨0⟩⟩ "SELECT note FROM notes" [])
        (World.initial (Cursor.start [[true]])) result w' ∧
      w'.odpi.ledger.sound = false := by
  let E := Cursor.env [.clob] 100
  let stmt : Statement := ⟨⟨0, ⟨0⟩, ⟨0⟩⟩⟩
  let w₀ := World.initial (Cursor.start [[true]])
  let w₁ := ((prepare E ⟨⟨0⟩⟩ "SELECT note FROM notes") w₀).elim w₀ Prod.snd
  let w₂ := ((execute E stmt) w₁).elim w₁ Prod.snd
  let w₃ := ((oracleFetch E stmt.ptr) w₂).elim w₂ Prod.snd
  let w₄ := ((oracleColumnCount E stmt.ptr) w₃).elim w₃ Prod.snd
  let w₅ := ((decodeColumn E stmt.ptr 0) w₄).elim w₄ Prod.snd
  let w₆ := ((oracleFetch E stmt.ptr) w₅).elim w₅ Prod.snd
  have hprepare : Runs (prepare E ⟨⟨0⟩⟩ "SELECT note FROM notes") w₀ (.ok stmt) w₁ := rfl
  have hbind : Runs (bind E stmt []) w₁ (.ok ()) w₁ := rfl
  have hexecute : Runs (execute E stmt) w₁ (.ok ()) w₂ := rfl
  have hfetch : Runs (oracleFetch E stmt.ptr) w₂ 1 w₃ := rfl
  have hcount : Runs (oracleColumnCount E stmt.ptr) w₃ 1 w₄ := rfl
  have hvalue : Runs (decodeColumn E stmt.ptr 0) w₄ (.ok (.oracleClob "")) w₅ := rfl
  have hend : Runs (oracleFetch E stmt.ptr) w₅ 0 w₆ := rfl
  have hunsound : w₆.odpi.ledger.sound = false := by decide +kernel
  obtain ⟨_, w₇, hrelease, htracks⟩ :=
    preserves_oracleReleaseStmt (Cursor.lobs [.clob] 100).follows_tracks (by simp) stmt.ptr w₆
  obtain ⟨delta, -, -, hsound⟩ := htracks fun h => absurd h (by simp [hunsound, Cursor.lobs])
  refine ⟨.ok [[.oracleClob ""]], w₇, ?_, by simpa [Cursor.lobs, hunsound] using hsound⟩
  exact runs_queryRaw_one hprepare hbind hexecute hfetch hcount hvalue hend hrelease

end IdrisOracle
