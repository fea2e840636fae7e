import IdrisOracle.ResultSet

/-! A driver that hands over the rows of a list and never fails. -/

namespace IdrisOracle

open Effect

/-- A row of supported cells without LOBs. -/
abbrev PlainRow :=
  { row : List DriverCell // row.length < 2 ^ 31 ∧
    ∀ cell ∈ row, cell.Supported ∧ cell.data.value.asLOB = none }

/-- The rows to come and the row that was fetched last. -/
structure Listing where
  rows : List PlainRow
  current : PlainRow

namespace Listing

def start (rows : List PlainRow) : Listing := ⟨rows, ⟨[], by simp⟩⟩

def fetch : Listing → Bool × Listing
  | ⟨[], current⟩ => (false, ⟨[], current⟩)
  | ⟨row :: rows, _⟩ => (true, ⟨rows, row⟩)

def cellAt (pos : UInt32) (l : Listing) : Option DriverCell := l.current.1[pos.toNat - 1]?

def queryInfo (pos : UInt32) (l : Listing) : DpiQueryInfo :=
  ((l.cellAt pos).map DriverCell.info).getD ⟨[], ⟨0, 0, 0, 0⟩, 0⟩

def queryValue (pos : UInt32) (l : Listing) : DpiNativeTypeNum × DpiData :=
  ((l.cellAt pos).map fun cell => (cell.native, cell.data)).getD (.bytes, .zero)

def env : Env Listing where
  call req l :=
    match req with
    | .contextCreate => (.ok (), l)
    | .connCreate .. => (.ok ⟨0⟩, l)
    | .connCommit _ => (.ok (), l)
    | .connRollback _ => (.ok (), l)
    | .connPrepareStmt .. => (.ok ⟨0⟩, l)
    | .connNewVar .. => (.ok ⟨0⟩, l)
    | .stmtBindByName .. => (.ok (), l)
    | .stmtBindValueByName .. => (.ok (), l)
    | .stmtExecute _ => (.ok (), l)
    | .stmtFetch _ => (.ok l.fetch.1, l.fetch.2)
    | .stmtGetNumQueryColumns _ => (.ok (UInt32.ofNat l.current.1.length), l)
    | .stmtGetQueryInfo _ pos => (.ok (l.queryInfo pos), l)
    | .stmtGetQueryValue _ pos => (.ok (l.queryValue pos), l)
    | .lobGetSize _ => (.ok 0, l)
    | .lobGetBufferSize .. => (.ok 0, l)
    | .lobReadBytes .. => (.ok [], l)
  release _ l := l
  storeVar _ _ l := l
  malloc _ _ l := (true, l)
  nullString := ""

theorem call_ok (req : Req) (l : Listing) : ∃ reply, (env.call req l).1 = .ok reply := by
  cases req <;> exact ⟨_, rfl⟩

/-- The list is a result set. -/
def resultSet : ResultSet env where
  chars := List.length
  rows _ l := l.rows.map Subtype.val
  current _ l := l.current.1
  fetched stmt l found hcall := by
    obtain ⟨rows, current⟩ := l
    cases rows with
    | nil =>
        cases hcall
        exact .inl ⟨rfl, rfl⟩
    | cons row rows =>
        cases hcall
        exact .inr ⟨rfl, rfl⟩
  counted stmt l count hcall := by
    have hlength := l.current.2.1
    have hsize : UInt32.size = 2 ^ 32 := rfl
    cases hcall
    rw [UInt32.toNat_ofNat_of_lt' (by omega)]
  described stmt l pos info hcall cell hcell := by
    cases hcall
    simp [queryInfo, cellAt, hcell]
  valued stmt l pos reply hcall cell hcell := by
    cases hcall
    simp [queryValue, cellAt, hcell]
  sized stmt l lob size hcall cell hcell hlob := by
    rw [(l.current.2.2 cell hcell).2] at hlob
    cases hlob
  buffered stmt l lob amount length hcall cell hcell hlob := by
    rw [(l.current.2.2 cell hcell).2] at hlob
    cases hlob
  readLob stmt l lob amount length bytes hcall cell hcell hlob := by
    rw [(l.current.2.2 cell hcell).2] at hlob
    cases hlob
  supported stmt l row hrow := by
    obtain ⟨row, -, rfl⟩ := List.mem_map.mp hrow
    exact ⟨row.2.1, fun cell hcell => (row.2.2 cell hcell).1⟩
  called stmt req l hreq := by
    cases req <;> first
      | exact hreq.elim
      | exact ⟨rfl, rfl⟩
  released _ _ _ := ⟨rfl, rfl⟩
  stored _ _ _ _ := ⟨rfl, rfl⟩
  allocated _ _ _ _ := ⟨rfl, rfl⟩

theorem follows_noFailure :
    Follows env (fun _ => True) (fun _ => True)
      (NoFailure : World Listing → World Listing → Prop) :=
  NoFailure.follows (fun req l _ => call_ok req l) fun _ _ _ => rfl

/-- Everything but a fetch leaves the list as it is. -/
theorem follows_list : Follows env (fun group => group ≠ .fetch) (fun _ => True)
    fun w w' : World Listing => w'.odpi = w.odpi where
  refl _ := rfl
  trans _ _ _ huv hvw := hvw.trans huv
  called req w hreq := by
    cases req <;> first
      | exact absurd rfl hreq
      | rfl
  released _ _ _ := rfl
  stored _ _ _ := rfl
  allocated _ _ _ := rfl
  refused _ _ _ _ := rfl
  freed _ _ := rfl
  read _ _ := rfl
  captured _ _ := rfl
  ready _ := rfl

theorem noFailure_queryRaw {conn : Connection} {sql : String} {params : List BindParameter}
    {fuel : Nat} {result : Outcome (List (List OracleValue))} {w w' : World Listing}
    (hrun : Runs (queryRaw env fuel conn sql params) w result w') : NoFailure w w' := by
  have F := follows_noFailure
  refine follows_queryRaw F trivial trivial trivial trivial trivial (fun stmt => ?_) hrun
  refine preserves_fetchRow F trivial trivial stmt fun column => ?_
  refine preserves_decodeColumn F trivial stmt.ptr column fun ty => ?_
  exact preserves_cell F trivial stmt.ptr column fun data =>
    preserves_value F trivial (fun _ => trivial) data

end Listing

end IdrisOracle
