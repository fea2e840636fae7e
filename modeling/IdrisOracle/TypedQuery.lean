import IdrisOracle.Delivery
import IdrisOracle.FirstError

/-! Queries whose rows are decoded into a type, and the query for at most one row. -/

namespace IdrisOracle

open Effect FirstError

/-- How a row is decoded into a type. -/
class FromRow (α : Type) where
  fromRow : List OracleValue → Outcome α

export FromRow (fromRow)

variable {σ α : Type}

section Decoding

variable [FromRow α]

def decodeRows.go : List (List OracleValue) → List α → Outcome (List α)
  | [], acc => .ok acc.reverse
  | row :: rest, acc =>
      match fromRow row with
      | .error err => .error err
      | .ok value => decodeRows.go rest (value :: acc)

/-- Decode rows from the first to the last, up to the first that fails. -/
def decodeRows (rows : List (List OracleValue)) : Outcome (List α) := decodeRows.go rows []

theorem decodeRows.go_eq (rows : List (List OracleValue)) (acc : List α) :
    decodeRows.go rows acc = (decodeRows rows).map (acc.reverse ++ ·) := by
  induction rows generalizing acc with
  | nil => simp [decodeRows, decodeRows.go, Except.map]
  | cons row rest ih =>
      cases hrow : (fromRow row : Outcome α) with
      | error err => simp [decodeRows, decodeRows.go, hrow, Except.map]
      | ok value =>
          have hfirst := ih [value]
          have hall := ih (value :: acc)
          simp only [List.reverse_cons, List.reverse_nil, List.nil_append] at hfirst hall
          simp only [decodeRows, decodeRows.go, hrow]
          rw [hall, hfirst, map_append_cons]
          rfl

theorem decodeRows_cons_error {row : List OracleValue} {rest : List (List OracleValue)}
    {err : OracleError} (h : (fromRow row : Outcome α) = .error err) :
    decodeRows (row :: rest) = (.error err : Outcome (List α)) := by
  simp only [decodeRows, decodeRows.go, h]

theorem decodeRows_cons_ok {row : List OracleValue} {rest : List (List OracleValue)} {value : α}
    (h : fromRow row = .ok value) :
    decodeRows (row :: rest) = (decodeRows rest).map (value :: ·) := by
  simp only [decodeRows, decodeRows.go, h]
  exact decodeRows.go_eq rest [value]

/-- The accumulator loop is the plain traversal of the rows. -/
theorem decodeRows_eq_mapM {rows : List (List OracleValue)} :
    (decodeRows rows : Outcome (List α)) = rows.mapM fromRow := by
  induction rows with
  | nil => rfl
  | cons row rest ih =>
      cases hrow : (fromRow row : Outcome α) with
      | error err => rw [decodeRows_cons_error hrow, mapM_cons_error hrow]
      | ok value => rw [decodeRows_cons_ok hrow, mapM_cons_ok hrow, ih]

/-- The rows decode together if and only if each of them does. -/
theorem decodeRows_ok_iff {rows : List (List OracleValue)} :
    (∃ values : List α, decodeRows rows = .ok values) ↔
      ∀ row ∈ rows, ∃ value : α, fromRow row = .ok value := by
  simp only [decodeRows_eq_mapM]
  exact exists_mapM_eq_ok_iff

end Decoding

section Queries

variable (env : Env σ) [FromRow α]

/-- Execute a query and decode every returned row. -/
def query_ (fuel : Nat) (conn : Connection) (sql : String) (params : List BindParameter) :
    Eff (World σ) (Outcome (List α)) := do
  match ← queryRaw env fuel conn sql params with
  | .error err => return .error err
  | .ok values => return decodeRows values

/-- Execute a query and decode at most a single row. -/
def queryOne (fuel : Nat) (conn : Connection) (sql : String) (params : List BindParameter) :
    Eff (World σ) (Outcome (Option α)) := do
  match ← query_ env fuel conn sql params with
  | .error err => return .error err
  | .ok [] => return .ok none
  | .ok (x :: _) => return .ok (some x)

end Queries

section FirstRow

variable [FromRow α] {env : Env σ} {conn : Connection} {sql : String}
  {params : List BindParameter} {fuel : Nat} {rows : List (List OracleValue)} {w w' : World σ}

/-- What only the first row says. -/
def firstRow : List (List OracleValue) → Outcome (Option α)
  | [] => .ok none
  | row :: _ => (fromRow row).map some

/-- The first of the rows, all of which are decoded. -/
theorem runs_queryOne (hrun : Runs (queryRaw env fuel conn sql params) w (.ok rows) w') :
    Runs (queryOne env fuel conn sql params : Eff (World σ) (Outcome (Option α))) w
      ((decodeRows rows).map List.head?) w' := by
  have hquery : Runs (query_ env fuel conn sql params : Eff (World σ) (Outcome (List α))) w
      (decodeRows rows) w' :=
    hrun.bind (Runs.pure _ _)
  refine hquery.bind ?_
  cases (decodeRows rows : Outcome (List α)) with
  | error err => exact Runs.pure _ _
  | ok values =>
      cases values with
      | nil => exact Runs.pure _ _
      | cons value values => exact Runs.pure _ _

/-- Decoding all rows agrees with the first unless a later row fails where the first does not. -/
theorem head_decodeRows_eq_firstRow_iff :
    (decodeRows rows).map List.head? = (firstRow rows : Outcome (Option α)) ↔
      (∃ err, (firstRow rows : Outcome (Option α)) = .error err) ∨
        ∀ row ∈ rows, ∃ value : α, fromRow row = .ok value := by
  cases rows with
  | nil =>
      refine ⟨fun _ => .inr fun row hrow => absurd hrow List.not_mem_nil, fun _ => rfl⟩
  | cons row rest =>
      cases hrow : (fromRow row : Outcome α) with
      | error err => simp [decodeRows_cons_error hrow, firstRow, hrow, Except.map]
      | ok value =>
          rw [← decodeRows_ok_iff, decodeRows_cons_ok hrow]
          cases (decodeRows rest : Outcome (List α)) with
          | error err => simp [firstRow, hrow, Except.map]
          | ok values => simp [firstRow, hrow, Except.map]

/-- A query for one row gives what the first row says iff that fails or every row decodes. -/
theorem queryOne_eq_firstRow_iff
    (hrun : Runs (queryRaw env fuel conn sql params) w (.ok rows) w') :
    ∃ result : Outcome (Option α), Runs (queryOne env fuel conn sql params) w result w' ∧
      (result = firstRow rows ↔ (∃ err, (firstRow rows : Outcome (Option α)) = .error err) ∨
        ∀ row ∈ rows, ∃ value : α, fromRow row = .ok value) :=
  ⟨_, runs_queryOne hrun, head_decodeRows_eq_firstRow_iff⟩

/-- The instance of a client that expects one number. -/
instance oneNumber : FromRow Float where
  fromRow
    | [.oracleNumber value] => .ok value
    | _ => .error ⟨-1, "Row decoding failed", "FromRow", false⟩

theorem queryOne_eq_firstRow_iff_numbers :
    ∃ fuel w', Runs (queryOne Listing.env fuel ⟨⟨0⟩⟩ "SELECT n FROM numbers" [])
      (World.initial (Listing.start [numberRow 0, numberRow 1]))
      (.ok (some (Float.ofBits 0))) w' := by
  obtain ⟨bound, hreturns⟩ := returns_listing [numberRow 0, numberRow 1] ⟨⟨0⟩⟩
    "SELECT n FROM numbers" []
  obtain ⟨w', hrun⟩ := hreturns bound le_rfl
  obtain ⟨result, hone, hiff⟩ := @queryOne_eq_firstRow_iff _ Float _ _ _ _ _ _ _ _ _ hrun
  have hresult := hiff.mpr (.inr fun row hrow => by
    rcases List.mem_pair.mp hrow with rfl | rfl
    · exact ⟨_, rfl⟩
    · exact ⟨_, rfl⟩)
  rw [hresult] at hone
  exact ⟨bound, w', hone⟩

/-- A NULL cell of a NUMBER column. -/
def nullRow : PlainRow :=
  ⟨[{ numberCell 0 with data := dpiDataSetNull .zero }], by
    refine ⟨by simp, fun cell hcell => ?_⟩
    rw [List.mem_singleton.mp hcell]
    exact ⟨.inl (by simp [dpiDataSetNull]), rfl⟩⟩

/-- A NULL in the second row turns the number of the first row into an error. -/
theorem queryOne_nullSecond_not_firstRow :
    ∃ fuel rows w' err,
      Runs (queryRaw Listing.env fuel ⟨⟨0⟩⟩ "SELECT n FROM numbers" [])
        (World.initial (Listing.start [numberRow 0, nullRow])) (.ok rows) w' ∧
      (firstRow rows : Outcome (Option Float)) = .ok (some (Float.ofBits 0)) ∧
      Runs (queryOne Listing.env fuel ⟨⟨0⟩⟩ "SELECT n FROM numbers" [] :
          Eff (World Listing) (Outcome (Option Float)))
        (World.initial (Listing.start [numberRow 0, nullRow])) (.error err) w' := by
  obtain ⟨bound, hreturns⟩ := returns_listing [numberRow 0, nullRow] ⟨⟨0⟩⟩
    "SELECT n FROM numbers" []
  obtain ⟨w', hrun⟩ := hreturns bound le_rfl
  exact ⟨bound, _, w', _, hrun, rfl, runs_queryOne hrun⟩

end FirstRow

end IdrisOracle
