import IdrisOracle.TypedQuery

/-! Queries that expect exactly one row, and queries given by their columns. -/

namespace IdrisOracle

open Effect FirstError

/-- An expression a query selects, as it is or serialized as JSON. -/
inductive QueryColumn where
  | column (expression : String)
  | jsonColumn (expression : String)

structure Query where
  columns : List QueryColumn
  querybody : String
  binds : List BindParameter

def renderQueryColumn : QueryColumn → String
  | .column expression => expression
  | .jsonColumn expression => "JSON_SERIALIZE(" ++ expression ++ " RETURNING CLOB)"

def buildQuerySQL (query : Query) : String :=
  "SELECT " ++ String.intercalate ", " (query.columns.map renderQueryColumn) ++ " FROM " ++
    query.querybody

def noRows : OracleError :=
  ⟨-1, "Expected exactly one row but query returned no rows", "Oracle.Query.queryExactlyOne", false⟩

def multipleRows : OracleError :=
  ⟨-1, "Expected exactly one row but query returned multiple rows", "Oracle.Query.queryExactlyOne",
    false⟩

variable {σ α : Type}

section Queries

variable [FromRow α] (env : Env σ) (fuel : Nat) (conn : Connection)

/-- Execute a query and decode exactly one row. -/
def queryExactlyOne (sql : String) (params : List BindParameter) :
    Eff (World σ) (Outcome α) := do
  match ← query_ env fuel conn sql params with
  | .error err => return .error err
  | .ok [] => return .error noRows
  | .ok [value] => return .ok value
  | .ok (_ :: _ :: _) => return .error multipleRows

/-- Execute a structured query and decode every row. -/
def queryAs (query : Query) : Eff (World σ) (Outcome (List α)) :=
  query_ env fuel conn (buildQuerySQL query) query.binds

/-- Execute a structured query and decode exactly one row. -/
def queryOneAs (query : Query) : Eff (World σ) (Outcome α) :=
  queryExactlyOne env fuel conn (buildQuerySQL query) query.binds

end Queries

/-- The only one of a list of decoded rows. -/
def exactlyOne : List α → Outcome α
  | [] => .error noRows
  | [value] => .ok value
  | _ :: _ :: _ => .error multipleRows

theorem exactlyOne_eq_ok_iff {values : List α} {value : α} :
    exactlyOne values = .ok value ↔ values = [value] := by
  rcases values with _ | ⟨first, _ | ⟨second, rest⟩⟩
  · simp [exactlyOne]
  · simp [exactlyOne]
  · simp [exactlyOne]

section Rows

variable [FromRow α] {env : Env σ} {fuel : Nat} {conn : Connection} {sql : String}
  {params : List BindParameter} {rows : List (List OracleValue)} {w w' : World σ}

theorem decodeRows_eq_ok_iff {xs : List α} :
    decodeRows rows = .ok xs ↔ List.Forall₂ (fun row x => fromRow row = .ok x) rows xs := by
  rw [decodeRows_eq_mapM]
  exact mapM_eq_ok_iff

theorem decodeRows_eq_error_iff {err : OracleError} :
    (decodeRows rows : Outcome (List α)) = .error err ↔
      FailsFirst (fromRow : List OracleValue → Outcome α) rows err := by
  rw [decodeRows_eq_mapM]
  exact mapM_eq_error_iff

/-- The cardinality is checked on the decoded rows. -/
theorem runs_queryExactlyOne (hrun : Runs (queryRaw env fuel conn sql params) w (.ok rows) w') :
    Runs (queryExactlyOne env fuel conn sql params : Eff (World σ) (Outcome α)) w
      (decodeRows rows >>= exactlyOne) w' := by
  have hquery : Runs (query_ env fuel conn sql params : Eff (World σ) (Outcome (List α))) w
      (decodeRows rows) w' :=
    hrun.bind (Runs.pure _ _)
  refine runs_analysis hquery (fun _ => rfl) fun values => ?_
  rcases values with _ | ⟨value, _ | ⟨second, rest⟩⟩
  · rfl
  · rfl
  · rfl

/-- Exactly one value comes out if and only if there is one row and it decodes. -/
theorem decodeRows_exactlyOne_iff {value : α} :
    (decodeRows rows >>= exactlyOne : Outcome α) = .ok value ↔
      ∃ row, rows = [row] ∧ fromRow row = .ok value := by
  constructor
  · intro h
    cases hrows : (decodeRows rows : Outcome (List α)) with
    | error err =>
        rw [hrows] at h
        cases h
    | ok values =>
        rw [hrows] at h
        obtain rfl : values = [value] := exactlyOne_eq_ok_iff.mp h
        rw [decodeRows_eq_ok_iff, List.forall₂_cons_right_iff] at hrows
        obtain ⟨row, rest, hrow, hrest, rfl⟩ := hrows
        rw [List.forall₂_nil_right_iff] at hrest
        exact ⟨row, by rw [hrest], hrow⟩
  · rintro ⟨row, rfl, hrow⟩
    have hrows : decodeRows [row] = .ok [value] := by
      rw [decodeRows_eq_ok_iff]
      exact .cons hrow .nil
    rw [hrows]
    rfl

/-- Decoding gives all rows or the first error, and a query for exactly one row gives the row. -/
theorem decodeRows_queryExactlyOne_iff :
    (∀ (rows : List (List OracleValue)) (xs : List α),
        decodeRows rows = .ok xs ↔ List.Forall₂ (fun row x => fromRow row = .ok x) rows xs) ∧
      (∀ (rows : List (List OracleValue)) err,
        (decodeRows rows : Outcome (List α)) = .error err ↔
          FailsFirst (fromRow : List OracleValue → Outcome α) rows err) ∧
      (∀ (env : Env σ) fuel conn sql params rows w w',
        Runs (queryRaw env fuel conn sql params) w (.ok rows) w' →
        ∃ r, Runs (queryExactlyOne env fuel conn sql params) w r w' ∧
          ∀ value : α, r = .ok value ↔ ∃ row, rows = [row] ∧ fromRow row = .ok value) ∧
      ∀ (env : Env σ) fuel conn query rows w w',
        Runs (queryRaw env fuel conn (buildQuerySQL query) query.binds) w (.ok rows) w' →
        ∃ r, Runs (queryOneAs env fuel conn query) w r w' ∧
          ∀ value : α, r = .ok value ↔ ∃ row, rows = [row] ∧ fromRow row = .ok value := by
  refine ⟨fun _ _ => decodeRows_eq_ok_iff, fun _ _ => decodeRows_eq_error_iff, ?_, ?_⟩
  · intro env fuel conn sql params rows w w' hrun
    exact ⟨_, runs_queryExactlyOne hrun, fun value => decodeRows_exactlyOne_iff⟩
  · intro env fuel conn query rows w w' hrun
    exact ⟨_, runs_queryExactlyOne hrun, fun value => decodeRows_exactlyOne_iff⟩

theorem decodeRows_queryExactlyOne_iff_number :
    ∃ fuel w', Runs (queryExactlyOne Listing.env fuel ⟨⟨0⟩⟩ "SELECT n FROM numbers" [])
      (World.initial (Listing.start [numberRow 0])) (.ok (Float.ofBits 0)) w' := by
  obtain ⟨bound, hreturns⟩ := returns_listing [numberRow 0] ⟨⟨0⟩⟩ "SELECT n FROM numbers" []
  obtain ⟨w', hrun⟩ := hreturns bound le_rfl
  obtain ⟨r, hone, hiff⟩ := (@decodeRows_queryExactlyOne_iff Listing Float _).2.2.1
    _ _ _ _ _ _ _ _ hrun
  have hr : r = .ok (Float.ofBits 0) := (hiff _).mpr ⟨_, rfl, rfl⟩
  rw [hr] at hone
  exact ⟨bound, w', hone⟩

end Rows

end IdrisOracle
