import IdrisOracle.Cursor
import IdrisOracle.FirstError
import IdrisOracle.Statement

/-! Queries for JSON values, which come back as the text of CLOBs. -/

namespace IdrisOracle

open Effect FirstError

/-- A query whose selected expression produces a JSON value. -/
structure JSONQuery where
  expression : String
  querybody : String
  binds : List BindParameter

def buildJSONQuerySQL (query : JSONQuery) : String :=
  "SELECT JSON_SERIALIZE(" ++ query.expression ++ " RETURNING CLOB) FROM " ++ query.querybody

/-- How JSON text is decoded into a type; the error is given as it is shown. -/
class FromJSON (α : Type) where
  decode : String → Except String α

export FromJSON (decode)

/-- The error of a JSON query. -/
def jsonError (message fnname : String) : OracleError := ⟨-1, message, fnname, false⟩

variable {σ α : Type}

section Rows

/-- The case analysis of `queryJSON` over the rows. -/
def queryJSON.value : List (List OracleValue) → Outcome String
  | [] => .error (jsonError "JSON query returned no rows" "Oracle.Query.queryJSON")
  | [row] =>
      match row with
      | [] => .error (jsonError "JSON query returned no columns" "Oracle.Query.queryJSON")
      | [.oracleNull] => .error (jsonError "JSON query returned NULL" "Oracle.Query.queryJSON")
      | [.oracleClob value] => .ok value
      | [.oracleString _] =>
          .error (jsonError "JSON query returned an OracleString" "Oracle.Query.queryJSON")
      | _ => .error (jsonError "JSON query returned an unexpected value type" "queryJSON")
  | _ =>
      .error (jsonError "JSON query returned more than one row; use queryJSONList" "queryJSON")

def queryJSONList.decodeRows : List (List OracleValue) → Outcome (List String)
  | [] => .ok []
  | row :: rest =>
      match row with
      | [.oracleClob value] =>
          match queryJSONList.decodeRows rest with
          | .error err => .error err
          | .ok values => .ok (value :: values)
      | [.oracleString _] =>
          .error (jsonError "JSON query returned an OracleString" "Oracle.Query.queryJSONList")
      | [.oracleNull] => .error (jsonError "JSON query returned NULL" "Oracle.Query.queryJSONList")
      | [] => .error (jsonError "JSON query returned no columns" "Oracle.Query.queryJSONList")
      | _ =>
          .error (jsonError "JSON query returned an unexpected number or type of columns"
            "Oracle.Query.queryJSONList")

/-- The case analysis of `queryJSONAs` over the text. -/
def queryJSONAs.value [FromJSON α] (json : String) : Outcome α :=
  match (decode json : Except String α) with
  | .error jsonerr =>
      .error (jsonError ("Failed to decode JSON: " ++ jsonerr) "Oracle.Query.queryJSONAs")
  | .ok value => .ok value

def queryJSONListAs.decodeValues [FromJSON α] : List String → Outcome (List α)
  | [] => .ok []
  | json :: rest =>
      match (decode json : Except String α) with
      | .error jsonerr =>
          .error (jsonError ("Failed to decode JSON: " ++ jsonerr) "Oracle.Query.queryJSONListAs")
      | .ok value =>
          match queryJSONListAs.decodeValues rest with
          | .error err => .error err
          | .ok values => .ok (value :: values)

end Rows

section Queries

variable (env : Env σ) (fuel : Nat) (conn : Connection)

/-- Execute a JSON query and retrieve its single value as text. -/
def queryJSON (jsonquery : JSONQuery) : Eff (World σ) (Outcome String) := do
  match ← query env fuel conn (buildJSONQuerySQL jsonquery) jsonquery.binds with
  | .error err => return .error err
  | .ok rows => return queryJSON.value rows

/-- Execute a JSON query and retrieve all of its values as texts. -/
def queryJSONList (jsonquery : JSONQuery) : Eff (World σ) (Outcome (List String)) := do
  match ← query env fuel conn (buildJSONQuerySQL jsonquery) jsonquery.binds with
  | .error err => return .error err
  | .ok rows => return queryJSONList.decodeRows rows

/-- Execute a JSON query and decode its single value. -/
def queryJSONAs [FromJSON α] (jsonquery : JSONQuery) : Eff (World σ) (Outcome α) := do
  match ← queryJSON env fuel conn jsonquery with
  | .error err => return .error err
  | .ok json => return queryJSONAs.value json

/-- Execute a JSON query and decode all of its values. -/
def queryJSONListAs [FromJSON α] (jsonquery : JSONQuery) : Eff (World σ) (Outcome (List α)) := do
  match ← queryJSONList env fuel conn jsonquery with
  | .error err => return .error err
  | .ok jsonvalues => return queryJSONListAs.decodeValues jsonvalues

end Queries

section Values

variable {rows : List (List OracleValue)} {s : String} {ss : List String}

/-- The row of a JSON query that returned this text. -/
def clobRow (s : String) : List OracleValue := [.oracleClob s]

/-- The single value of the rows is a text if and only if its row is all there is. -/
theorem queryJSON.value_eq_ok_iff : queryJSON.value rows = .ok s ↔ rows = [clobRow s] := by
  constructor
  · intro h
    unfold queryJSON.value at h
    split at h
    · cases h
    · split at h <;> cases h
      rfl
    · cases h
  · rintro rfl
    rfl

theorem queryJSONList.decodeRows_eq_ok_iff :
    queryJSONList.decodeRows rows = .ok ss ↔ rows = ss.map clobRow := by
  induction rows generalizing ss with
  | nil => cases ss <;> simp [queryJSONList.decodeRows]
  | cons row rest ih =>
      constructor
      · intro h
        unfold queryJSONList.decodeRows at h
        split at h
        · split at h
          · cases h
          · rename_i value values hrest
            cases h
            rw [ih.mp hrest]
            rfl
        all_goals cases h
      · intro h
        cases ss with
        | nil => cases h
        | cons s ss =>
            obtain ⟨rfl, hrest⟩ := List.cons.inj h
            simp [queryJSONList.decodeRows, clobRow, ih.mpr hrest]

/-- One value of the list of decoded values. -/
def queryJSONListAs.decodeValue [FromJSON α] (json : String) : Outcome α :=
  match (decode json : Except String α) with
  | .error jsonerr =>
      .error (jsonError ("Failed to decode JSON: " ++ jsonerr) "Oracle.Query.queryJSONListAs")
  | .ok value => .ok value

theorem queryJSONListAs.decodeValue_eq_ok_iff [FromJSON α] {x : α} :
    queryJSONListAs.decodeValue s = .ok x ↔ decode s = .ok x := by
  unfold queryJSONListAs.decodeValue
  cases (decode s : Except String α) with
  | error jsonerr => simp
  | ok value => simp

theorem queryJSONListAs.decodeValues_eq_mapM [FromJSON α] :
    (queryJSONListAs.decodeValues ss : Outcome (List α)) =
      ss.mapM queryJSONListAs.decodeValue := by
  induction ss with
  | nil => rfl
  | cons s ss ih =>
      cases hs : (decode s : Except String α) with
      | error jsonerr =>
          have hvalue : (queryJSONListAs.decodeValue s : Outcome α) = .error (jsonError
              ("Failed to decode JSON: " ++ jsonerr) "Oracle.Query.queryJSONListAs") := by
            simp only [queryJSONListAs.decodeValue, hs]
          rw [mapM_cons_error hvalue]
          simp only [queryJSONListAs.decodeValues, hs]
      | ok x =>
          rw [mapM_cons_ok (queryJSONListAs.decodeValue_eq_ok_iff.mpr hs), ← ih]
          simp only [queryJSONListAs.decodeValues, hs]
          cases (queryJSONListAs.decodeValues ss : Outcome (List α)) <;> rfl

theorem queryJSONListAs.decodeValues_eq_ok_iff [FromJSON α] {xs : List α} :
    queryJSONListAs.decodeValues ss = .ok xs ↔
      List.Forall₂ (fun s x => decode s = .ok x) ss xs := by
  have hdecode : (fun s (x : α) => queryJSONListAs.decodeValue s = .ok x) =
      fun s x => decode s = .ok x := by
    funext s x
    exact propext queryJSONListAs.decodeValue_eq_ok_iff
  rw [queryJSONListAs.decodeValues_eq_mapM, mapM_eq_ok_iff, hdecode]

end Values

section Agreement

variable [FromJSON α] {env : Env σ} {fuel : Nat} {conn : Connection} {jsonquery : JSONQuery}
  {rows : List (List OracleValue)} {w w' : World σ}

theorem runs_queryJSON {result : Outcome (List (List OracleValue))}
    (hrun : Runs (query env fuel conn (buildJSONQuerySQL jsonquery) jsonquery.binds) w result w') :
    Runs (queryJSON env fuel conn jsonquery) w (result >>= queryJSON.value) w' :=
  runs_analysis hrun (fun _ => rfl) fun _ => rfl

theorem runs_queryJSONList {result : Outcome (List (List OracleValue))}
    (hrun : Runs (query env fuel conn (buildJSONQuerySQL jsonquery) jsonquery.binds) w result w') :
    Runs (queryJSONList env fuel conn jsonquery) w (result >>= queryJSONList.decodeRows) w' :=
  runs_analysis hrun (fun _ => rfl) fun _ => rfl

/-- What the four functions return in the same world. -/
structure JSONResults (env : Env σ) (fuel : Nat) (conn : Connection) (jsonquery : JSONQuery)
    (w w' : World σ) (one : Outcome String) (list : Outcome (List String)) (oneAs : Outcome α)
    (listAs : Outcome (List α)) : Prop where
  queryJSON : Runs (queryJSON env fuel conn jsonquery) w one w'
  queryJSONList : Runs (queryJSONList env fuel conn jsonquery) w list w'
  queryJSONAs : Runs (queryJSONAs env fuel conn jsonquery) w oneAs w'
  queryJSONListAs : Runs (queryJSONListAs env fuel conn jsonquery) w listAs w'

theorem jsonResults {result : Outcome (List (List OracleValue))}
    (hrun : Runs (query env fuel conn (buildJSONQuerySQL jsonquery) jsonquery.binds) w result w') :
    JSONResults env fuel conn jsonquery w w' (result >>= queryJSON.value)
      (result >>= queryJSONList.decodeRows)
      (result >>= queryJSON.value >>= queryJSONAs.value : Outcome α)
      (result >>= queryJSONList.decodeRows >>= queryJSONListAs.decodeValues) where
  queryJSON := runs_queryJSON hrun
  queryJSONList := runs_queryJSONList hrun
  queryJSONAs := runs_analysis (runs_queryJSON hrun) (fun _ => rfl) fun _ => rfl
  queryJSONListAs := runs_analysis (runs_queryJSONList hrun) (fun _ => rfl) fun _ => rfl

theorem bind_eq_ok_iff {β γ : Type} {m : Outcome β} {f : β → Outcome γ} {c : γ} :
    m >>= f = .ok c ↔ ∃ b, m = .ok b ∧ f b = .ok c := by
  cases m with
  | error err =>
      refine iff_of_false (fun h => by cases h) ?_
      rintro ⟨b, hb, -⟩
      cases hb
  | ok b =>
      refine ⟨fun h => ⟨b, rfl, h⟩, ?_⟩
      rintro ⟨b', hb, hc⟩
      cases hb
      exact hc

theorem queryJSONAs.value_eq_ok_iff {s : String} {x : α} :
    queryJSONAs.value s = .ok x ↔ decode s = .ok x := by
  unfold queryJSONAs.value
  cases (decode s : Except String α) with
  | error jsonerr => simp
  | ok value => simp

/-- The function for one value agrees with the one for a list on a single row. -/
theorem one_iff_list {s : String} :
    queryJSON.value rows = .ok s ↔ queryJSONList.decodeRows rows = .ok [s] := by
  rw [queryJSON.value_eq_ok_iff, queryJSONList.decodeRows_eq_ok_iff]
  rfl

theorem oneAs_iff_listAs {x : α} :
    (queryJSON.value rows >>= queryJSONAs.value : Outcome α) = .ok x ↔
      (queryJSONList.decodeRows rows >>= queryJSONListAs.decodeValues : Outcome (List α)) =
        .ok [x] := by
  rw [bind_eq_ok_iff, bind_eq_ok_iff]
  constructor
  · rintro ⟨s, hs, hx⟩
    refine ⟨[s], one_iff_list.mp hs, ?_⟩
    rw [queryJSONListAs.decodeValues_eq_ok_iff]
    exact .cons (queryJSONAs.value_eq_ok_iff.mp hx) .nil
  · rintro ⟨ss, hss, hxs⟩
    rw [queryJSONListAs.decodeValues_eq_ok_iff, List.forall₂_cons_right_iff] at hxs
    obtain ⟨s, rest, hx, hrest, rfl⟩ := hxs
    rw [List.forall₂_nil_right_iff] at hrest
    rw [hrest] at hss
    exact ⟨s, one_iff_list.mpr hss, queryJSONAs.value_eq_ok_iff.mpr hx⟩

/-- The four functions accept the same rows and return the same values, or an error. -/
theorem jsonQueries_agree
    (hrun : Runs (query env fuel conn (buildJSONQuerySQL jsonquery) jsonquery.binds) w
      (.ok rows) w') :
    ∃ one list oneAs listAs, JSONResults env fuel conn jsonquery w w' one list (oneAs : Outcome α)
        listAs ∧
      (∀ s, one = .ok s ↔ list = .ok [s]) ∧
      (∀ ss, list = .ok ss ↔ rows = ss.map fun s => [.oracleClob s]) ∧
      (∀ x, oneAs = .ok x ↔ listAs = .ok [x]) ∧
      ∀ xs, listAs = .ok xs ↔ ∃ ss, list = .ok ss ∧
        List.Forall₂ (fun s x => decode s = .ok x) ss xs := by
  refine ⟨_, _, _, _, jsonResults hrun, fun s => one_iff_list, fun ss => ?_,
    fun x => oneAs_iff_listAs, fun xs => ?_⟩
  · exact queryJSONList.decodeRows_eq_ok_iff
  · change (queryJSONList.decodeRows rows >>= queryJSONListAs.decodeValues : Outcome (List α)) =
      .ok xs ↔ ∃ ss, queryJSONList.decodeRows rows = .ok ss ∧ _
    rw [bind_eq_ok_iff]
    constructor
    · rintro ⟨ss, hss, hxs⟩
      exact ⟨ss, hss, queryJSONListAs.decodeValues_eq_ok_iff.mp hxs⟩
    · rintro ⟨ss, hss, hxs⟩
      exact ⟨ss, hss, queryJSONListAs.decodeValues_eq_ok_iff.mpr hxs⟩

end Agreement

/-- The query of a document, whose only row has an empty CLOB. -/
theorem runs_query_document (sql : String) :
    ∃ w', Runs (query (Cursor.env [.clob] 1) 2 ⟨⟨0⟩⟩ sql []) (World.initial (Cursor.start [[true]]))
      (.ok [[.oracleClob ""]]) w' := by
  let E := Cursor.env [.clob] 1
  let stmt : Statement := ⟨⟨0, ⟨0⟩, ⟨0⟩⟩⟩
  let w₀ := World.initial (Cursor.start [[true]])
  let w₁ := ((prepare E ⟨⟨0⟩⟩ sql) w₀).elim w₀ Prod.snd
  let w₂ := ((execute E stmt) w₁).elim w₁ Prod.snd
  let w₃ := ((oracleFetch E stmt.ptr) w₂).elim w₂ Prod.snd
  let w₄ := ((oracleColumnCount E stmt.ptr) w₃).elim w₃ Prod.snd
  let w₅ := ((decodeColumn E stmt.ptr 0) w₄).elim w₄ Prod.snd
  let w₆ := ((oracleFetch E stmt.ptr) w₅).elim w₅ Prod.snd
  have hprepare : Runs (prepare E ⟨⟨0⟩⟩ sql) w₀ (.ok stmt) w₁ := rfl
  have hbind : Runs (bind E stmt []) w₁ (.ok ()) w₁ := rfl
  have hexecute : Runs (execute E stmt) w₁ (.ok ()) w₂ := rfl
  have hfetch : Runs (oracleFetch E stmt.ptr) w₂ 1 w₃ := rfl
  have hcount : Runs (oracleColumnCount E stmt.ptr) w₃ 1 w₄ := rfl
  have hvalue : Runs (decodeColumn E stmt.ptr 0) w₄ (.ok (.oracleClob "")) w₅ := rfl
  have hend : Runs (oracleFetch E stmt.ptr) w₅ 0 w₆ := rfl
  rw [query_eq_queryRaw]
  exact ⟨_, runs_queryRaw_one hprepare hbind hexecute hfetch hcount hvalue hend rfl⟩

/-- The instance of a client that wants the length of the text. -/
instance textLength : FromJSON Nat := ⟨fun json => .ok json.length⟩

theorem jsonQueries_agree_document :
    ∃ w', Runs (queryJSONAs (Cursor.env [.clob] 1) 2 ⟨⟨0⟩⟩ ⟨"payload", "documents", []⟩)
      (World.initial (Cursor.start [[true]])) (.ok 0) w' := by
  obtain ⟨w', hrun⟩ := runs_query_document
    (buildJSONQuerySQL ⟨"payload", "documents", []⟩)
  obtain ⟨one, list, oneAs, listAs, hresults, -, hlist, honeAs, hlistAs⟩ :=
    @jsonQueries_agree _ Nat _ _ _ _ ⟨"payload", "documents", []⟩ _ _ _ hrun
  have hlistAs : listAs = .ok [0] :=
    (hlistAs [0]).mpr ⟨[""], (hlist [""]).mpr rfl, .cons rfl .nil⟩
  have hone := hresults.queryJSONAs
  rw [(honeAs 0).mpr hlistAs] at hone
  exact ⟨w', hone⟩

end IdrisOracle
