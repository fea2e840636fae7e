import IdrisOracle.Fetch

/-! Reading a result row by row and column by column, and that the fetch loops do it. -/

namespace IdrisOracle

open Effect

variable {σ : Type} {env : Env σ} {stmt : Statement} {w w' : World σ} {count : Int32}

/-- The column indices of a row. -/
def columnIndices (count : Int32) : List Int32 := (List.range count.toInt.toNat).map Int32.ofNat

/-- The columns are decoded one after the other, until one fails. -/
inductive Decodes (env : Env σ) (stmt : Statement) :
    List Int32 → World σ → Outcome (List OracleValue) → World σ → Prop
  | done {w : World σ} : Decodes env stmt [] w (.ok []) w
  | fails {index : Int32} {indices : List Int32} {err : OracleError} {w w' : World σ}
      (hdecode : Runs (decodeColumn env stmt.ptr index) w (.error err) w') :
      Decodes env stmt (index :: indices) w (.error err) w'
  | next {index : Int32} {indices : List Int32} {value : OracleValue}
      {row : Outcome (List OracleValue)} {w w₁ w' : World σ}
      (hdecode : Runs (decodeColumn env stmt.ptr index) w (.ok value) w₁)
      (hrest : Decodes env stmt indices w₁ row w') :
      Decodes env stmt (index :: indices) w (row.map (value :: ·)) w'

/-- The rows are fetched and decoded one after the other, until a fetch or a column fails. -/
inductive Scan (env : Env σ) (stmt : Statement) :
    World σ → Outcome (List (List OracleValue)) → World σ → Prop
  | done {w w' : World σ} (hfetch : Runs (oracleFetch env stmt.ptr) w 0 w') :
      Scan env stmt w (.ok []) w'
  | fetchFails {rc : Int32} {w w' : World σ} (hfetch : Runs (oracleFetch env stmt.ptr) w rc w')
      (hrc : rc < 0) : Scan env stmt w (.error (w'.lastError env)) w'
  | columnFails {rc count : Int32} {err : OracleError} {w w₁ w₂ w' : World σ}
      (hfetch : Runs (oracleFetch env stmt.ptr) w rc w₁) (hrc : 0 < rc)
      (hcount : Runs (oracleColumnCount env stmt.ptr) w₁ count w₂)
      (hrow : Decodes env stmt (columnIndices count) w₂ (.error err) w') :
      Scan env stmt w (.error err) w'
  | row {rc count : Int32} {values : List OracleValue}
      {rows : Outcome (List (List OracleValue))} {w w₁ w₂ w₃ w' : World σ}
      (hfetch : Runs (oracleFetch env stmt.ptr) w rc w₁) (hrc : 0 < rc)
      (hcount : Runs (oracleColumnCount env stmt.ptr) w₁ count w₂)
      (hrow : Decodes env stmt (columnIndices count) w₂ (.ok values) w₃)
      (hrest : Scan env stmt w₃ rows w') :
      Scan env stmt w (rows.map (values :: ·)) w'

theorem map_append_cons {α : Type} (front : List α) (a : α) (rest : Outcome (List α)) :
    rest.map (front ++ [a] ++ ·) = (rest.map (a :: ·)).map (front ++ ·) := by
  cases rest <;> simp [Except.map]

theorem ofNat_lt_count {k : Nat} (hk : k ≤ count.toInt.toNat) :
    Int32.ofNat k < count ↔ k < count.toInt.toNat := by
  have hcount := count.toInt_lt
  have hk' : (Int32.ofNat k).toInt = k := Int32.toInt_ofNat_of_lt (by omega)
  rw [Int32.lt_iff_toInt_lt, hk']
  omega

/-- The loop over the columns decodes those from its index on. -/
theorem decodes_of_go {k : Nat} {acc : List OracleValue} {result : Outcome (List OracleValue)}
    (hk : k ≤ count.toInt.toNat)
    (hrun : Runs (fetchRow.go env stmt count (Int32.ofNat k) acc) w result w') :
    ∃ row, Decodes env stmt (((List.range count.toInt.toNat).drop k).map Int32.ofNat) w row w' ∧
      result = row.map (acc.reverse ++ ·) := by
  induction hleft : count.toInt.toNat - k generalizing k acc w with
  | zero =>
      have hend : ¬ Int32.ofNat k < count := by
        rw [ofNat_lt_count hk]
        omega
      rw [fetchRow.go_done env (Int32.not_lt.mp hend)] at hrun
      obtain ⟨rfl, rfl⟩ := runs_pure.mp hrun
      rw [List.drop_eq_nil_of_le (by rw [List.length_range]; omega)]
      exact ⟨.ok [], .done, by simp [Except.map]⟩
  | succ left ih =>
      have hlt : k < count.toInt.toNat := by omega
      rw [fetchRow.go_next env ((ofNat_lt_count hk).mpr hlt)] at hrun
      have hdrop : (List.range count.toInt.toNat).drop k =
          k :: (List.range count.toInt.toNat).drop (k + 1) := by
        rw [List.drop_eq_getElem_cons (by rwa [List.length_range]), List.getElem_range]
      rw [hdrop, List.map_cons]
      rcases runs_andThen.mp hrun with ⟨err, hdecode, rfl⟩ | ⟨value, w₁, hdecode, hrest⟩
      · exact ⟨.error err, .fails hdecode, rfl⟩
      · have hsucc : Int32.ofNat k + 1 = Int32.ofNat (k + 1) := (Int32.ofNat_add k 1).symm
        rw [hsucc] at hrest
        obtain ⟨row, hrow, rfl⟩ := ih (by omega) hrest (by omega)
        exact ⟨row.map (value :: ·), .next hdecode hrow, by rw [List.reverse_cons, map_append_cons]⟩

theorem map_nil_append {α : Type} (result : Outcome (List α)) : result.map ([] ++ ·) = result := by
  cases result <;> rfl

/-- A row is fetched and its columns are decoded in order. -/
theorem runs_fetchRow {result : Outcome (Option (List OracleValue))}
    (hrun : Runs (fetchRow env stmt) w result w') :
    ∃ rc w₁, Runs (oracleFetch env stmt.ptr) w rc w₁ ∧
      ((rc < 0 ∧ result = .error (w'.lastError env) ∧ w' = w₁) ∨
        (rc = 0 ∧ result = .ok none ∧ w' = w₁) ∨
        0 < rc ∧ ∃ count w₂ row, Runs (oracleColumnCount env stmt.ptr) w₁ count w₂ ∧
          Decodes env stmt (columnIndices count) w₂ row w' ∧ result = row.map some) := by
  obtain ⟨rc, w₁, hfetch, hrest⟩ := runs_bind.mp hrun
  refine ⟨rc, w₁, hfetch, ?_⟩
  by_cases hneg : rc < 0
  · rw [if_pos hneg] at hrest
    cases hrest
    exact .inl ⟨hneg, rfl, rfl⟩
  · rw [if_neg hneg] at hrest
    by_cases hzero : rc = 0
    · rw [if_pos hzero] at hrest
      cases hrest
      exact .inr (.inl ⟨hzero, rfl, rfl⟩)
    · rw [if_neg hzero] at hrest
      obtain ⟨count, w₂, hcount, hrest⟩ := runs_bind.mp hrest
      obtain ⟨row, w₃, hgo, hreturn⟩ := runs_bind.mp hrest
      obtain ⟨row', hrow, hresult⟩ := decodes_of_go (k := 0) (Nat.zero_le _) hgo
      rw [List.reverse_nil, map_nil_append] at hresult
      subst hresult
      refine .inr (.inr ⟨?_, count, w₂, row, hcount, ?_⟩)
      · exact Int32.lt_of_le_of_ne (Int32.not_lt.mp hneg) (Ne.symm hzero)
      · cases row with
        | error err =>
            cases hreturn
            exact ⟨hrow, rfl⟩
        | ok values =>
            cases hreturn
            exact ⟨hrow, rfl⟩

/-- The fetch loop scans the rows and puts them behind those it has. -/
theorem scan_of_loop {fuel : Nat} {acc : List (List OracleValue)}
    {result : Outcome (List (List OracleValue))}
    (hrun : Runs (fetchRaw.loop env stmt fuel acc) w result w') :
    ∃ rows, Scan env stmt w rows w' ∧ result = rows.map (acc.reverse ++ ·) := by
  induction fuel generalizing acc w with
  | zero => cases hrun
  | succ fuel ih =>
      obtain ⟨row, w₁, hrow, hrest⟩ := runs_bind.mp hrun
      obtain ⟨rc, w₂, hfetch, hcases⟩ := runs_fetchRow hrow
      rcases hcases with ⟨hrc, rfl, rfl⟩ | ⟨rfl, rfl, rfl⟩ |
        ⟨hrc, count, w₃, row, hcount, hdecodes, rfl⟩
      · cases hrest
        exact ⟨_, .fetchFails hfetch hrc, rfl⟩
      · cases hrest
        exact ⟨.ok [], .done hfetch, by simp [Except.map]⟩
      · cases row with
        | error err =>
            cases hrest
            exact ⟨.error err, .columnFails hfetch hrc hcount hdecodes, rfl⟩
        | ok values =>
            obtain ⟨rows, hscan, rfl⟩ := ih hrest
            refine ⟨rows.map (values :: ·), .row hfetch hrc hcount hdecodes hscan, ?_⟩
            rw [List.reverse_cons, map_append_cons]

end IdrisOracle
