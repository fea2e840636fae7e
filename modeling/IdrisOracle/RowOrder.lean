import IdrisOracle.FetchBlock

/-! The rows of a cursor that is read in blocks, each handed over once and in order. -/

namespace IdrisOracle

open Fallible

variable {τ : Type} {calls : QueryCalls τ} {C : OciCursor calls} {stmt stmt' : FetchState}
  {rows rows' : List (List DpiData)} {width : Nat}

/-- The rows of a part of the buffers. -/
def slice (columns : List FetchColumn) (index n : Nat) : List (List DpiData) :=
  (List.range' index n).map (rowAt columns)

theorem length_slice (columns : List FetchColumn) (index n : Nat) :
    (slice columns index n).length = n := by
  rw [slice, List.length_map, List.length_range']

/-- What a statement is yet to hand over: the rows left in its buffers, and those to come while
it is to fetch them. -/
def pendingRows (stmt : FetchState) (rows : List (List DpiData)) : List (List DpiData) :=
  slice stmt.columns stmt.bufferRowIndex (stmt.bufferRowCount - stmt.bufferRowIndex) ++
    if stmt.hasRowsToFetch then rows else []

theorem pendingRows_empty (h : stmt.bufferRowCount ≤ stmt.bufferRowIndex) :
    pendingRows stmt rows = if stmt.hasRowsToFetch then rows else [] := by
  rw [pendingRows, Nat.sub_eq_zero_of_le h]
  rfl

theorem pendingRows_unread (h : stmt.bufferRowCount ≤ stmt.bufferRowIndex)
    (hmore : stmt.hasRowsToFetch = true) : pendingRows stmt rows = rows := by
  rw [pendingRows_empty h, if_pos hmore]

theorem pendingRows_done (h : stmt.bufferRowCount ≤ stmt.bufferRowIndex)
    (hdone : stmt.hasRowsToFetch = false) : pendingRows stmt rows = [] := by
  rw [pendingRows_empty h, hdone]
  rfl

/-- Rows in the buffers are handed over from the front. -/
theorem pendingRows_advance {n : Nat} (h : n ≤ stmt.bufferRowCount - stmt.bufferRowIndex) :
    pendingRows stmt rows =
      slice stmt.columns stmt.bufferRowIndex n ++ pendingRows (stmt.advance n) rows := by
  have hleft : stmt.bufferRowCount - (stmt.bufferRowIndex + n) =
      stmt.bufferRowCount - stmt.bufferRowIndex - n := by omega
  have hsplit : List.range' stmt.bufferRowIndex (stmt.bufferRowCount - stmt.bufferRowIndex) =
      List.range' stmt.bufferRowIndex n ++ List.range' (stmt.bufferRowIndex + n)
        (stmt.bufferRowCount - stmt.bufferRowIndex - n) := by
    rw [List.range'_append_1, Nat.add_sub_cancel' h]
  change _ = slice stmt.columns stmt.bufferRowIndex n ++
    (slice stmt.columns (stmt.bufferRowIndex + n)
      (stmt.bufferRowCount - (stmt.bufferRowIndex + n)) ++
        if stmt.hasRowsToFetch then rows else [])
  rw [pendingRows, slice, hsplit, List.map_append, List.append_assoc, hleft]
  rfl

/-- A statement of a query whose columns are those of its cursor. -/
structure Executed (stmt : FetchState) (rows : List (List DpiData)) (width : Nat) : Prop
    extends Spacious stmt where
  described : stmt.columns.length = width
  wide : ∀ row ∈ rows, row.length = width
  width_pos : 0 < width

theorem Executed.columns_ne (h : Executed stmt rows width) : stmt.columns ≠ [] := by
  rw [← List.length_pos_iff, h.described]
  exact h.width_pos

theorem Executed.advance {n : Nat} (h : Executed stmt rows width) :
    Executed (stmt.advance n) rows width :=
  ⟨⟨h.size_pos, h.roomy⟩, h.described, h.wide, h.width_pos⟩

/-- A statement and the cursor behind it, as they are while a query is read. -/
def OciCursor.Open (C : OciCursor calls) (w : Fetching τ) : Prop :=
  Executed w.stmt (C.rows w.oci) (C.width w.oci)

theorem OciCursor.at_self (C : OciCursor calls) (w : Fetching τ) :
    C.At w.stmt (C.rows w.oci) (C.width w.oci) w := ⟨rfl, rfl, rfl⟩

/-- Two states of a statement in which the same value is read. -/
structure SamePlace (stmt stmt' : FetchState) : Prop where
  columns : stmt'.columns = stmt.columns
  index : stmt'.bufferRowIndex = stmt.bufferRowIndex
  count : stmt'.bufferRowCount = stmt.bufferRowCount

theorem SamePlace.refl : SamePlace stmt stmt := ⟨rfl, rfl, rfl⟩

theorem SamePlace.trans {stmt'' : FetchState} (h : SamePlace stmt stmt')
    (h' : SamePlace stmt' stmt'') : SamePlace stmt stmt'' :=
  ⟨h'.columns.trans h.columns, h'.index.trans h.index, h'.count.trans h.count⟩

/-- The statement has a row in its buffers, unless there is none at all. -/
structure InBuffer (stmt : FetchState) (rows : List (List DpiData)) (found : Bool)
    (stmt' : FetchState) (rows' : List (List DpiData)) : Prop where
  pending : pendingRows stmt' rows' = pendingRows stmt rows
  rowCount : stmt'.rowCount = stmt.rowCount
  shown : found = decide (stmt'.bufferRowIndex < stmt'.bufferRowCount)
  done : found = false → stmt'.hasRowsToFetch = false
  same : stmt'.bufferRowIndex = 0 ∨ SamePlace stmt stmt'

theorem Refilled.executed (h : Refilled stmt rows width stmt' rows')
    (hexec : Executed stmt rows width) : Executed stmt' rows' width :=
  ⟨h.inBounds.toSpacious, h.fits hexec.described, h.wide hexec.wide, hexec.width_pos⟩

theorem Refilled.inBuffer (h : Refilled stmt rows width stmt' rows')
    (hexec : Executed stmt rows width) (hindex : stmt.bufferRowCount ≤ stmt.bufferRowIndex)
    (hmore : stmt.hasRowsToFetch = true) :
    InBuffer stmt rows (decide (stmt'.bufferRowIndex < stmt'.bufferRowCount)) stmt' rows' := by
  refine ⟨?_, h.rowCount, rfl, fun hnone => ?_, .inl h.index⟩
  · have hlast : (if stmt'.hasRowsToFetch then rows' else []) = rows' := by
      cases hmore' : stmt'.hasRowsToFetch with
      | true => rfl
      | false => exact (h.last hmore').symm
    rw [pendingRows_unread hindex hmore, pendingRows, hlast, h.index, Nat.sub_zero, slice,
      ← List.range_eq_range']
    exact (h.rows hexec.described hexec.wide).symm
  · have hzero : ¬ 0 < stmt'.bufferRowCount := by
      rw [h.index] at hnone
      simpa using hnone
    cases hmore' : stmt'.hasRowsToFetch with
    | true => exact absurd (h.some hmore') hzero
    | false => rfl

theorem inBuffer_of_not
    (hno : ¬ (stmt.bufferRowCount ≤ stmt.bufferRowIndex ∧ stmt.hasRowsToFetch = true)) :
    InBuffer stmt rows (decide (stmt.bufferRowIndex < stmt.bufferRowCount)) stmt rows := by
  refine ⟨rfl, rfl, rfl, fun hnone => ?_, .inr .refl⟩
  cases hmore : stmt.hasRowsToFetch with
  | true => exact absurd ⟨by simpa using hnone, hmore⟩ hno
  | false => rfl

theorem spec_rowInBuffer (hexec : Executed stmt rows width) :
    Spec (C.At stmt rows width) (rowInBuffer calls)
      (fun found w => ∃ stmt' rows', Executed stmt' rows' width ∧
        InBuffer stmt rows found stmt' rows' ∧ C.At stmt' rows' width w)
      (fun _ _ => True) := by
  refine spec_read fun w hw => ?_
  rw [hw]
  refine spec_bind (Q := fun _ w => ∃ stmt' rows', Executed stmt' rows' width ∧
    InBuffer stmt rows (decide (stmt'.bufferRowIndex < stmt'.bufferRowCount)) stmt' rows' ∧
    C.At stmt' rows' width w) (spec_whenever ?_ ?_) fun _ => ?_
  · rintro ⟨hindex, hmore⟩
    refine (spec_fetchBlock hexec.toSpacious hmore).weaken ?_ fun _ _ _ => trivial
    rintro _ w ⟨stmt', rest, h, hat⟩
    exact ⟨stmt', rest, h.executed hexec, h.inBuffer hexec hindex hmore, hat⟩
  · intro hno w hat
    exact ⟨stmt, rows, hexec, inBuffer_of_not hno, hat⟩
  · refine spec_exists fun stmt' => spec_exists fun rows' => spec_fact fun hexec' =>
      spec_fact fun hin => spec_read fun w hw => ?_
    rw [hw]
    exact spec_pure fun w hat => ⟨stmt', rows', hexec', hin, hat⟩

/-- What a call does that hands rows over: they are the next ones. -/
structure Handed (stmt : FetchState) (rows : List (List DpiData)) (index n : Nat)
    (stmt' : FetchState) (rows' : List (List DpiData)) : Prop where
  pending : pendingRows stmt rows = slice stmt'.columns index n ++ pendingRows stmt' rows'
  rowCount : stmt'.rowCount = stmt.rowCount + n
  advanced : stmt'.bufferRowIndex = index + n
  idle : n = 0 → stmt'.bufferRowIndex = 0 ∨ SamePlace stmt stmt'

/-- What a call does that finds no rows. -/
structure Finished (stmt : FetchState) (rows : List (List DpiData)) (stmt' : FetchState)
    (rows' : List (List DpiData)) : Prop where
  before : pendingRows stmt rows = []
  after : pendingRows stmt' rows' = []
  rowCount : stmt'.rowCount = stmt.rowCount
  same : stmt'.bufferRowIndex = 0 ∨ SamePlace stmt stmt'

theorem InBuffer.handed {n : Nat} (h : InBuffer stmt rows true stmt' rows')
    (hn : n ≤ stmt'.bufferRowCount - stmt'.bufferRowIndex) :
    Handed stmt rows stmt'.bufferRowIndex n (stmt'.advance n) rows' := by
  refine ⟨?_, ?_, rfl, ?_⟩
  · rw [← h.pending]
    exact pendingRows_advance hn
  · rw [← h.rowCount]
    rfl
  · rintro rfl
    exact h.same.imp_right fun hsame => hsame.trans ⟨rfl, rfl, rfl⟩

theorem InBuffer.finished (h : InBuffer stmt rows false stmt' rows') :
    Finished stmt rows stmt' rows' := by
  have hempty : stmt'.bufferRowCount ≤ stmt'.bufferRowIndex := by simpa using h.shown
  have hnone : pendingRows stmt' rows' = [] := pendingRows_done hempty (h.done rfl)
  exact ⟨h.pending.symm.trans hnone, hnone, h.rowCount, h.same⟩

theorem spec_check :
    Spec (C.At stmt rows width) (onOci calls.check) (fun _ => C.At stmt rows width)
      (fun _ => C.At stmt rows width) :=
  spec_quiet C.check.1 C.check.2

/-- A fetch hands over the next row, or there is none. -/
theorem spec_dpiStmtFetch (hexec : Executed stmt rows width) :
    Spec (C.At stmt rows width) (dpiStmtFetch calls)
      (fun found w => ∃ stmt' rows', Executed stmt' rows' width ∧
        (found = none ∧ Finished stmt rows stmt' rows' ∨
          ∃ index, found = some index ∧ Handed stmt rows index 1 stmt' rows') ∧
        C.At stmt' rows' width w)
      (fun _ _ => True) := by
  refine spec_bind (spec_check.weaken (fun _ _ h => h) fun _ _ _ => trivial) fun _ =>
    spec_bind (spec_rowInBuffer hexec) fun found => spec_exists fun stmt' =>
      spec_exists fun rows' => spec_fact fun hexec' => spec_fact fun hin =>
        spec_read fun w hw => ?_
  cases found with
  | false => exact spec_pure fun w hat => ⟨stmt', rows', hexec', .inl ⟨rfl, hin.finished⟩, hat⟩
  | true =>
      have hlt : stmt'.bufferRowIndex < stmt'.bufferRowCount := by simpa using hin.shown.symm
      rw [hw]
      refine spec_bind spec_onStmt fun _ => spec_pure fun w hat => ?_
      exact ⟨_, rows', hexec'.advance, .inr ⟨_, rfl, hin.handed (by omega)⟩, hat⟩

/-- Fetching rows hands over the next rows, all that are left when it says that there are no
more. -/
theorem spec_dpiStmtFetchRows {maxRows : Nat} (hexec : Executed stmt rows width) :
    Spec (C.At stmt rows width) (dpiStmtFetchRows calls maxRows)
      (fun r w => ∃ stmt' rows', Executed stmt' rows' width ∧
        (r = ⟨0, 0, false⟩ ∧ Finished stmt rows stmt' rows' ∨
          Handed stmt rows r.bufferRowIndex r.numRowsFetched stmt' rows' ∧
            (r.moreRows = false → pendingRows stmt' rows' = [])) ∧
        C.At stmt' rows' width w)
      (fun _ _ => True) := by
  refine spec_bind (spec_check.weaken (fun _ _ h => h) fun _ _ _ => trivial) fun _ =>
    spec_bind (spec_rowInBuffer hexec) fun found => spec_exists fun stmt' =>
      spec_exists fun rows' => spec_fact fun hexec' => spec_fact fun hin =>
        spec_read fun w hw => ?_
  cases found with
  | false => exact spec_pure fun w hat => ⟨stmt', rows', hexec', .inl ⟨rfl, hin.finished⟩, hat⟩
  | true =>
      rw [hw]
      refine spec_bind spec_onStmt fun _ => spec_pure fun w hat => ?_
      refine ⟨_, rows', hexec'.advance, .inr ⟨hin.handed (Nat.min_le_left _ _), fun hmore => ?_⟩,
        hat⟩
      obtain ⟨hall, hexhausted⟩ : stmt'.bufferRowCount - stmt'.bufferRowIndex ≤ maxRows ∧
          stmt'.hasRowsToFetch = false := by simpa using hmore
      rw [Nat.min_eq_left hall]
      refine pendingRows_done ?_ hexhausted
      change stmt'.bufferRowCount ≤
        stmt'.bufferRowIndex + (stmt'.bufferRowCount - stmt'.bufferRowIndex)
      omega

/-- Columns that are known are not described again. -/
theorem spec_known (hexec : Executed stmt rows width) {p : Prop} [Decidable p]
    (hp : p → stmt.columns = []) {E : DpiError → Fetching τ → Prop} :
    Spec (C.At stmt rows width) (whenever p (dpiStmtCreateQueryVars calls))
      (fun _ => C.At stmt rows width) E :=
  spec_whenever (fun h => absurd (hp h) hexec.columns_ne) fun _ _ hat => hat

theorem spec_dpiStmtGetNumQueryColumns (hexec : Executed stmt rows width) :
    Spec (C.At stmt rows width) (dpiStmtGetNumQueryColumns calls)
      (fun n w => n = width ∧ C.At stmt rows width w) (fun _ => C.At stmt rows width) := by
  refine spec_bind spec_check fun _ => spec_read fun w hw => ?_
  rw [hw]
  have hempty : stmt.isQuery = true ∧ stmt.columns.isEmpty = true → stmt.columns = [] := by simp
  refine spec_bind (spec_known hexec hempty) fun _ => spec_read fun w hw =>
    spec_pure fun w hat => ?_
  rw [hw]
  exact ⟨hexec.described, hat⟩

theorem spec_dpiStmtGetQueryInfo {pos : Nat} (hexec : Executed stmt rows width) :
    Spec (C.At stmt rows width) (dpiStmtGetQueryInfo calls pos)
      (fun info w => (∃ column, stmt.columns[pos - 1]? = some column ∧ info = column.info) ∧
        C.At stmt rows width w)
      (fun _ => C.At stmt rows width) := by
  refine spec_bind spec_check fun _ => spec_read fun w hw => ?_
  rw [hw]
  have hempty : stmt.columns.isEmpty = true → stmt.columns = [] := by simp
  refine spec_bind (spec_known hexec hempty) fun _ => spec_read fun w hw => ?_
  refine spec_ite (fun _ => spec_throw fun _ hat => hat) fun _ => ?_
  rw [hw]
  cases hcolumn : stmt.columns[pos - 1]? with
  | none => exact spec_throw fun _ hat => hat
  | some column => exact spec_pure fun w hat => ⟨⟨column, rfl, rfl⟩, hat⟩

/-- A value that is read is in a slot of a variable that holds a row. -/
structure Shown (stmt : FetchState) (pos : Nat) (value : DpiNativeTypeNum × DpiData)
    (column : FetchColumn) (var : QueryVar) : Prop where
  found : stmt.columns[pos - 1]? = some column
  defined : column.var = some var
  value : value = (var.nativeTypeNum, var.externalData (stmt.bufferRowIndex - 1))
  index_pos : 0 < stmt.bufferRowIndex
  index_le : stmt.bufferRowIndex ≤ stmt.bufferRowCount

theorem Shown.cell {pos : Nat} {value : DpiNativeTypeNum × DpiData} {column : FetchColumn}
    {var : QueryVar} (h : Shown stmt pos value column var) :
    (rowAt stmt.columns (stmt.bufferRowIndex - 1))[pos - 1]? = some value.2 := by
  rw [rowAt, List.getElem?_map, h.found, h.value, Option.map_some, FetchColumn.at, h.defined]
  rfl

theorem spec_dpiStmtGetQueryValue {pos : Nat} :
    Spec (C.At stmt rows width) (dpiStmtGetQueryValue calls pos)
      (fun value w => (∃ column var, Shown stmt pos value column var) ∧ C.At stmt rows width w)
      (fun _ => C.At stmt rows width) := by
  refine spec_bind spec_check fun _ => spec_read fun w hw => ?_
  rw [hw]
  refine spec_ite (fun _ => spec_throw fun _ hat => hat) fun _ =>
    spec_ite (fun _ => spec_throw fun _ hat => hat) fun _ => ?_
  cases hcolumn : stmt.columns[pos - 1]? with
  | none => exact spec_throw fun _ hat => hat
  | some column =>
      dsimp only
      cases hvar : column.var with
      | none => exact spec_throw fun _ hat => hat
      | some var =>
          refine spec_ite (fun _ => spec_throw fun _ hat => hat) fun hindex => ?_
          rw [not_or, Nat.not_lt] at hindex
          exact spec_pure fun w hat =>
            ⟨⟨column, var, hcolumn, hvar, rfl, Nat.pos_of_ne_zero hindex.1, hindex.2⟩, hat⟩

theorem effectiveArraySize_pos (arraySize : Nat) : 0 < effectiveArraySize arraySize := by
  unfold effectiveArraySize
  split
  · decide
  · omega

theorem roomy_of_not_any {size : Nat} {columns : List FetchColumn}
    (h : ¬ columns.any (fun column =>
      column.var.any fun var => decide (var.maxArraySize < size)) = true) :
    Roomy size columns := by
  intro column hcolumn var hvar
  by_contra hlt
  refine h (List.any_eq_true.mpr ⟨column, hcolumn, ?_⟩)
  rw [hvar]
  exact decide_eq_true (Nat.not_le.mp hlt)

theorem spec_dpiStmtSetFetchArraySize {arraySize : Nat} :
    Spec (C.At stmt rows width) (dpiStmtSetFetchArraySize calls arraySize)
      (fun _ w => Roomy (effectiveArraySize arraySize) stmt.columns ∧
        C.At { stmt with fetchArraySize := effectiveArraySize arraySize } rows width w)
      (fun _ => C.At stmt rows width) := by
  refine spec_bind spec_check fun _ => spec_read fun w hw => ?_
  rw [hw]
  refine spec_bind (Q := fun _ w => Roomy (effectiveArraySize arraySize) stmt.columns ∧
    C.At stmt rows width w) (spec_whenever (fun _ => spec_throw fun _ hat => hat)
      fun hroomy w hat => ⟨roomy_of_not_any hroomy, hat⟩) fun _ => spec_fact fun hroomy => ?_
  exact spec_onStmt.weaken (fun _ w hat => ⟨hroomy, hat⟩) fun _ _ h => h

theorem spec_dpiStmtGetRowCount :
    Spec (C.At stmt rows width) (dpiStmtGetRowCount calls)
      (fun n w => (stmt.isQuery = true → n = stmt.rowCount) ∧ C.At stmt rows width w)
      (fun _ => C.At stmt rows width) := by
  refine spec_bind spec_check fun _ => spec_read fun w hw => ?_
  rw [hw]
  refine spec_ite (fun _ => spec_pure fun w hat => ⟨fun _ => rfl, hat⟩) fun hother => ?_
  exact (spec_quiet C.affectedRows.1 C.affectedRows.2).weaken
    (fun _ _ hat => ⟨fun h => absurd h hother, hat⟩) fun _ _ hat => hat

/-- A call on an executed query that returns, with the rows that it hands over. -/
inductive Reading (calls : QueryCalls τ) :
    Fetching τ → List (List DpiData) → Fetching τ → Prop
  | fetch {w w' : Fetching τ} {index : Nat} (h : Returns (dpiStmtFetch calls) w (some index) w') :
      Reading calls w (slice w'.stmt.columns index 1) w'
  | finished {w w' : Fetching τ} (h : Returns (dpiStmtFetch calls) w none w') :
      Reading calls w [] w'
  | fetchRows {w w' : Fetching τ} {maxRows : Nat} {r : FetchedRows}
      (h : Returns (dpiStmtFetchRows calls maxRows) w r w') :
      Reading calls w (slice w'.stmt.columns r.bufferRowIndex r.numRowsFetched) w'
  | getNumQueryColumns {w w' : Fetching τ} {n : Nat}
      (h : Returns (dpiStmtGetNumQueryColumns calls) w n w') : Reading calls w [] w'
  | getQueryInfo {w w' : Fetching τ} {pos : Nat} {info : DpiQueryInfo}
      (h : Returns (dpiStmtGetQueryInfo calls pos) w info w') : Reading calls w [] w'
  | getQueryValue {w w' : Fetching τ} {pos : Nat} {value : DpiNativeTypeNum × DpiData}
      (h : Returns (dpiStmtGetQueryValue calls pos) w value w') : Reading calls w [] w'
  | getRowCount {w w' : Fetching τ} {n : Nat} (h : Returns (dpiStmtGetRowCount calls) w n w') :
      Reading calls w [] w'
  | setFetchArraySize {w w' : Fetching τ} {arraySize : Nat}
      (h : Returns (dpiStmtSetFetchArraySize calls arraySize) w () w') : Reading calls w [] w'

/-- Calls on an executed query, one after the other, with the rows that they hand over. -/
inductive Reads (calls : QueryCalls τ) : Fetching τ → List (List DpiData) → Fetching τ → Prop
  | start (w : Fetching τ) : Reads calls w [] w
  | call {w w' w'' : Fetching τ} {delivered more : List (List DpiData)}
      (h : Reads calls w delivered w') (hlast : Reading calls w' more w'') :
      Reads calls w (delivered ++ more) w''

/-- What a call does of the rows: it hands over the next ones and looks at the last of them. -/
structure Progress (stmt : FetchState) (rows more : List (List DpiData)) (stmt' : FetchState)
    (rows' : List (List DpiData)) : Prop where
  pending : pendingRows stmt rows = more ++ pendingRows stmt' rows'
  rowCount : stmt'.rowCount = stmt.rowCount + more.length
  some : more ≠ [] → more.getLast? = some (rowAt stmt'.columns (stmt'.bufferRowIndex - 1))
  none : more = [] → stmt'.bufferRowIndex = 0 ∨ SamePlace stmt stmt'

theorem getLast?_slice {columns : List FetchColumn} {index n : Nat} (hn : 0 < n) :
    (slice columns index n).getLast? = some (rowAt columns (index + n - 1)) := by
  rw [slice, List.getLast?_map, List.getLast?_range', if_neg (by omega)]
  rfl

theorem Handed.progress {index n : Nat} (h : Handed stmt rows index n stmt' rows') :
    Progress stmt rows (slice stmt'.columns index n) stmt' rows' := by
  refine ⟨h.pending, ?_, fun hsome => ?_, fun hnone => h.idle ?_⟩
  · rw [length_slice]
    exact h.rowCount
  · have hn : 0 < n := by simpa [length_slice] using List.length_pos_of_ne_nil hsome
    rw [h.advanced]
    exact getLast?_slice hn
  · simpa [length_slice] using congrArg List.length hnone

theorem Finished.progress (h : Finished stmt rows stmt' rows') :
    Progress stmt rows [] stmt' rows' :=
  ⟨h.before.trans h.after.symm, h.rowCount, fun hsome => absurd rfl hsome, fun _ => h.same⟩

/-- A call that changes at most the array size makes no progress. -/
theorem progress_resized {size : Nat} :
    Progress stmt rows [] { stmt with fetchArraySize := size } rows :=
  ⟨rfl, rfl, fun hsome => absurd rfl hsome, fun _ => .inr ⟨rfl, rfl, rfl⟩⟩

/-- The step of a call, from the postcondition of its rule. -/
theorem OciCursor.progress_of_spec {α : Type} {m : Attempt DpiError (Fetching τ) α}
    {Q : α → FetchState → List (List DpiData) → Prop} {E : DpiError → Fetching τ → Prop}
    {w w' : Fetching τ} {a : α}
    (h : Spec (C.At w.stmt (C.rows w.oci) (C.width w.oci)) m
      (fun a w' => ∃ stmt' rows', Executed stmt' rows' (C.width w.oci) ∧ Q a stmt' rows' ∧
        C.At stmt' rows' (C.width w.oci) w') E) (hrun : Returns m w a w') :
    C.Open w' ∧ Q a w'.stmt (C.rows w'.oci) := by
  obtain ⟨stmt', rows', hexec, hQ, hstmt, hrows, hwidth⟩ :=
    h.returns _ _ _ (C.at_self w) hrun
  subst hstmt hrows
  rw [← hwidth] at hexec
  exact ⟨hexec, hQ⟩

theorem OciCursor.progress_of_quiet {α : Type} {m : Attempt DpiError (Fetching τ) α}
    {E : DpiError → Fetching τ → Prop} {w w' : Fetching τ} {a : α} (hopen : C.Open w)
    (h : Spec (C.At w.stmt (C.rows w.oci) (C.width w.oci)) m
      (fun _ => C.At w.stmt (C.rows w.oci) (C.width w.oci)) E) (hrun : Returns m w a w') :
    C.Open w' ∧ Progress w.stmt (C.rows w.oci) [] w'.stmt (C.rows w'.oci) := by
  refine C.progress_of_spec (Q := fun _ => Progress w.stmt (C.rows w.oci) [])
    (h.weaken (fun _ w' hat => ?_) fun _ _ h => h) hrun
  exact ⟨w.stmt, C.rows w.oci, hopen, progress_resized, hat⟩

/-- Every call that reads an open query keeps it open and makes progress. -/
theorem Reading.progress {w w' : Fetching τ} {more : List (List DpiData)}
    (h : Reading calls w more w') (hopen : C.Open w) :
    C.Open w' ∧ Progress w.stmt (C.rows w.oci) more w'.stmt (C.rows w'.oci) := by
  cases h with
  | fetch hrun =>
      obtain ⟨hopen', ⟨hnone, -⟩ | ⟨_, hindex, hhanded⟩⟩ :=
        C.progress_of_spec (spec_dpiStmtFetch hopen) hrun
      · cases hnone
      · cases hindex
        exact ⟨hopen', hhanded.progress⟩
  | finished hrun =>
      obtain ⟨hopen', ⟨-, hfinished⟩ | ⟨_, hindex, -⟩⟩ :=
        C.progress_of_spec (spec_dpiStmtFetch hopen) hrun
      · exact ⟨hopen', hfinished.progress⟩
      · cases hindex
  | fetchRows hrun =>
      obtain ⟨hopen', ⟨rfl, hfinished⟩ | ⟨hhanded, -⟩⟩ :=
        C.progress_of_spec (spec_dpiStmtFetchRows hopen) hrun
      · exact ⟨hopen', hfinished.progress⟩
      · exact ⟨hopen', hhanded.progress⟩
  | getNumQueryColumns hrun =>
      exact C.progress_of_quiet hopen ((spec_dpiStmtGetNumQueryColumns hopen).weaken
        (fun _ _ h => h.2) fun _ _ h => h) hrun
  | getQueryInfo hrun =>
      exact C.progress_of_quiet hopen ((spec_dpiStmtGetQueryInfo hopen).weaken
        (fun _ _ h => h.2) fun _ _ h => h) hrun
  | getQueryValue hrun =>
      exact C.progress_of_quiet hopen (spec_dpiStmtGetQueryValue.weaken
        (fun _ _ h => h.2) fun _ _ h => h) hrun
  | getRowCount hrun =>
      exact C.progress_of_quiet hopen (spec_dpiStmtGetRowCount.weaken
        (fun _ _ h => h.2) fun _ _ h => h) hrun
  | setFetchArraySize hrun =>
      refine C.progress_of_spec (Q := fun _ => Progress w.stmt (C.rows w.oci) [])
        (spec_dpiStmtSetFetchArraySize.weaken ?_ fun _ _ h => h) hrun
      rintro _ w' ⟨hroomy, hat⟩
      refine ⟨{ w.stmt with fetchArraySize := effectiveArraySize _ }, _, ?_, progress_resized, hat⟩
      exact ⟨⟨effectiveArraySize_pos _, hroomy⟩, hopen.described, hopen.wide, hopen.width_pos⟩

/-- What a value is read from: nothing, the last row that was handed over, or as long as none was
what it was read from at the start. -/
inductive LastShown (stmt₀ stmt : FetchState) (delivered : List (List DpiData)) : Prop
  | nothing (h : stmt.bufferRowIndex = 0)
  | row (h : delivered.getLast? = some (rowAt stmt.columns (stmt.bufferRowIndex - 1)))
  | before (h : delivered = []) (hsame : SamePlace stmt₀ stmt)

theorem LastShown.same {stmt₀ : FetchState} {delivered : List (List DpiData)}
    (h : LastShown stmt₀ stmt delivered) (hsame : SamePlace stmt stmt') :
    LastShown stmt₀ stmt' delivered := by
  cases h with
  | nothing h => exact .nothing (hsame.index.trans h)
  | row h =>
      refine .row ?_
      rw [hsame.columns, hsame.index]
      exact h
  | before h hsame₀ => exact .before h (hsame₀.trans hsame)

theorem Progress.lastShown {stmt₀ : FetchState} {more delivered : List (List DpiData)}
    (h : Progress stmt rows more stmt' rows') (hlast : LastShown stmt₀ stmt delivered) :
    LastShown stmt₀ stmt' (delivered ++ more) := by
  by_cases hmore : more = []
  · subst hmore
    rw [List.append_nil]
    rcases h.none rfl with hzero | hsame
    · exact .nothing hzero
    · exact hlast.same hsame
  · refine .row ?_
    rw [List.getLast?_append_of_ne_nil _ hmore]
    exact h.some hmore

/-- Over a run the rows that are handed over are the next ones, each once and in order. -/
theorem Reads.progress {w w' : Fetching τ} {delivered : List (List DpiData)}
    (h : Reads calls w delivered w') (hopen : C.Open w) :
    C.Open w' ∧ w'.stmt.rowCount = w.stmt.rowCount + delivered.length ∧
      pendingRows w.stmt (C.rows w.oci) = delivered ++ pendingRows w'.stmt (C.rows w'.oci) ∧
      LastShown w.stmt w'.stmt delivered := by
  induction h with
  | start => exact ⟨hopen, rfl, rfl, .before rfl .refl⟩
  | call h hlast ih =>
      obtain ⟨hopen', hcount, hpending, hshown⟩ := ih
      obtain ⟨hopen'', hprogress⟩ := hlast.progress hopen'
      refine ⟨hopen'', ?_, ?_, hprogress.lastShown hshown⟩
      · rw [hprogress.rowCount, hcount, List.length_append, Nat.add_assoc]
      · rw [hpending, hprogress.pending, List.append_assoc]

/-- A row that is asked for is there as long as not all have been handed over. -/
theorem Reads.fetch {w w₁ w₂ : Fetching τ} {delivered : List (List DpiData)} {found : Option Nat}
    (h : Reads calls w delivered w₁) (hopen : C.Open w)
    (hrun : Returns (dpiStmtFetch calls) w₁ found w₂) :
    found = none ↔ delivered = pendingRows w.stmt (C.rows w.oci) := by
  obtain ⟨hopen₁, -, hpending, -⟩ := h.progress hopen
  rw [hpending, List.self_eq_append_right]
  obtain ⟨-, ⟨rfl, hfinished⟩ | ⟨index, rfl, hhanded⟩⟩ :=
    C.progress_of_spec (spec_dpiStmtFetch hopen₁) hrun
  · simp [hfinished.before]
  · constructor
    · intro hnone
      cases hnone
    · intro hall
      have hlength := congrArg List.length hhanded.pending
      rw [hall, List.length_append, length_slice, List.length_nil] at hlength
      omega

theorem Reads.fetchRows {w w₁ w₂ : Fetching τ} {delivered : List (List DpiData)} {maxRows : Nat}
    {r : FetchedRows} (h : Reads calls w delivered w₁) (hopen : C.Open w)
    (hrun : Returns (dpiStmtFetchRows calls maxRows) w₁ r w₂) (hmore : r.moreRows = false) :
    delivered ++ slice w₂.stmt.columns r.bufferRowIndex r.numRowsFetched =
      pendingRows w.stmt (C.rows w.oci) := by
  obtain ⟨hopen₁, -, hpending, -⟩ := h.progress hopen
  obtain ⟨-, ⟨rfl, hfinished⟩ | ⟨hhanded, hlast⟩⟩ :=
    C.progress_of_spec (spec_dpiStmtFetchRows hopen₁) hrun
  · rw [hpending, hfinished.before]
    rfl
  · rw [hpending, hhanded.pending, hlast hmore, List.append_nil]

/-- A query that starts over with the rows of its result: its columns are those that it had, or
new ones. -/
def OciCursor.Started (C : OciCursor calls) (stmt : FetchState) (w : Fetching τ) : Prop :=
  ∃ columns, (columns = stmt.columns ∨ ∀ column ∈ columns, column.var = none) ∧
    columns.length = C.width w.oci ∧
    w.stmt = FetchState.startFetch { stmt with rowCount := 0, columns := columns }

theorem spec_anyRows {α : Type} (m : Attempt DpiError τ α) :
    Spec (fun w : Fetching τ => w.stmt = stmt) (onOci m) (fun _ w => w.stmt = stmt)
      (fun _ _ => True) :=
  spec_zoom fun _ hw => ⟨fun _ _ _ _ _ => hw, fun _ _ _ _ _ => trivial⟩

theorem spec_finishExecute (hquery : stmt.isQuery = true) :
    Spec (fun w => w.stmt = stmt) (finishExecute calls) (fun _ => C.Started stmt)
      (fun _ _ => True) := by
  refine spec_bind (spec_anyRows _) fun _ => ?_
  refine spec_bind (Q := fun w w' => w.stmt = stmt ∧ ∃ rows width, C.At stmt rows width w')
    (spec_get fun w hw => ⟨hw, _, _, hw, rfl, rfl⟩) fun w => spec_fact fun hw => ?_
  rw [hw]
  refine spec_exists fun rows => spec_exists fun width =>
    spec_whenever (fun _ => ?_) fun hother => absurd hquery hother
  refine spec_bind spec_onStmt fun _ => spec_createQueryVars.weaken ?_ fun _ _ _ => trivial
  rintro _ w' ⟨columns, hlength, hcolumns, hstmt, -, hwidth⟩
  exact ⟨columns, hcolumns, hlength.trans hwidth.symm, hstmt⟩

theorem spec_dpiStmtExecuteInternal (hquery : stmt.isQuery = true)
    {refused : DpiError → Attempt DpiError (Fetching τ) Unit}
    (hrefused : ∀ e, Spec (fun w => w.stmt = stmt) (refused e) (fun _ => C.Started stmt)
      (fun _ _ => True)) :
    Spec (fun w => w.stmt = stmt) (dpiStmtExecuteInternal calls refused)
      (fun _ => C.Started stmt) (fun _ _ => True) := by
  have hexecute : Spec (fun w : Fetching τ => w.stmt = stmt) (onOci calls.stmtExecute)
      (fun _ w => w.stmt = stmt) (fun _ w => w.stmt = stmt) :=
    spec_zoom fun _ hw => ⟨fun _ _ _ _ _ => hw, fun _ _ _ _ _ => hw⟩
  refine spec_bind (spec_anyRows _) fun _ => ?_
  exact spec_handled hexecute (fun _ => spec_finishExecute hquery) hrefused

/-- A statement that is prepared once more has no columns when it is executed. -/
theorem spec_dpiStmtReExecute (hquery : stmt.isQuery = true) :
    Spec (fun w => w.stmt = stmt) (dpiStmtReExecute calls) (fun _ => C.Started stmt)
      (fun _ _ => True) := by
  have hcleared : stmt.clearQueryVars.isQuery = true := hquery
  have hagain : Spec (fun w => w.stmt = stmt.clearQueryVars) (dpiStmtExecuteInternal calls throw)
      (fun _ => C.Started stmt.clearQueryVars) (fun _ _ => True) :=
    spec_dpiStmtExecuteInternal hcleared fun _ => spec_throw fun _ _ => trivial
  refine spec_bind (spec_anyRows _) fun _ => ?_
  refine spec_bind (Q := fun _ w => w.stmt = stmt.clearQueryVars)
    (spec_modify fun w hw => congrArg FetchState.clearQueryVars hw) fun _ => ?_
  refine spec_bind (spec_anyRows _) fun _ => hagain.weaken ?_ fun _ _ h => h
  rintro _ w ⟨columns, hcolumns, hlength, hstmt⟩
  refine ⟨columns, .inr ?_, hlength, hstmt⟩
  rcases hcolumns with rfl | hnone
  · intro column hcolumn
    cases hcolumn
  · exact hnone

theorem spec_executionRefused (hquery : stmt.isQuery = true) (e : DpiError) :
    Spec (fun w => w.stmt = stmt) (executionRefused calls e) (fun _ => C.Started stmt)
      (fun _ _ => True) := by
  refine spec_bind (Q := fun _ w => w.stmt = stmt) (spec_get fun _ hw => hw) fun w => ?_
  exact spec_ite (fun _ => spec_dpiStmtReExecute hquery) fun _ => spec_throw fun _ _ => trivial

/-- A query that is executed starts over, whether it had to be prepared once more or not. -/
theorem spec_dpiStmtExecute (hquery : stmt.isQuery = true) :
    Spec (fun w => w.stmt = stmt) (dpiStmtExecute calls) (fun _ => C.Started stmt)
      (fun _ _ => True) := by
  have hexecute : Spec (fun w => w.stmt = stmt)
      (dpiStmtExecuteInternal calls (executionRefused calls)) (fun _ => C.Started stmt)
      (fun _ _ => True) :=
    spec_dpiStmtExecuteInternal hquery (spec_executionRefused hquery)
  refine spec_bind (spec_anyRows _) fun _ => spec_bind hexecute fun _ => ?_
  exact spec_bind (Q := fun _ => C.Started stmt) (spec_get fun _ hw => hw) fun _ =>
    spec_pure fun _ hw => hw

theorem OciCursor.Started.isOpen {w : Fetching τ} (h : C.Started stmt w) (hspace : Spacious stmt)
    (hwidth : 0 < C.width w.oci) : C.Open w := by
  obtain ⟨columns, hcolumns, hlength, hstmt⟩ := h
  rw [OciCursor.Open, hstmt]
  exact ⟨⟨hspace.size_pos, hspace.roomy.of_described hcolumns⟩, hlength, C.wide _, hwidth⟩

theorem OciCursor.Started.rowCount {w : Fetching τ} (h : C.Started stmt w) :
    w.stmt.rowCount = 0 := by
  obtain ⟨columns, -, -, hstmt⟩ := h
  rw [hstmt]
  rfl

/-- The slots of the buffers that lie beyond the array size come before the rows of the result. -/
theorem OciCursor.Started.pending {w : Fetching τ} (h : C.Started stmt w) :
    pendingRows w.stmt (C.rows w.oci) = slice w.stmt.columns stmt.fetchArraySize
      (stmt.bufferRowCount - stmt.fetchArraySize) ++ C.rows w.oci := by
  obtain ⟨columns, -, -, hstmt⟩ := h
  rw [hstmt]
  rfl

theorem OciCursor.Started.pending_inBounds {w : Fetching τ} (h : C.Started stmt w)
    (hbuffered : stmt.bufferRowCount ≤ stmt.fetchArraySize) :
    pendingRows w.stmt (C.rows w.oci) = C.rows w.oci := by
  rw [h.pending, Nat.sub_eq_zero_of_le hbuffered]
  rfl

/-- A result with `n` columns: the rows to come, and those in the define buffers. -/
structure TableCursor (n : Nat) where
  rows : List (Fin n → DpiData)
  block : List (Fin n → DpiData)

/-- The calls of a query whose result is a table. -/
def tableCalls {n : Nat} (infos : Fin n → DpiQueryInfo) (table : List (Fin n → DpiData)) :
    QueryCalls (TableCursor n) where
  check := pure ()
  beforeExecute := pure ()
  stmtExecute := modify fun _ => ⟨table, []⟩
  afterExecute := pure ()
  prepareAgain := pure ()
  bindAgain := pure ()
  affectedRows := pure 0
  paramCount := pure n
  getQueryInfo pos :=
    if h : pos - 1 < n then pure (infos ⟨pos - 1, h⟩) else throw (.queryPositionInvalid pos)
  define _ _ := pure false
  extendedPreFetch _ := pure ()
  stmtFetch2 size := do
    let s ← get
    modify fun s => ⟨s.rows.drop size, s.rows.take size⟩
    return decide (s.rows.length < size)
  rowsFetched := do
    let s ← get
    return s.block.length
  getValue i j := do
    let s ← get
    if h : i < n then return (s.block[j]?.map fun row => row ⟨i, h⟩).getD .zero
    else throw .unsupported

section Table

variable {n : Nat} (infos : Fin n → DpiQueryInfo) (table : List (Fin n → DpiData))

theorem leaves_tableInfo (pos : Nat) : Leaves id ((tableCalls infos table).getQueryInfo pos) := by
  intro s
  by_cases h : pos - 1 < n <;> simp [tableCalls, h] <;> rfl

theorem leaves_tableValue (i j : Nat) : Leaves id ((tableCalls infos table).getValue i j) := by
  intro s
  by_cases h : i < n <;> simp [tableCalls, h] <;> rfl

variable {infos table}

theorem tableFetch_split {size : Nat} {s s' : TableCursor n} {noData : Bool}
    (h : Returns ((tableCalls infos table).stmtFetch2 size) s noData s') :
    s.rows = s'.block ++ s'.rows ∧ s'.block.length ≤ size ∧ (noData = true → s'.rows = []) ∧
      (noData = false → 0 < size → s'.block ≠ []) := by
  cases h
  refine ⟨(List.take_append_drop _ _).symm, ?_, fun hlast => ?_, fun hmore hsize => ?_⟩
  · rw [List.length_take]
    exact Nat.min_le_left _ _
  · exact List.drop_of_length_le (Nat.le_of_lt (of_decide_eq_true hlast))
  · have hlength := of_decide_eq_false hmore
    refine List.ne_nil_of_length_pos ?_
    rw [List.length_take]
    omega

theorem tableFetch_rows {size : Nat} {s s' : TableCursor n} {noData : Bool}
    (h : Returns ((tableCalls infos table).stmtFetch2 size) s noData s') :
    s.rows.map List.ofFn = s'.block.map List.ofFn ++ s'.rows.map List.ofFn ∧
      (s'.block.map List.ofFn).length ≤ size ∧ (noData = true → s'.rows.map List.ofFn = []) ∧
        (noData = false → 0 < size → s'.block.map List.ofFn ≠ []) := by
  obtain ⟨hsplit, hfits, hlast, hsome⟩ := tableFetch_split h
  refine ⟨by rw [hsplit, List.map_append], by rwa [List.length_map], fun hdone => ?_,
    fun hmore hsize hempty => hsome hmore hsize (List.map_eq_nil_iff.mp hempty)⟩
  rw [hlast hdone]
  rfl

theorem tableRows_counted {k : Nat} {s s' : TableCursor n}
    (h : Returns (tableCalls infos table).rowsFetched s k s') :
    k = (s.block.map List.ofFn).length := by
  cases h
  exact (List.length_map _).symm

theorem tableValue_valued {i j : Nat} {s s' : TableCursor n} {data : DpiData}
    (h : Returns ((tableCalls infos table).getValue i j) s data s') (row : List DpiData)
    (hrow : (s.block.map List.ofFn)[j]? = some row) : row[i]? = some data := by
  rw [List.getElem?_map, Option.map_eq_some_iff] at hrow
  obtain ⟨cells, hcells, rfl⟩ := hrow
  by_cases hi : i < n
  · have hdata : data = cells ⟨i, hi⟩ := by
      simp only [tableCalls, hi] at h
      cases h
      rw [hcells]
      rfl
    rw [hdata, List.getElem?_eq_getElem (by simpa using hi), List.getElem_ofFn]
  · simp only [tableCalls, hi] at h
    cases h

theorem tableRows_wide (s : TableCursor n) (row : List DpiData)
    (hrow : row ∈ s.rows.map List.ofFn) : row.length = n := by
  obtain ⟨cells, -, rfl⟩ := List.mem_map.mp hrow
  exact List.length_ofFn

end Table

/-- A table is a cursor. -/
def tableCursor {n : Nat} (infos : Fin n → DpiQueryInfo) (table : List (Fin n → DpiData)) :
    OciCursor (tableCalls infos table) where
  rows s := s.rows.map List.ofFn
  block s := s.block.map List.ofFn
  width _ := n
  check := ⟨fun _ => rfl, fun _ => rfl⟩
  affectedRows := ⟨fun _ => rfl, fun _ => rfl⟩
  paramCount := ⟨fun _ => rfl, fun _ => rfl⟩
  getQueryInfo pos := ⟨(leaves_tableInfo infos table pos).view _, fun _ => rfl⟩
  define _ _ := ⟨fun _ => rfl, fun _ => rfl⟩
  extendedPreFetch _ := ⟨fun _ => rfl, fun _ => rfl⟩
  stmtFetch2 _ _ := rfl
  rowsFetched := ⟨fun _ => rfl, fun _ => rfl, fun _ => rfl⟩
  getValue i j := ⟨(leaves_tableValue infos table i j).view _, fun _ => rfl,
    (leaves_tableValue infos table i j).view _⟩
  fetched _ _ _ _ hrun := tableFetch_rows hrun
  described _ _ _ hrun := (returns_pure.mp hrun).1
  counted _ _ _ hrun := tableRows_counted hrun
  valued _ _ _ _ _ hrun := tableValue_valued hrun
  wide := tableRows_wide

/-- Whatever mixture of calls reads a query, its rows come once and in order, and all of them
before a call says that there are no more. -/
theorem query_rows_delivered {w w₀ w₁ : Fetching τ} {n : Nat} {delivered : List (List DpiData)}
    (hbounds : InBounds w.stmt) (hquery : w.stmt.isQuery = true)
    (hexec : Returns (dpiStmtExecute calls) w n w₀) (hwidth : 0 < C.width w₀.oci)
    (hreads : Reads calls w₀ delivered w₁) :
    delivered <+: C.rows w₀.oci ∧ w₁.stmt.rowCount = delivered.length ∧
      (∀ found w₂, Returns (dpiStmtFetch calls) w₁ found w₂ →
        (found = none ↔ delivered = C.rows w₀.oci)) ∧
      ∀ maxRows r w₂, Returns (dpiStmtFetchRows calls maxRows) w₁ r w₂ → r.moreRows = false →
        delivered ++ slice w₂.stmt.columns r.bufferRowIndex r.numRowsFetched = C.rows w₀.oci := by
  have hstarted : C.Started w.stmt w₀ := (spec_dpiStmtExecute hquery).returns _ _ _ rfl hexec
  have hopen := hstarted.isOpen hbounds.toSpacious hwidth
  obtain ⟨-, hcount, hpending, -⟩ := hreads.progress hopen
  rw [← hstarted.pending_inBounds hbounds.buffered]
  refine ⟨⟨_, hpending.symm⟩, ?_, fun _ _ hrun => hreads.fetch hopen hrun,
    fun _ _ _ hrun hmore => hreads.fetchRows hopen hrun hmore⟩
  rw [hcount, hstarted.rowCount, Nat.zero_add]


/-- The row of a table of two columns, by its number. -/
def numberedRow (j : UInt8) (i : Fin 2) : DpiData := dpiDataSetBytes .zero [j, UInt8.ofNat i]

def numberedInfo (i : Fin 2) : DpiQueryInfo :=
  ⟨[UInt8.ofNat i], ⟨if i = 0 then .varchar else .longVarchar, 1, 0, 0⟩, 1⟩

abbrev numberedTable : QueryCalls (TableCursor 2) :=
  tableCalls numberedInfo ([1, 2, 3, 4, 5].map numberedRow)

def numberedRows (numbers : List UInt8) : List (List DpiData) :=
  numbers.map fun j => List.ofFn (numberedRow j)

/-- A query that is fetched in blocks of two rows. -/
def tableQuery : Fetching (TableCursor 2) :=
  ⟨{ FetchState.prepared true with fetchArraySize := 2 }, ⟨[], []⟩⟩

def tableExecuted : Fetching (TableCursor 2) := after (dpiStmtExecute numberedTable) tableQuery
def tableOne : Fetching (TableCursor 2) := after (dpiStmtFetch numberedTable) tableExecuted
def tableTwo : Fetching (TableCursor 2) := after (dpiStmtFetchRows numberedTable 5) tableOne
def tableThree : Fetching (TableCursor 2) := after (dpiStmtFetch numberedTable) tableTwo

theorem inBounds_tableQuery : InBounds tableQuery.stmt :=
  ⟨⟨Nat.zero_lt_succ 1, fun _ hcolumn => by cases hcolumn⟩, Nat.zero_le _⟩

theorem returns_tableExecuted :
    Returns (dpiStmtExecute numberedTable) tableQuery 2 tableExecuted := rfl

theorem reads_tableTwo : Reads numberedTable tableExecuted (numberedRows [1, 2]) tableTwo := by
  have hfetch : Returns (dpiStmtFetch numberedTable) tableExecuted (some 0) tableOne := rfl
  have hrows : Returns (dpiStmtFetchRows numberedTable 5) tableOne ⟨1, 1, true⟩ tableTwo := rfl
  exact ((Reads.start _).call (.fetch hfetch)).call (.fetchRows hrows)

theorem reads_tableThree :
    Reads numberedTable tableExecuted (numberedRows [1, 2, 3]) tableThree := by
  have hfetch : Returns (dpiStmtFetch numberedTable) tableTwo (some 0) tableThree := rfl
  exact reads_tableTwo.call (.fetch hfetch)

theorem query_rows_delivered_table :
    numberedRows [1, 2, 3] <+: numberedRows [1, 2, 3, 4, 5] ∧ tableThree.stmt.rowCount = 3 ∧
      ∀ found w, Returns (dpiStmtFetch numberedTable) tableThree found w →
        (found = none ↔ numberedRows [1, 2, 3] = numberedRows [1, 2, 3, 4, 5]) := by
  obtain ⟨hrows, hcount, hfetch, -⟩ := query_rows_delivered (C := tableCursor _ _)
    inBounds_tableQuery rfl returns_tableExecuted Nat.two_pos reads_tableThree
  exact ⟨hrows, hcount, hfetch⟩

/-- A value that is read after an execution is in the last row that was handed over since; before
one was, it is in the row that filled the buffers up before the execution. -/
theorem query_value_of_last_row {w w₀ w₁ w₂ : Fetching τ} {n pos : Nat}
    {delivered : List (List DpiData)} {value : DpiNativeTypeNum × DpiData}
    (hbounds : InBounds w.stmt) (hquery : w.stmt.isQuery = true)
    (hexec : Returns (dpiStmtExecute calls) w n w₀) (hwidth : 0 < C.width w₀.oci)
    (hreads : Reads calls w₀ delivered w₁)
    (hrun : Returns (dpiStmtGetQueryValue calls pos) w₁ value w₂) :
    ∃ row, row[pos - 1]? = some value.2 ∧
      (delivered.getLast? = some row ∨ delivered = [] ∧
        w.stmt.bufferRowCount = w.stmt.fetchArraySize ∧
        row = rowAt w.stmt.columns (w.stmt.fetchArraySize - 1)) := by
  have hstarted : C.Started w.stmt w₀ := (spec_dpiStmtExecute hquery).returns _ _ _ rfl hexec
  obtain ⟨-, -, -, hlast⟩ := hreads.progress (hstarted.isOpen hbounds.toSpacious hwidth)
  obtain ⟨⟨column, var, h⟩, -⟩ := spec_dpiStmtGetQueryValue.returns _ _ _ (C.at_self w₁) hrun
  refine ⟨_, h.cell, ?_⟩
  cases hlast with
  | nothing hzero => exact absurd hzero (Nat.ne_of_gt h.index_pos)
  | row hrow => exact .inl hrow
  | before hnone hsame =>
      obtain ⟨columns, hcolumns, -, hstmt⟩ := hstarted
      rw [hstmt] at hsame
      have hindex : w₁.stmt.bufferRowIndex = w.stmt.fetchArraySize := hsame.index
      have hcount : w₁.stmt.bufferRowCount = w.stmt.bufferRowCount := hsame.count
      have hfull := h.index_le
      have hbuffered := hbounds.buffered
      refine .inr ⟨hnone, by omega, ?_⟩
      rw [hsame.columns, hindex]
      rcases hcolumns with rfl | hfresh
      · rfl
      · have hcolumn := List.mem_of_getElem? h.found
        rw [hsame.columns] at hcolumn
        have hvar := h.defined
        rw [hfresh _ hcolumn] at hvar
        cases hvar

def tableAgain : Fetching (TableCursor 2) := after (dpiStmtExecute numberedTable) tableTwo

theorem inBounds_tableTwo : InBounds tableTwo.stmt := by
  refine ⟨⟨Nat.zero_lt_succ 1, fun column hcolumn var hvar => ?_⟩, Nat.le_refl 2⟩
  rcases hcolumn with _ | ⟨_, _ | ⟨_, hnone⟩⟩
  · cases hvar
    exact Nat.le_refl 2
  · cases hvar
    exact Nat.le_refl 2
  · cases hnone

theorem query_value_of_last_row_table :
    (∃ row, row[1]? = some (numberedRow 3 1) ∧ (numberedRows [1, 2, 3]).getLast? = some row) ∧
      ∃ row, row[1]? = some (numberedRow 2 1) ∧ row = rowAt tableTwo.stmt.columns 1 := by
  constructor
  · have hvalue : Returns (dpiStmtGetQueryValue numberedTable 2) tableThree
      (.bytes, numberedRow 3 1) tableThree := rfl
    obtain ⟨row, hcell, hlast | ⟨hnone, -⟩⟩ := query_value_of_last_row (C := tableCursor _ _)
      inBounds_tableQuery rfl returns_tableExecuted Nat.two_pos reads_tableThree hvalue
    · exact ⟨row, hcell, hlast⟩
    · cases hnone
  · have hagain : Returns (dpiStmtExecute numberedTable) tableTwo 2 tableAgain := rfl
    have hvalue : Returns (dpiStmtGetQueryValue numberedTable 2) tableAgain
      (.bytes, numberedRow 2 1) tableAgain := rfl
    obtain ⟨row, hcell, hlast | ⟨-, -, hrow⟩⟩ := query_value_of_last_row (C := tableCursor _ _)
      inBounds_tableTwo rfl hagain Nat.two_pos (.start _) hvalue
    · cases hlast
    · exact ⟨row, hcell, hrow⟩

/-- A query that is executed again hands over, before the rows of its new result, the slots of
its buffers that lie beyond the array size. -/
theorem rows_after_execute {w w₀ w₁ : Fetching τ} {n : Nat} {delivered : List (List DpiData)}
    (hspace : Spacious w.stmt) (hquery : w.stmt.isQuery = true)
    (hexec : Returns (dpiStmtExecute calls) w n w₀) (hwidth : 0 < C.width w₀.oci)
    (hreads : Reads calls w₀ delivered w₁) :
    ∃ stale, stale = slice w₀.stmt.columns w.stmt.fetchArraySize
        (w.stmt.bufferRowCount - w.stmt.fetchArraySize) ∧
      (w₀.stmt.columns = w.stmt.columns ∨ ∀ column ∈ w₀.stmt.columns, column.var = none) ∧
      delivered <+: stale ++ C.rows w₀.oci ∧
      (∀ found w₂, Returns (dpiStmtFetch calls) w₁ found w₂ →
        (found = none ↔ delivered = stale ++ C.rows w₀.oci)) ∧
      (∀ maxRows r w₂, Returns (dpiStmtFetchRows calls maxRows) w₁ r w₂ → r.moreRows = false →
        delivered ++ slice w₂.stmt.columns r.bufferRowIndex r.numRowsFetched =
          stale ++ C.rows w₀.oci) ∧
      (stale = [] ↔ w.stmt.bufferRowCount ≤ w.stmt.fetchArraySize) := by
  have hstarted : C.Started w.stmt w₀ := (spec_dpiStmtExecute hquery).returns _ _ _ rfl hexec
  have hopen := hstarted.isOpen hspace hwidth
  obtain ⟨-, -, hpending, -⟩ := hreads.progress hopen
  refine ⟨_, rfl, ?_, ?_⟩
  · obtain ⟨columns, hcolumns, -, hstmt⟩ := hstarted
    rw [hstmt]
    exact hcolumns
  · rw [← hstarted.pending]
    refine ⟨⟨_, hpending.symm⟩, fun _ _ hrun => hreads.fetch hopen hrun,
      fun _ _ _ hrun hmore => hreads.fetchRows hopen hrun hmore, ?_⟩
    rw [← List.length_eq_zero_iff, length_slice]
    exact Nat.sub_eq_zero_iff_le

/-- The statement of the table, after its array size was set to 1 while it held two rows. -/
def tableLowered : Fetching (TableCursor 2) :=
  after (dpiStmtSetFetchArraySize numberedTable 1) tableTwo

def tableStarted : Fetching (TableCursor 2) := after (dpiStmtExecute numberedTable) tableLowered
def tableStale : Fetching (TableCursor 2) := after (dpiStmtFetch numberedTable) tableStarted

theorem rows_after_execute_table : ∃ stale, stale ≠ [] ∧
    numberedRows [2] <+: stale ++ numberedRows [1, 2, 3, 4, 5] := by
  have hlowered : Returns (dpiStmtSetFetchArraySize numberedTable 1) tableTwo () tableLowered := rfl
  have hspace : Spacious tableLowered.stmt := ⟨Nat.one_pos, (spec_dpiStmtSetFetchArraySize.returns
    _ _ _ ((tableCursor _ _).at_self tableTwo) hlowered).1⟩
  have hexec : Returns (dpiStmtExecute numberedTable) tableLowered 2 tableStarted := rfl
  have hfetch : Returns (dpiStmtFetch numberedTable) tableStarted (some 1) tableStale := rfl
  obtain ⟨stale, -, -, hrows, -, -, hiff⟩ := rows_after_execute (C := tableCursor _ _) hspace rfl
    hexec Nat.two_pos ((Reads.start _).call (.fetch hfetch))
  exact ⟨stale, fun hnone => absurd (hiff.mp hnone) (by decide), hrows⟩

end IdrisOracle
