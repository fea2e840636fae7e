import Mathlib.Data.List.Basic
import IdrisOracle.FetchWindow

/-! What a fetch of a block of rows leaves in the buffers of a statement. -/

namespace IdrisOracle

open Fallible

variable {τ α : Type}

/-- A cursor behind the calls of a statement: the rows to come and those in the define buffers. -/
structure OciCursor (calls : QueryCalls τ) where
  rows : τ → List (List DpiData)
  block : τ → List (List DpiData)
  width : τ → Nat
  check : Leaves rows calls.check ∧ Leaves width calls.check
  affectedRows : Leaves rows calls.affectedRows ∧ Leaves width calls.affectedRows
  paramCount : Leaves rows calls.paramCount ∧ Leaves width calls.paramCount
  getQueryInfo : ∀ pos, Leaves rows (calls.getQueryInfo pos) ∧ Leaves width (calls.getQueryInfo pos)
  define : ∀ i size, Leaves rows (calls.define i size) ∧ Leaves width (calls.define i size)
  extendedPreFetch : ∀ i,
    Leaves rows (calls.extendedPreFetch i) ∧ Leaves width (calls.extendedPreFetch i)
  stmtFetch2 : ∀ n, Leaves width (calls.stmtFetch2 n)
  rowsFetched : Leaves rows calls.rowsFetched ∧ Leaves width calls.rowsFetched ∧
    Leaves block calls.rowsFetched
  getValue : ∀ i j, Leaves rows (calls.getValue i j) ∧ Leaves width (calls.getValue i j) ∧
    Leaves block (calls.getValue i j)
  fetched : ∀ n s noData s', Returns (calls.stmtFetch2 n) s noData s' →
    rows s = block s' ++ rows s' ∧ (block s').length ≤ n ∧
      (noData = true → rows s' = []) ∧ (noData = false → 0 < n → block s' ≠ [])
  described : ∀ s n s', Returns calls.paramCount s n s' → n = width s
  counted : ∀ s n s', Returns calls.rowsFetched s n s' → n = (block s).length
  valued : ∀ i j s data s', Returns (calls.getValue i j) s data s' →
    ∀ row, (block s)[j]? = some row → row[i]? = some data
  wide : ∀ s, ∀ row ∈ rows s, row.length = width s

/-- What a column shows of a row in the buffers, which is a null as long as it has no variable. -/
def FetchColumn.at (column : FetchColumn) (j : Nat) : DpiData :=
  (column.var.map fun var => var.externalData j).getD (dpiDataSetNull .zero)

/-- A row in the buffers. -/
def rowAt (columns : List FetchColumn) (j : Nat) : List DpiData := columns.map (·.at j)

/-- Every variable of a column has room for a block of rows. -/
def Roomy (size : Nat) (columns : List FetchColumn) : Prop :=
  ∀ column ∈ columns, ∀ var, column.var = some var → size ≤ var.maxArraySize

/-- Every column has a variable with room for a block of rows. -/
def Ready (size : Nat) (columns : List FetchColumn) : Prop :=
  ∀ column ∈ columns, ∃ var, column.var = some var ∧ size ≤ var.maxArraySize

theorem Ready.roomy {size : Nat} {columns : List FetchColumn} (h : Ready size columns) :
    Roomy size columns := by
  intro column hcolumn var hvar
  obtain ⟨var', hvar', hsize⟩ := h column hcolumn
  rw [hvar'] at hvar
  cases hvar
  exact hsize

theorem roomy_of_no_var {size : Nat} {columns : List FetchColumn}
    (h : ∀ column ∈ columns, column.var = none) : Roomy size columns := by
  intro column hcolumn var hvar
  rw [h column hcolumn] at hvar
  cases hvar

/-- The variables of a statement have room for the blocks that it fetches. -/
structure Spacious (stmt : FetchState) : Prop where
  size_pos : 0 < stmt.fetchArraySize
  roomy : Roomy stmt.fetchArraySize stmt.columns

/-- The block in the buffers of a statement is no larger than those that it fetches. -/
structure InBounds (stmt : FetchState) : Prop extends Spacious stmt where
  buffered : stmt.bufferRowCount ≤ stmt.fetchArraySize

section Calls

variable {calls : QueryCalls τ} (C : OciCursor calls)
  {stmt : FetchState} {rows : List (List DpiData)} {width : Nat}

/-- The state of the statement, with the rows to come and their width. -/
def OciCursor.At (stmt : FetchState) (rows : List (List DpiData)) (width : Nat)
    (w : Fetching τ) : Prop :=
  w.stmt = stmt ∧ C.rows w.oci = rows ∧ C.width w.oci = width

variable {C}

theorem spec_quiet {m : Attempt DpiError τ α} (hrows : Leaves C.rows m)
    (hwidth : Leaves C.width m) :
    Spec (C.At stmt rows width) (onOci m) (fun _ => C.At stmt rows width)
      (fun _ => C.At stmt rows width) := by
  refine spec_zoom fun w hw => ⟨?_, ?_⟩
  · rintro _ a s' rfl hrun
    exact ⟨hw.1, (hrows.returns hrun).trans hw.2.1, (hwidth.returns hrun).trans hw.2.2⟩
  · rintro _ e s' rfl hrun
    exact ⟨hw.1, (hrows.fails hrun).trans hw.2.1, (hwidth.fails hrun).trans hw.2.2⟩

theorem spec_onStmt {f : FetchState → FetchState} {E : DpiError → Fetching τ → Prop} :
    Spec (C.At stmt rows width) (onStmt f) (fun _ => C.At (f stmt) rows width) E :=
  spec_modify fun _ hw => ⟨congrArg f hw.1, hw.2⟩

/-- The state is read where it is known. -/
theorem spec_read {f : Fetching τ → Attempt DpiError (Fetching τ) α}
    {Q : α → Fetching τ → Prop} {E : DpiError → Fetching τ → Prop}
    (h : ∀ w, w.stmt = stmt → Spec (C.At stmt rows width) (f w) Q E) :
    Spec (C.At stmt rows width) (get >>= f) Q E := by
  refine spec_bind (Q := fun w w' => w = w' ∧ C.At stmt rows width w')
    (spec_get fun w hw => ⟨rfl, hw⟩) fun w => ⟨?_, ?_⟩
  · rintro _ a s' ⟨rfl, hw⟩ hrun
    exact (h w hw.1).returns _ _ _ hw hrun
  · rintro _ e s' ⟨rfl, hw⟩ hrun
    exact (h w hw.1).fails _ _ _ hw hrun

/-- A description finds the columns, or leaves none. -/
theorem spec_describeColumns (n : Nat) :
    Spec (C.At stmt rows width) (describeColumns calls n)
      (fun _ w => ∃ columns, columns.length = n ∧ (∀ column ∈ columns, column.var = none) ∧
        C.At { stmt with columns := columns } rows width w)
      (fun _ => C.At stmt.clearQueryVars rows width) := by
  let I : Nat → Fetching τ → Prop := fun k w =>
    ∃ columns, columns.length = k ∧ (∀ column ∈ columns, column.var = none) ∧
      C.At { stmt with columns := columns } rows width w
  have hstep : ∀ i < n, Spec (I i)
      (onOci (calls.getQueryInfo (i + 1)) >>= fun info => onStmt (FetchState.describe info))
      (fun _ => I (i + 1)) (fun _ w => C.At stmt.clearQueryVars rows width
        { w with stmt := w.stmt.clearQueryVars }) := by
    rintro i -
    refine spec_exists fun columns => spec_fact fun hlength => spec_fact fun hnone => ?_
    refine spec_bind ((spec_quiet (C.getQueryInfo _).1 (C.getQueryInfo _).2).weaken
      (fun _ _ h => h) ?_) fun info => spec_onStmt.weaken ?_ fun _ _ h => h
    · rintro _ w ⟨hstmt, hrest⟩
      exact ⟨by simp [hstmt, FetchState.clearQueryVars], hrest⟩
    · intro _ w hw
      refine ⟨columns ++ [(⟨info, none⟩ : FetchColumn)], by simp [hlength], ?_, hw⟩
      intro column hcolumn
      rcases List.mem_append.mp hcolumn with hmem | hmem
      · exact hnone _ hmem
      · rw [List.mem_singleton.mp hmem]
  refine spec_bind spec_onStmt fun _ => spec_onFailure ?_
  refine (spec_forM_range n hstep).strengthen fun w hw => ?_
  exact ⟨[], rfl, by simp, hw⟩

theorem spec_paramCount :
    Spec (C.At stmt rows width) (onOci calls.paramCount)
      (fun n w => n = width ∧ C.At stmt rows width w) (fun _ => C.At stmt rows width) := by
  refine spec_zoom fun w hw => ⟨?_, ?_⟩
  · rintro _ n s' rfl hrun
    exact ⟨(C.described _ _ _ hrun).trans hw.2.2, hw.1,
      (C.paramCount.1.returns hrun).trans hw.2.1, (C.paramCount.2.returns hrun).trans hw.2.2⟩
  · rintro _ e s' rfl hrun
    exact ⟨hw.1, (C.paramCount.1.fails hrun).trans hw.2.1,
      (C.paramCount.2.fails hrun).trans hw.2.2⟩

/-- The columns are described, or the ones that are known stay as they are. -/
theorem spec_createQueryVars :
    Spec (C.At stmt rows width) (dpiStmtCreateQueryVars calls)
      (fun _ w => ∃ columns, columns.length = width ∧
        (columns = stmt.columns ∨ ∀ column ∈ columns, column.var = none) ∧
        C.At { stmt with columns := columns }.startFetch rows width w)
      (fun _ w => ∃ columns, (columns = stmt.columns ∨
          stmt.columns.length ≠ width ∧ columns = []) ∧
        C.At { stmt with columns := columns } rows width w) := by
  refine spec_bind (spec_paramCount.weaken (fun _ _ h => h) fun _ _ h => ⟨_, .inl rfl, h⟩)
    fun n => spec_fact ?_
  rintro rfl
  refine spec_read fun w hw => ?_
  refine spec_bind (Q := fun _ w => ∃ columns, columns.length = n ∧
      (columns = stmt.columns ∨ ∀ column ∈ columns, column.var = none) ∧
      C.At { stmt with columns := columns } rows n w) ?_ fun _ => ?_
  · refine spec_whenever (fun hother => ?_) fun hsame w' hw' => ?_
    · refine (spec_describeColumns n).weaken ?_ ?_
      · rintro _ w ⟨columns, hlength, hnone, h⟩
        exact ⟨columns, hlength, .inr hnone, h⟩
      · intro _ w' h
        rw [hw] at hother
        exact ⟨[], .inr ⟨hother.symm, rfl⟩, h⟩
    · refine ⟨stmt.columns, ?_, .inl rfl, hw'⟩
      rw [← hw]
      exact (not_not.mp hsame).symm
  · refine spec_exists fun columns => spec_fact fun hlength => spec_fact fun hcolumns => ?_
    exact spec_onStmt.weaken (fun _ _ h => ⟨columns, hlength, hcolumns, h⟩) fun _ _ h => h

theorem Roomy.of_described {size : Nat} {columns columns' : List FetchColumn}
    (h : Roomy size columns)
    (hcolumns : columns' = columns ∨ ∀ column ∈ columns', column.var = none) :
    Roomy size columns' := by
  rcases hcolumns with rfl | hnone
  · exact h
  · exact roomy_of_no_var hnone

theorem Roomy.of_cleared {size : Nat} {columns columns' : List FetchColumn} {p : Prop}
    (h : Roomy size columns) (hcolumns : columns' = columns ∨ p ∧ columns' = []) :
    Roomy size columns' := by
  refine h.of_described (hcolumns.imp_right ?_)
  rintro ⟨-, rfl⟩ column hcolumn
  cases hcolumn

/-- The variables of the first columns are there and have room. -/
def ReadyTo (size k : Nat) (columns : List FetchColumn) : Prop :=
  ∀ j < k, ∀ column, columns[j]? = some column →
    ∃ var, column.var = some var ∧ size ≤ var.maxArraySize

theorem ReadyTo.ready {size : Nat} {columns : List FetchColumn}
    (h : ReadyTo size columns.length columns) : Ready size columns := by
  intro column hcolumn
  obtain ⟨j, hj, hget⟩ := List.mem_iff_getElem.mp hcolumn
  exact h j hj column (by rw [List.getElem?_eq_getElem hj, hget])

theorem getElem?_withVar (stmt : FetchState) (i j : Nat) (var : QueryVar) :
    (stmt.withVar i var).columns[j]? = stmt.columns[j]?.map fun column =>
      if i = j then { column with var := some var } else column :=
  List.getElem?_modify _ _ _ _

theorem ReadyTo.succ {size k : Nat} {columns : List FetchColumn} {column : FetchColumn}
    {var : QueryVar} (h : ReadyTo size k columns) (hcolumn : columns[k]? = some column)
    (hvar : column.var = some var) (hsize : size ≤ var.maxArraySize) :
    ReadyTo size (k + 1) columns := by
  intro j hj column' hcolumn'
  by_cases hjk : j = k
  · subst hjk
    rw [hcolumn] at hcolumn'
    cases hcolumn'
    exact ⟨var, hvar, hsize⟩
  · exact h j (by omega) column' hcolumn'

theorem ReadyTo.withVar {size k : Nat} {stmt : FetchState} {var : QueryVar}
    (h : ReadyTo size k stmt.columns) : ReadyTo size k (stmt.withVar k var).columns := by
  intro j hj column hcolumn
  rw [getElem?_withVar, Option.map_eq_some_iff] at hcolumn
  obtain ⟨old, hold, rfl⟩ := hcolumn
  rw [if_neg (by omega)]
  exact h j hj old hold

theorem Roomy.withVar {size k : Nat} {stmt : FetchState} {var : QueryVar}
    (h : Roomy size stmt.columns) (hsize : size ≤ var.maxArraySize) :
    Roomy size (stmt.withVar k var).columns := by
  intro column hcolumn var' hvar'
  obtain ⟨j, hj⟩ := List.mem_iff_getElem?.mp hcolumn
  rw [getElem?_withVar, Option.map_eq_some_iff] at hj
  obtain ⟨old, hold, rfl⟩ := hj
  by_cases hkj : k = j
  · rw [if_pos hkj] at hvar'
    cases hvar'
    exact hsize
  · rw [if_neg hkj] at hvar'
    exact h old (List.mem_of_getElem? hold) var' hvar'

/-- The same columns, each with the same description. -/
def SameInfos (columns columns' : List FetchColumn) : Prop :=
  columns'.map FetchColumn.info = columns.map FetchColumn.info

theorem SameInfos.length {columns columns' : List FetchColumn} (h : SameInfos columns columns') :
    columns'.length = columns.length := by
  simpa using congrArg List.length h

theorem sameInfos_withVar (stmt : FetchState) (i : Nat) (var : QueryVar) :
    SameInfos stmt.columns (stmt.withVar i var).columns := by
  refine List.ext_getElem? fun j => ?_
  rw [List.getElem?_map, List.getElem?_map, getElem?_withVar]
  cases stmt.columns[j]? with
  | none => rfl
  | some column => by_cases hij : i = j <;> simp [hij]

theorem spec_createQueryVar {i size : Nat} {info : DpiQueryInfo} (hsize : 0 < size) :
    Spec (C.At stmt rows width) (createQueryVar calls i info size)
      (fun var w => var.maxArraySize = size ∧ C.At (stmt.withVar i var) rows width w)
      (fun _ => C.At stmt rows width) := by
  unfold createQueryVar
  cases populateTypeInfo info.typeInfo with
  | none => exact spec_throw fun _ h => h
  | some nativeTypeNum =>
      refine spec_bind (Q := fun _ => C.At stmt rows width)
        (spec_whenever (fun hzero => absurd hzero (Nat.ne_of_gt hsize)) fun _ _ h => h) fun _ => ?_
      refine spec_bind (spec_quiet (C.define _ _).1 (C.define _ _).2) fun _ => ?_
      refine spec_bind spec_onStmt fun _ => spec_pure fun w h => ⟨rfl, h⟩

theorem spec_prefetchVar {P : FetchState → Prop} {k size : Nat} {var : QueryVar}
    (hsize : size ≤ var.maxArraySize) :
    Spec (fun w => ∃ stmt, P stmt ∧ C.At stmt rows width w) (prefetchVar calls k size var)
      (fun _ w => ∃ stmt, P stmt ∧ C.At stmt rows width w)
      (fun _ w => ∃ stmt, P stmt ∧ C.At stmt rows width w) := by
  refine spec_exists fun stmt => spec_fact fun hstmt => ?_
  refine spec_bind (Q := fun _ => C.At stmt rows width)
    (spec_whenever (fun h => absurd h (Nat.not_lt.mpr hsize)) fun _ _ h => h) fun _ => ?_
  refine spec_whenever (fun _ => ?_) fun _ w h => ⟨stmt, hstmt, h⟩
  exact (spec_quiet (C.extendedPreFetch k).1 (C.extendedPreFetch k).2).weaken
    (fun _ w h => ⟨stmt, hstmt, h⟩) fun _ w h => ⟨stmt, hstmt, h⟩

/-- What the preparation of the first columns leaves of a statement. -/
structure Prepared (stmt : FetchState) (k : Nat) (stmt' : FetchState) : Prop where
  infos : SameInfos stmt.columns stmt'.columns
  roomy : Roomy stmt.fetchArraySize stmt'.columns
  ready : ReadyTo stmt.fetchArraySize k stmt'.columns
  rest : stmt' = { stmt with columns := stmt'.columns }

theorem Prepared.size {stmt stmt' : FetchState} {k : Nat} (h : Prepared stmt k stmt') :
    stmt'.fetchArraySize = stmt.fetchArraySize := by
  rw [h.rest]

theorem Prepared.withColumns {stmt stmt' : FetchState} {k : Nat} (h : Prepared stmt k stmt')
    (columns : List FetchColumn) :
    { stmt' with columns := columns } = { stmt with columns := columns } := by
  rw [h.rest]

theorem Prepared.unready {stmt stmt' : FetchState} {k : Nat} (h : Prepared stmt k stmt') :
    Prepared stmt 0 stmt' :=
  ⟨h.infos, h.roomy, fun _ hj => absurd hj (Nat.not_lt_zero _), h.rest⟩

theorem spec_beforeFetchVar {k : Nat} (hsize : 0 < stmt.fetchArraySize)
    (hk : k < stmt.columns.length) :
    Spec (fun w => ∃ stmt', Prepared stmt k stmt' ∧ C.At stmt' rows width w)
      (beforeFetchVar calls k)
      (fun _ w => ∃ stmt', Prepared stmt (k + 1) stmt' ∧ C.At stmt' rows width w)
      (fun _ w => ∃ stmt', Prepared stmt 0 stmt' ∧ C.At stmt' rows width w) := by
  refine spec_exists fun stmt' => spec_fact fun hprepared => spec_read fun w hw => ?_
  have hlt : k < stmt'.columns.length := by
    rw [hprepared.infos.length]
    exact hk
  have hcolumn : stmt'.columns[k]? = some stmt'.columns[k] := List.getElem?_eq_getElem hlt
  rw [hw, hcolumn, hprepared.size]
  have hrest : ∀ var : QueryVar, Spec (fun w => stmt.fetchArraySize ≤ var.maxArraySize ∧
        ∃ stmt', Prepared stmt (k + 1) stmt' ∧ C.At stmt' rows width w)
      (prefetchVar calls k stmt.fetchArraySize var)
      (fun _ w => ∃ stmt', Prepared stmt (k + 1) stmt' ∧ C.At stmt' rows width w)
      (fun _ w => ∃ stmt', Prepared stmt 0 stmt' ∧ C.At stmt' rows width w) := fun var =>
    spec_fact fun hvar => (spec_prefetchVar hvar).weaken (fun _ _ h => h) <| by
      rintro _ w ⟨stmt'', h, hat⟩
      exact ⟨stmt'', h.unready, hat⟩
  refine spec_bind ?_ hrest
  cases hvar : stmt'.columns[k].var with
  | none =>
      refine (spec_createQueryVar hsize).weaken ?_ fun _ w h => ⟨stmt', hprepared.unready, h⟩
      rintro var w' ⟨hmax, h⟩
      have hroom : stmt.fetchArraySize ≤ var.maxArraySize := Nat.le_of_eq hmax.symm
      have hnew : (stmt'.withVar k var).columns[k]? =
          some { stmt'.columns[k] with var := some var } := by
        rw [getElem?_withVar, hcolumn, Option.map_some, if_pos rfl]
      exact ⟨hroom, _, ⟨(sameInfos_withVar _ k var).trans hprepared.infos,
        hprepared.roomy.withVar hroom, hprepared.ready.withVar.succ hnew rfl hroom,
        hprepared.withColumns _⟩, h⟩
  | some var =>
      have hvarsize := hprepared.roomy _ (List.getElem_mem hlt) var hvar
      exact spec_pure fun w h => ⟨hvarsize, stmt', ⟨hprepared.infos, hprepared.roomy,
        hprepared.ready.succ hcolumn hvar hvarsize, hprepared.rest⟩, h⟩

/-- Before a fetch every column has a variable, described now or before. -/
theorem spec_beforeFetch (hspace : Spacious stmt) (hmore : stmt.hasRowsToFetch = true) :
    Spec (C.At stmt rows width) (dpiStmtBeforeFetch calls)
      (fun _ w => ∃ columns index, Ready stmt.fetchArraySize columns ∧
        (stmt.columns.length = width → columns.length = width) ∧
        C.At { stmt with columns := columns, bufferRowIndex := index } rows width w)
      (fun _ w => ∃ columns index, Roomy stmt.fetchArraySize columns ∧
        C.At { stmt with columns := columns, bufferRowIndex := index } rows width w) := by
  refine spec_read fun w hw => ?_
  rw [hw]
  refine spec_bind (Q := fun _ w => ∃ columns index, Roomy stmt.fetchArraySize columns ∧
    (stmt.columns.length = width → columns.length = width) ∧
    C.At { stmt with columns := columns, bufferRowIndex := index } rows width w) ?_ fun _ => ?_
  · refine spec_whenever (fun hempty => ?_) fun hne w h => ?_
    · refine spec_createQueryVars.weaken ?_ ?_
      · rintro _ w ⟨columns, hlength, hcolumns, h⟩
        refine ⟨columns, stmt.fetchArraySize, hspace.roomy.of_described hcolumns,
          fun _ => hlength, ?_⟩
        exact ⟨by rw [h.1, FetchState.startFetch, ← hmore], h.2⟩
      · rintro _ w ⟨columns, hcolumns, h⟩
        exact ⟨columns, stmt.bufferRowIndex, hspace.roomy.of_cleared hcolumns, h⟩
    · exact ⟨stmt.columns, stmt.bufferRowIndex, hspace.roomy, id, h⟩
  · refine spec_exists fun columns => spec_exists fun index => spec_fact fun hroomy =>
      spec_fact fun hwidth => spec_read fun w hw => ?_
    rw [hw]
    let stmt₁ : FetchState := { stmt with columns := columns, bufferRowIndex := index }
    let I : Nat → Fetching τ → Prop := fun k w =>
      ∃ stmt', Prepared stmt₁ k stmt' ∧ C.At stmt' rows width w
    have hstep : ∀ k < columns.length, Spec (I k) (beforeFetchVar calls k) (fun _ => I (k + 1))
        (fun _ => I 0) := fun k hk => spec_beforeFetchVar hspace.size_pos hk
    have hloop := spec_forM_range columns.length hstep
    refine (hloop.strengthen fun w h => ⟨stmt₁, ⟨rfl, hroomy, ?_, rfl⟩, h⟩).weaken ?_ ?_
    · exact fun _ hj => absurd hj (Nat.not_lt_zero _)
    · rintro _ w ⟨stmt', h, hat⟩
      refine ⟨stmt'.columns, index, ?_, fun hknown => ?_, hat.1.trans h.rest, hat.2⟩
      · refine ReadyTo.ready ?_
        rw [h.infos.length]
        exact h.ready
      · rw [h.infos.length]
        exact hwidth hknown
    · rintro _ w ⟨stmt', h, hat⟩
      exact ⟨stmt'.columns, index, h.roomy, hat.1.trans h.rest, hat.2⟩

theorem getElem?_filled (stmt : FetchState) (i j k : Nat) (data : DpiData) :
    (stmt.filled i j data).columns[k]? = stmt.columns[k]?.map fun column =>
      if i = k then
        { column with
          var := column.var.map (·.filled column.info.typeInfo.oracleTypeNum j data) }
      else column :=
  List.getElem?_modify _ _ _ _

theorem sameInfos_filled (stmt : FetchState) (i j : Nat) (data : DpiData) :
    SameInfos stmt.columns (stmt.filled i j data).columns := by
  refine List.ext_getElem? fun k => ?_
  rw [List.getElem?_map, List.getElem?_map, getElem?_filled]
  cases stmt.columns[k]? with
  | none => rfl
  | some column => by_cases hik : i = k <;> simp [hik]

theorem Ready.filled {size i j : Nat} {data : DpiData} (h : Ready size stmt.columns) :
    Ready size (stmt.filled i j data).columns := by
  intro column hcolumn
  obtain ⟨k, hk⟩ := List.mem_iff_getElem?.mp hcolumn
  rw [getElem?_filled, Option.map_eq_some_iff] at hk
  obtain ⟨old, hold, rfl⟩ := hk
  obtain ⟨var, hvar, hsize⟩ := h old (List.mem_of_getElem? hold)
  by_cases hik : i = k
  · rw [if_pos hik, hvar]
    exact ⟨_, rfl, hsize⟩
  · rw [if_neg hik]
    exact ⟨var, hvar, hsize⟩

/-- The columns hold what the define buffers have, column by column up to a cell. -/
def CellsTo (block : List (List DpiData)) (i j : Nat) (columns : List FetchColumn) : Prop :=
  ∀ k l, (k < i ∨ k = i ∧ l < j) → ∀ row, block[l]? = some row →
    ∀ column, columns[k]? = some column → row[k]? = some (column.at l)

theorem CellsTo.filled {block : List (List DpiData)} {i j : Nat} {row : List DpiData}
    {data : DpiData} {size : Nat} (h : CellsTo block i j stmt.columns)
    (hready : Ready size stmt.columns) (hrow : block[j]? = some row) (hdata : row[i]? = some data) :
    CellsTo block i (j + 1) (stmt.filled i j data).columns := by
  intro k l hkl row' hrow' column hcolumn
  rw [getElem?_filled, Option.map_eq_some_iff] at hcolumn
  obtain ⟨old, hold, rfl⟩ := hcolumn
  by_cases hik : i = k
  · subst hik
    obtain ⟨var, hvar, -⟩ := hready old (List.mem_of_getElem? hold)
    by_cases hlj : l = j
    · subst hlj
      rw [hrow] at hrow'
      cases hrow'
      simpa [FetchColumn.at, hvar, QueryVar.filled] using hdata
    · have hold' := h i l (by omega) row' hrow' old hold
      simpa [FetchColumn.at, hvar, QueryVar.filled, Function.update_of_ne hlj] using hold'
  · rw [if_neg hik]
    exact h k l (by omega) row' hrow' old hold

/-- What the conversion of the first cells leaves of a statement. -/
structure Filling (stmt : FetchState) (block : List (List DpiData)) (i j : Nat)
    (stmt' : FetchState) : Prop where
  infos : SameInfos stmt.columns stmt'.columns
  ready : Ready stmt.fetchArraySize stmt'.columns
  cells : CellsTo block i j stmt'.columns
  rest : stmt' = { stmt with columns := stmt'.columns }

namespace Filling

variable {block : List (List DpiData)} {i j : Nat} {stmt' : FetchState}

theorem size (h : Filling stmt block i j stmt') :
    stmt'.fetchArraySize = stmt.fetchArraySize := by
  rw [h.rest]

theorem count (h : Filling stmt block i j stmt') :
    stmt'.bufferRowCount = stmt.bufferRowCount := by
  rw [h.rest]

theorem index (h : Filling stmt block i j stmt') :
    stmt'.bufferRowIndex = stmt.bufferRowIndex := by
  rw [h.rest]

theorem rowCount (h : Filling stmt block i j stmt') : stmt'.rowCount = stmt.rowCount := by
  rw [h.rest]

theorem more (h : Filling stmt block i j stmt') :
    stmt'.hasRowsToFetch = stmt.hasRowsToFetch := by
  rw [h.rest]

end Filling

variable {block : List (List DpiData)}

/-- The state of the statement and of the cursor, with the rows in the define buffers. -/
def OciCursor.AtBlock (C : OciCursor calls) (stmt : FetchState)
    (rows block : List (List DpiData)) (width : Nat) (w : Fetching τ) : Prop :=
  C.At stmt rows width w ∧ C.block w.oci = block

theorem spec_getValue {i j : Nat} {stmt' : FetchState} (hj : j < block.length)
    (h : Filling stmt block i j stmt') :
    Spec (C.AtBlock stmt' rows block width)
      (onOci (calls.getValue i j) >>= fun data => onStmt (·.filled i j data))
      (fun _ w => ∃ stmt', Filling stmt block i (j + 1) stmt' ∧
        C.AtBlock stmt' rows block width w)
      (fun _ => C.At stmt' rows width) := by
  refine spec_bind (Q := fun data w => block[j][i]? = some data ∧
    C.AtBlock stmt' rows block width w) (spec_zoom fun w hw => ⟨?_, ?_⟩) fun data => ?_
  · rintro _ data s' rfl hrun
    obtain ⟨hrows, hwidth, hblock⟩ := C.getValue i j
    refine ⟨C.valued i j _ data s' hrun _ ?_, ⟨hw.1.1, (hrows.returns hrun).trans hw.1.2.1,
      (hwidth.returns hrun).trans hw.1.2.2⟩, (hblock.returns hrun).trans hw.2⟩
    rw [hw.2, List.getElem?_eq_getElem hj]
  · rintro _ e s' rfl hrun
    obtain ⟨hrows, hwidth, -⟩ := C.getValue i j
    exact ⟨hw.1.1, (hrows.fails hrun).trans hw.1.2.1, (hwidth.fails hrun).trans hw.1.2.2⟩
  · refine spec_fact fun hdata => spec_modify fun w hw => ⟨stmt'.filled i j data, ?_, ?_⟩
    · refine ⟨(sameInfos_filled _ i j data).trans h.infos, h.ready.filled,
        h.cells.filled h.ready (List.getElem?_eq_getElem hj) hdata, ?_⟩
      rw [FetchState.filled, h.rest]
    · exact ⟨⟨congrArg (FetchState.filled · i j data) hw.1.1, hw.1.2⟩, hw.2⟩

theorem Filling.start {i j : Nat} {stmt' : FetchState} (h : Filling stmt block i j stmt') :
    Filling stmt block 0 0 stmt' :=
  ⟨h.infos, h.ready, fun _ _ hkl => by omega, h.rest⟩

theorem Filling.nextColumn {i : Nat} {stmt' : FetchState}
    (h : Filling stmt block i block.length stmt') : Filling stmt block (i + 1) 0 stmt' := by
  refine ⟨h.infos, h.ready, fun k l hkl row hrow => h.cells k l ?_ row hrow, h.rest⟩
  have hl : l < block.length := (List.getElem?_eq_some_iff.mp hrow).1
  omega

theorem spec_postFetch (hcount : stmt.bufferRowCount = block.length)
    (hready : Ready stmt.fetchArraySize stmt.columns) :
    Spec (C.AtBlock stmt rows block width) (dpiStmtPostFetch calls)
      (fun _ w => ∃ stmt', Filling stmt block stmt.columns.length 0 stmt' ∧
        C.At stmt' rows width w)
      (fun _ w => ∃ stmt', Filling stmt block 0 0 stmt' ∧ C.At stmt' rows width w) := by
  let I : Nat → Nat → Fetching τ → Prop := fun i j w =>
    ∃ stmt', Filling stmt block i j stmt' ∧ C.AtBlock stmt' rows block width w
  let E : DpiError → Fetching τ → Prop := fun _ w =>
    ∃ stmt', Filling stmt block 0 0 stmt' ∧ C.At stmt' rows width w
  have hcolumn : ∀ i < stmt.columns.length, Spec (I i 0)
      ((List.range block.length).forM fun j =>
        onOci (calls.getValue i j) >>= fun data => onStmt (·.filled i j data))
      (fun _ => I (i + 1) 0) E := by
    rintro i -
    have hcell : ∀ j < block.length, Spec (I i j)
        (onOci (calls.getValue i j) >>= fun data => onStmt (·.filled i j data))
        (fun _ => I i (j + 1)) E := by
      intro j hj
      refine spec_exists fun stmt' => spec_fact fun h => ?_
      exact (spec_getValue hj h).weaken (fun _ _ hw => hw) fun _ w hw => ⟨stmt', h.start, hw⟩
    refine (spec_forM_range block.length hcell).weaken ?_ fun _ _ h => h
    rintro _ w ⟨stmt', h, hw⟩
    exact ⟨stmt', h.nextColumn, hw⟩
  have hloop := spec_forM_range stmt.columns.length hcolumn
  have hstart : Filling stmt block 0 0 stmt := ⟨rfl, hready, fun _ _ hkl => by omega, rfl⟩
  refine spec_bind (Q := fun w w' => w.stmt = stmt ∧ C.AtBlock stmt rows block width w')
    (spec_get fun w hw => ⟨hw.1.1, hw⟩) fun w => spec_fact fun hw => ?_
  rw [hw, hcount]
  refine (hloop.strengthen fun w hw => ⟨stmt, hstart, hw⟩).weaken ?_ fun _ _ h => h
  rintro _ w ⟨stmt', h, hat⟩
  exact ⟨stmt', h, hat.1⟩

/-- A block that the cursor gives up for the rows after it. -/
structure Block (rows block rest : List (List DpiData)) (size : Nat) (noData : Bool) : Prop where
  split : rows = block ++ rest
  fits : block.length ≤ size
  last : noData = true → rest = []
  some : noData = false → 0 < size → block ≠ []

theorem spec_stmtFetch2 {n : Nat} :
    Spec (C.At stmt rows width) (onOci (calls.stmtFetch2 n))
      (fun noData w => ∃ block rest, Block rows block rest n noData ∧
        C.AtBlock stmt rest block width w)
      (fun _ w => ∃ rest, C.At stmt rest width w) := by
  refine spec_zoom fun w hw => ⟨?_, ?_⟩
  · rintro _ noData s' rfl hrun
    obtain ⟨hsplit, hfits, hlast, hsome⟩ := C.fetched n _ _ _ hrun
    rw [hw.2.1] at hsplit
    exact ⟨C.block s', C.rows s', ⟨hsplit, hfits, hlast, hsome⟩,
      ⟨hw.1, rfl, ((C.stmtFetch2 n).returns hrun).trans hw.2.2⟩, rfl⟩
  · rintro _ e s' rfl hrun
    exact ⟨C.rows s', hw.1, rfl, ((C.stmtFetch2 n).fails hrun).trans hw.2.2⟩

theorem spec_onStmtBlock {f : FetchState → FetchState} {E : DpiError → Fetching τ → Prop} :
    Spec (C.AtBlock stmt rows block width) (onStmt f)
      (fun _ => C.AtBlock (f stmt) rows block width) E :=
  spec_modify fun _ hw => ⟨⟨congrArg f hw.1.1, hw.1.2⟩, hw.2⟩

theorem spec_rowsFetched :
    Spec (C.AtBlock stmt rows block width) (onOci calls.rowsFetched)
      (fun n w => n = block.length ∧ C.AtBlock stmt rows block width w)
      (fun _ => C.At stmt rows width) := by
  obtain ⟨hrows, hwidth, hblock⟩ := C.rowsFetched
  refine spec_zoom fun w hw => ⟨?_, ?_⟩
  · rintro _ n s' rfl hrun
    refine ⟨(C.counted _ _ _ hrun).trans (by rw [hw.2]), ⟨hw.1.1, ?_⟩, ?_⟩
    · exact ⟨(hrows.returns hrun).trans hw.1.2.1, (hwidth.returns hrun).trans hw.1.2.2⟩
    · exact (hblock.returns hrun).trans hw.2
  · rintro _ e s' rfl hrun
    exact ⟨hw.1.1, (hrows.fails hrun).trans hw.1.2.1, (hwidth.fails hrun).trans hw.1.2.2⟩

/-- A statement with a new block of rows in its buffers. -/
structure Refilled (stmt : FetchState) (rows : List (List DpiData)) (width : Nat)
    (stmt' : FetchState) (rest : List (List DpiData)) : Prop where
  inBounds : InBounds stmt'
  index : stmt'.bufferRowIndex = 0
  rowCount : stmt'.rowCount = stmt.rowCount
  last : stmt'.hasRowsToFetch = false → rest = []
  some : stmt'.hasRowsToFetch = true → 0 < stmt'.bufferRowCount
  fits : stmt.columns.length = width → stmt'.columns.length = width
  wide : (∀ row ∈ rows, row.length = width) → ∀ row ∈ rest, row.length = width
  rows : stmt.columns.length = width → (∀ row ∈ rows, row.length = width) →
    rows = (List.range stmt'.bufferRowCount).map (rowAt stmt'.columns) ++ rest

/-- The rows that were converted are those of the block. -/
theorem Filling.rowAt_eq {stmt' : FetchState}
    (h : Filling stmt block stmt.columns.length 0 stmt')
    (hwide : ∀ row ∈ block, row.length = stmt.columns.length) :
    (List.range block.length).map (rowAt stmt'.columns) = block := by
  refine List.ext_getElem (by simp) fun j hj hj' => ?_
  rw [List.getElem_map, List.getElem_range]
  have hlength := hwide _ (List.getElem_mem hj')
  refine List.ext_getElem (by rw [rowAt, List.length_map, h.infos.length, hlength]) ?_
  intro i hi hi'
  have hcell := h.cells i j (.inl (by omega)) _ (List.getElem?_eq_getElem hj') _
    (List.getElem?_eq_getElem (by simpa [rowAt] using hi))
  rw [List.getElem?_eq_getElem hi'] at hcell
  simpa [rowAt] using (Option.some.inj hcell).symm

theorem Filling.inBounds {stmt' : FetchState} {i j : Nat} {noData : Bool}
    {rest : List (List DpiData)} (h : Filling stmt block i j stmt')
    (hblock : Block rows block rest stmt.fetchArraySize noData)
    (hcount : stmt.bufferRowCount = block.length) (hpos : 0 < stmt.fetchArraySize) :
    InBounds stmt' := by
  refine ⟨⟨?_, ?_⟩, ?_⟩
  · rw [h.size]
    exact hpos
  · rw [h.size]
    exact h.ready.roomy
  · rw [h.count, h.size, hcount]
    exact hblock.fits

/-- What a fetch of a block leaves that fails. -/
structure Interrupted (stmt stmt' : FetchState) : Prop where
  spacious : Spacious stmt'
  buffered : stmt.bufferRowCount ≤ stmt.fetchArraySize →
    stmt'.bufferRowCount ≤ stmt'.fetchArraySize

/-- A fetch puts the next rows of the cursor into the buffers. -/
theorem spec_fetchBlock (hspace : Spacious stmt) (hmore : stmt.hasRowsToFetch = true) :
    Spec (C.At stmt rows width) (dpiStmtFetchBlock calls)
      (fun _ w => ∃ stmt' rest, Refilled stmt rows width stmt' rest ∧ C.At stmt' rest width w)
      (fun _ w => Interrupted stmt w.stmt) := by
  have hbefore : Spec (C.At stmt rows width) (dpiStmtBeforeFetch calls) _ _ :=
    spec_beforeFetch hspace hmore
  refine spec_bind (hbefore.weaken (fun _ _ h => h) ?_) fun _ => ?_
  · rintro _ w ⟨columns, index, hroomy, hstmt, -⟩
    rw [hstmt]
    exact ⟨⟨hspace.size_pos, hroomy⟩, id⟩
  · refine spec_exists fun columns => spec_exists fun index => spec_fact fun hready =>
      spec_fact fun hcolumns => spec_read fun w hw => ?_
    rw [hw]
    let stmt₁ : FetchState := { stmt with columns := columns, bufferRowIndex := index }
    have hspace₁ : Spacious stmt₁ := ⟨hspace.size_pos, hready.roomy⟩
    have hfetch : Spec (C.At stmt₁ rows width) (onOci (calls.stmtFetch2 stmt.fetchArraySize)) _ _ :=
      spec_stmtFetch2
    refine spec_bind (hfetch.weaken (fun _ _ h => h) ?_)
      fun noData => spec_exists fun block => spec_exists fun rest => spec_fact fun hblock => ?_
    · rintro _ w ⟨rest, hstmt, -⟩
      rw [hstmt]
      exact ⟨hspace₁, id⟩
    · let stmt₂ := stmt₁.fetched noData
      refine spec_bind spec_onStmtBlock fun _ => ?_
      refine spec_bind (spec_rowsFetched.weaken (fun _ _ h => h) ?_) fun n => spec_fact ?_
      · rintro _ w ⟨hstmt, -⟩
        rw [hstmt]
        exact ⟨⟨hspace₁.size_pos, hspace₁.roomy⟩, id⟩
      · rintro rfl
        let stmt₃ := stmt₂.refilled block.length
        refine spec_bind spec_onStmtBlock fun _ => ?_
        have hfill : ∀ {i j : Nat} {stmt' : FetchState}, Filling stmt₃ block i j stmt' →
            InBounds stmt' := fun h => h.inBounds hblock rfl hspace.size_pos
        have hpost : Spec (C.AtBlock stmt₃ rest block width) (dpiStmtPostFetch calls) _ _ :=
          spec_postFetch rfl hready
        refine hpost.weaken ?_ ?_
        · rintro _ w ⟨stmt', h, hat⟩
          have hdata : stmt'.hasRowsToFetch = !noData := h.more
          have hcount : stmt'.bufferRowCount = block.length := h.count
          refine ⟨stmt', rest, ⟨hfill h, h.index, h.rowCount, fun hdone => ?_,
            fun hrows => ?_, fun hwidth => ?_, fun hwide row hrow => ?_,
            fun hwidth hwide => ?_⟩, hat⟩
          · exact hblock.last (by simpa [hdata] using hdone)
          · rw [hcount]
            exact List.length_pos_of_ne_nil
              (hblock.some (by simpa [hdata] using hrows) hspace.size_pos)
          · exact h.infos.length.trans (hcolumns hwidth)
          · exact hwide row (by simp [hblock.split, hrow])
          · rw [hcount, h.rowAt_eq, hblock.split]
            intro row hrow
            rw [hwide row (by simp [hblock.split, hrow])]
            exact (hcolumns hwidth).symm
        · rintro _ w ⟨stmt', h, hat⟩
          rw [hat.1]
          exact ⟨(hfill h).toSpacious, fun _ => (hfill h).buffered⟩

end Calls

end IdrisOracle
