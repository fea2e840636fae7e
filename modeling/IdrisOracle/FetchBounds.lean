import IdrisOracle.RowOrder

/-! No slot of a variable is used that it does not have, whatever calls fail. -/

namespace IdrisOracle

open Fallible

variable {τ : Type} {calls : QueryCalls τ} {stmt stmt' : FetchState}
  {rows rows' : List (List DpiData)} {width : Nat}

/-- Whatever its outcome, the computation keeps the slots of a statement in bounds. -/
abbrev Bounded {α : Type} (m : Attempt DpiError (Fetching τ) α) : Prop :=
  Keeps (fun w => InBounds w.stmt) m

theorem OciCursor.bounded {α : Type} (C : OciCursor calls) {m : Attempt DpiError (Fetching τ) α}
    (h : ∀ stmt rows width, InBounds stmt → Spec (C.At stmt rows width) m
      (fun _ w => InBounds w.stmt) fun _ w => InBounds w.stmt) : Bounded m where
  returns w _ _ hw hrun := (h _ _ _ hw).returns _ _ _ (C.at_self w) hrun
  fails w _ _ hw hrun := (h _ _ _ hw).fails _ _ _ (C.at_self w) hrun

theorem bounded_onOci {α : Type} (m : Attempt DpiError τ α) : Bounded (onOci m) :=
  spec_zoom fun _ hw => ⟨fun _ _ _ _ _ => hw, fun _ _ _ _ _ => hw⟩

theorem bounded_onStmt {f : FetchState → FetchState}
    (hf : ∀ stmt, InBounds stmt → InBounds (f stmt)) :
    Bounded (onStmt f : Attempt DpiError (Fetching τ) Unit) :=
  keeps_modify fun _ hw => hf _ hw

theorem InBounds.advance (h : InBounds stmt) (n : Nat) : InBounds (stmt.advance n) :=
  ⟨⟨h.size_pos, h.roomy⟩, h.buffered⟩

theorem InBounds.withColumns (h : InBounds stmt) {columns : List FetchColumn}
    (hroomy : Roomy stmt.fetchArraySize columns) : InBounds { stmt with columns := columns } :=
  ⟨⟨h.size_pos, hroomy⟩, h.buffered⟩

theorem InBounds.startFetch (h : InBounds stmt) : InBounds stmt.startFetch :=
  ⟨⟨h.size_pos, h.roomy⟩, h.buffered⟩

theorem InBounds.restarted (h : InBounds stmt) : InBounds stmt.restarted :=
  ⟨⟨h.size_pos, h.roomy⟩, h.buffered⟩

section Kept

variable (C : OciCursor calls)

include C

theorem bounded_createQueryVars : Bounded (dpiStmtCreateQueryVars calls) := by
  refine C.bounded fun stmt rows width hbounds => spec_createQueryVars.weaken ?_ ?_
  · rintro _ w ⟨columns, -, hcolumns, hat⟩
    rw [hat.1]
    exact (hbounds.withColumns (hbounds.roomy.of_described hcolumns)).startFetch
  · rintro _ w ⟨columns, hcolumns, hat⟩
    rw [hat.1]
    exact hbounds.withColumns (hbounds.roomy.of_cleared hcolumns)

/-- A row that was found lies in the part of the buffers that is filled. -/
theorem spec_rowInBuffer_bounded (hbounds : InBounds stmt) :
    Spec (C.At stmt rows width) (rowInBuffer calls)
      (fun found w => (found = true → w.stmt.bufferRowIndex < w.stmt.bufferRowCount) ∧
        InBounds w.stmt) (fun _ w => InBounds w.stmt) := by
  refine spec_read fun w hw => ?_
  rw [hw]
  refine spec_bind (Q := fun _ w => ∃ stmt' rows', InBounds stmt' ∧ C.At stmt' rows' width w)
    (spec_whenever ?_ ?_) fun _ => ?_
  · rintro ⟨-, hmore⟩
    refine (spec_fetchBlock hbounds.toSpacious hmore).weaken ?_ fun _ _ h =>
      ⟨h.spacious, h.buffered hbounds.buffered⟩
    rintro _ w ⟨stmt', rest, h, hat⟩
    exact ⟨stmt', rest, h.inBounds, hat⟩
  · exact fun _ w hat => ⟨stmt, rows, hbounds, hat⟩
  · refine spec_exists fun stmt' => spec_exists fun rows' => spec_fact fun hbounds' =>
      spec_read fun w hw => ?_
    rw [hw]
    refine spec_pure fun w hat => ?_
    rw [hat.1]
    exact ⟨of_decide_eq_true, hbounds'⟩

theorem bounded_rowInBuffer : Bounded (rowInBuffer calls) :=
  C.bounded fun _ _ _ hbounds =>
    (spec_rowInBuffer_bounded C hbounds).weaken (fun _ _ h => h.2) fun _ _ h => h

theorem bounded_fetch : Bounded (dpiStmtFetch calls) := by
  refine (bounded_onOci _).bind fun _ => (bounded_rowInBuffer C).bind fun found =>
    keeps_get fun w => ?_
  cases found with
  | false => exact keeps_pure _
  | true => exact (bounded_onStmt fun _ h => h.advance 1).bind fun _ => keeps_pure _

theorem bounded_executeInternal {refused : DpiError → Attempt DpiError (Fetching τ) Unit}
    (hrefused : ∀ e, Bounded (refused e)) : Bounded (dpiStmtExecuteInternal calls refused) := by
  refine (bounded_onOci _).bind fun _ => (bounded_onOci _).handled (fun _ => ?_) hrefused
  refine (bounded_onOci _).bind fun _ => keeps_get fun w => keeps_whenever ?_
  exact (bounded_onStmt fun _ h => h.restarted).bind fun _ => bounded_createQueryVars C

theorem bounded_reExecute : Bounded (dpiStmtReExecute calls) := by
  refine (bounded_onOci _).bind fun _ => (bounded_onStmt fun _ h => ?_).bind fun _ =>
    (bounded_onOci _).bind fun _ => bounded_executeInternal C fun _ => keeps_throw _
  exact h.withColumns (roomy_of_no_var fun _ hcolumn => by cases hcolumn)

theorem bounded_execute : Bounded (dpiStmtExecute calls) := by
  have hrefused : ∀ e, Bounded (executionRefused calls e) := fun e => keeps_get fun w =>
    spec_ite (fun _ => bounded_reExecute C) fun _ => keeps_throw _
  exact (bounded_onOci _).bind fun _ => (bounded_executeInternal C hrefused).bind fun _ =>
    keeps_get fun w => keeps_pure _

theorem bounded_getNumQueryColumns : Bounded (dpiStmtGetNumQueryColumns calls) :=
  (bounded_onOci _).bind fun _ => keeps_get fun _ =>
    Keeps.bind (keeps_whenever (bounded_createQueryVars C)) fun _ =>
      keeps_get fun _ => keeps_pure _

theorem bounded_getQueryInfo (pos : Nat) : Bounded (dpiStmtGetQueryInfo calls pos) := by
  refine (bounded_onOci _).bind fun _ => keeps_get fun _ =>
    Keeps.bind (keeps_whenever (bounded_createQueryVars C)) fun _ => keeps_get fun w => ?_
  refine spec_ite (fun _ => keeps_throw _) fun _ => ?_
  cases w.stmt.columns[pos - 1]? with
  | none => exact keeps_throw _
  | some column => exact keeps_pure _

theorem bounded_getQueryValue (pos : Nat) : Bounded (dpiStmtGetQueryValue calls pos) :=
  C.bounded fun _ _ _ hbounds => spec_dpiStmtGetQueryValue.weaken
    (fun _ _ h => h.2.1 ▸ hbounds) fun _ _ h => h.1 ▸ hbounds

theorem bounded_setFetchArraySize {arraySize : Nat} (hbounds : InBounds stmt)
    (hsize : stmt.bufferRowCount ≤ effectiveArraySize arraySize) :
    Spec (C.At stmt rows width) (dpiStmtSetFetchArraySize calls arraySize)
      (fun _ w => InBounds w.stmt) (fun _ w => InBounds w.stmt) := by
  refine spec_dpiStmtSetFetchArraySize.weaken ?_ fun _ w hat => hat.1 ▸ hbounds
  rintro _ w ⟨hroomy, hat⟩
  rw [hat.1]
  exact ⟨⟨effectiveArraySize_pos arraySize, hroomy⟩, hsize⟩

/-- The rows that a call hands over lie in the part of the buffers that is filled. -/
theorem spec_fetchRows_bounded (maxRows : Nat) :
    Spec (fun w => InBounds w.stmt) (dpiStmtFetchRows calls maxRows)
      (fun r w => r.bufferRowIndex + r.numRowsFetched ≤ w.stmt.bufferRowCount ∧ InBounds w.stmt)
      (fun _ w => InBounds w.stmt) := by
  have hfound : Spec (fun w => InBounds w.stmt) (rowInBuffer calls) (fun found w =>
      (found = true → w.stmt.bufferRowIndex < w.stmt.bufferRowCount) ∧ InBounds w.stmt)
      (fun _ w => InBounds w.stmt) :=
    ⟨fun w _ _ hw hrun => (spec_rowInBuffer_bounded C hw).returns _ _ _ (C.at_self w) hrun,
      fun w _ _ hw hrun => (spec_rowInBuffer_bounded C hw).fails _ _ _ (C.at_self w) hrun⟩
  refine spec_bind (bounded_onOci _) fun _ => spec_bind hfound fun found => ?_
  refine spec_bind (Q := fun w w' => w = w' ∧
    (found = true → w'.stmt.bufferRowIndex < w'.stmt.bufferRowCount) ∧ InBounds w'.stmt)
    (spec_get fun w hw => ⟨rfl, hw⟩) fun w => ?_
  cases found with
  | false => exact spec_pure fun w' hw => ⟨Nat.zero_le _, hw.2.2⟩
  | true =>
      refine spec_bind (spec_modify (Q := fun _ w' => w.stmt.bufferRowIndex +
        min (w.stmt.bufferRowCount - w.stmt.bufferRowIndex) maxRows ≤ w'.stmt.bufferRowCount ∧
          InBounds w'.stmt) ?_) fun _ => spec_pure fun _ hw => hw
      rintro _ ⟨rfl, hlt, hbounds⟩
      refine ⟨?_, hbounds.advance _⟩
      have hlt := hlt rfl
      change w.stmt.bufferRowIndex + min (w.stmt.bufferRowCount - w.stmt.bufferRowIndex) maxRows ≤
        w.stmt.bufferRowCount
      omega

theorem bounded_fetchRows (maxRows : Nat) : Bounded (dpiStmtFetchRows calls maxRows) :=
  (spec_fetchRows_bounded C maxRows).weaken (fun _ _ h => h.2) fun _ _ h => h

end Kept

theorem bounded_getRowCount : Bounded (dpiStmtGetRowCount calls) :=
  (bounded_onOci _).bind fun _ => keeps_get fun _ =>
    spec_ite (fun _ => keeps_pure _) fun _ => bounded_onOci _

/-- A call on a statement. -/
inductive FetchCall where
  | execute
  | fetch
  | fetchRows (maxRows : Nat)
  | setFetchArraySize (arraySize : Nat)
  | getNumQueryColumns
  | getQueryInfo (pos : Nat)
  | getQueryValue (pos : Nat)
  | getRowCount

namespace FetchCall

/-- The state that a call leaves, whether it returns or fails. -/
def run (calls : QueryCalls τ) : FetchCall → Fetching τ → Fetching τ
  | execute => after (dpiStmtExecute calls)
  | fetch => after (dpiStmtFetch calls)
  | fetchRows maxRows => after (dpiStmtFetchRows calls maxRows)
  | setFetchArraySize arraySize => after (dpiStmtSetFetchArraySize calls arraySize)
  | getNumQueryColumns => after (dpiStmtGetNumQueryColumns calls)
  | getQueryInfo pos => after (dpiStmtGetQueryInfo calls pos)
  | getQueryValue pos => after (dpiStmtGetQueryValue calls pos)
  | getRowCount => after (dpiStmtGetRowCount calls)

/-- The array size is not made smaller than the block in the buffers. -/
def Allowed (stmt : FetchState) : FetchCall → Prop
  | setFetchArraySize arraySize => stmt.bufferRowCount ≤ effectiveArraySize arraySize
  | _ => True

theorem run_inBounds (C : OciCursor calls) (call : FetchCall) {w : Fetching τ}
    (hallowed : call.Allowed w.stmt) (hbounds : InBounds w.stmt) :
    InBounds (call.run calls w).stmt := by
  cases call with
  | execute => exact (bounded_execute C).after hbounds
  | fetch => exact (bounded_fetch C).after hbounds
  | fetchRows maxRows => exact (bounded_fetchRows C maxRows).after hbounds
  | setFetchArraySize arraySize =>
      exact (bounded_setFetchArraySize C hbounds hallowed).after (C.at_self w)
  | getNumQueryColumns => exact (bounded_getNumQueryColumns C).after hbounds
  | getQueryInfo pos => exact (bounded_getQueryInfo C pos).after hbounds
  | getQueryValue pos => exact (bounded_getQueryValue C pos).after hbounds
  | getRowCount => exact bounded_getRowCount.after hbounds

end FetchCall

/-- The states of a statement after any calls, whether they return or fail. -/
inductive FetchReached (calls : QueryCalls τ) (w : Fetching τ) : Fetching τ → Prop
  | start : FetchReached calls w w
  | call {w' : Fetching τ} (call : FetchCall) (h : FetchReached calls w w')
      (hallowed : call.Allowed w'.stmt) : FetchReached calls w (call.run calls w')

theorem inBounds_prepared (isQuery : Bool) : InBounds (.prepared isQuery) := by
  refine ⟨⟨Nat.zero_lt_succ 99, fun column hcolumn => ?_⟩, Nat.zero_le _⟩
  cases hcolumn

theorem FetchReached.inBounds (C : OciCursor calls) {w w' : Fetching τ}
    (h : FetchReached calls w w') (hbounds : InBounds w.stmt) : InBounds w'.stmt := by
  induction h with
  | start => exact hbounds
  | call call h hallowed ih => exact call.run_inBounds C hallowed ih

theorem InBounds.slots {n : Nat} (h : InBounds stmt) (hn : n ≤ stmt.bufferRowCount)
    {column : FetchColumn} (hcolumn : column ∈ stmt.columns) {var : QueryVar}
    (hvar : column.var = some var) : n ≤ var.maxArraySize :=
  Nat.le_trans hn (Nat.le_trans h.buffered (h.roomy column hcolumn var hvar))

/-- In every state that is reached, what is read of a variable lies in the slots it has. -/
theorem query_reads_in_bounds (C : OciCursor calls) {isQuery : Bool} {oci : τ} {w : Fetching τ}
    (h : FetchReached calls ⟨.prepared isQuery, oci⟩ w) :
    (∀ pos value w', Returns (dpiStmtGetQueryValue calls pos) w value w' →
      ∃ column var slot, w.stmt.columns[pos - 1]? = some column ∧ column.var = some var ∧
        slot < var.maxArraySize ∧ value = (var.nativeTypeNum, var.externalData slot)) ∧
      ∀ maxRows r w', Returns (dpiStmtFetchRows calls maxRows) w r w' →
        ∀ column ∈ w'.stmt.columns, ∀ var, column.var = some var →
          r.bufferRowIndex + r.numRowsFetched ≤ var.maxArraySize := by
  have hbounds := h.inBounds C (inBounds_prepared isQuery)
  constructor
  · intro pos value w' hrun
    obtain ⟨⟨column, var, hshown⟩, -⟩ :=
      spec_dpiStmtGetQueryValue.returns _ _ _ (C.at_self w) hrun
    have hmax := hbounds.slots hshown.index_le (List.mem_of_getElem? hshown.found) hshown.defined
    have hpos := hshown.index_pos
    exact ⟨column, var, _, hshown.found, hshown.defined, by omega, hshown.value⟩
  · intro maxRows r w' hrun column hcolumn var hvar
    obtain ⟨hrows, hbounds'⟩ := (spec_fetchRows_bounded C maxRows).returns _ _ _ hbounds hrun
    exact hbounds'.slots hrows hcolumn hvar

/-- The table when its first block has been handed over and a row of its second. -/
def tableReached : Fetching (TableCursor 2) :=
  [FetchCall.setFetchArraySize 2, .execute, .fetchRows 5, .fetch].foldl
    (fun w call => call.run numberedTable w) ⟨.prepared true, ⟨[], []⟩⟩

theorem reached_tableReached :
    FetchReached numberedTable ⟨.prepared true, ⟨[], []⟩⟩ tableReached := by
  have hstart : FetchReached numberedTable ⟨.prepared true, ⟨[], []⟩⟩
    ⟨.prepared true, ⟨[], []⟩⟩ := .start
  have hsized := hstart.call (.setFetchArraySize 2) (Nat.zero_le _)
  exact ((hsized.call .execute trivial).call (.fetchRows 5) trivial).call .fetch trivial

theorem query_reads_in_bounds_table : tableReached.stmt.rowCount = 3 ∧
    (∀ pos value w', Returns (dpiStmtGetQueryValue numberedTable pos) tableReached value w' →
      ∃ column var slot, tableReached.stmt.columns[pos - 1]? = some column ∧
        column.var = some var ∧ slot < var.maxArraySize ∧
        value = (var.nativeTypeNum, var.externalData slot)) ∧
    ∀ maxRows r w', Returns (dpiStmtFetchRows numberedTable maxRows) tableReached r w' →
      ∀ column ∈ w'.stmt.columns, ∀ var, column.var = some var →
        r.bufferRowIndex + r.numRowsFetched ≤ var.maxArraySize :=
  ⟨rfl, query_reads_in_bounds (tableCursor _ _) reached_tableReached⟩

end IdrisOracle
