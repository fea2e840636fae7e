import IdrisOracle.Fallible
import IdrisOracle.Odpi

/-! The rows a statement of ODPI-C has fetched in blocks and hands over one by one. -/

namespace IdrisOracle

open Fallible

/-- An error of ODPI-C, by the number in its text. -/
def DpiError.ofNum (num : Nat) (text : String) : DpiError :=
  if h : 1000 ≤ num ∧ num < 10000 then .odpi ⟨num, h⟩ text else .unsupported

namespace DpiError

def queryNotExecuted : DpiError := ofNum 1007 "no query has been executed"
def arraySizeTooBig (arraySize : Nat) : DpiError :=
  ofNum 1015 ("array size of " ++ toString arraySize ++ " is too large")
def arraySizeTooSmall (maxArraySize : Nat) : DpiError :=
  ofNum 1018 ("array size of " ++ toString maxArraySize ++ " is too small")
def invalidOracleType (oracleTypeNum : DpiOracleTypeNum) : DpiError :=
  ofNum 1021 ("Oracle type " ++ toString oracleTypeNum.toUInt32.toNat ++ " is invalid")
def queryPositionInvalid (pos : Nat) : DpiError :=
  ofNum 1028 ("query position " ++ toString pos ++ " is invalid")
def noRowFetched : DpiError := ofNum 1029 "no row currently fetched"
def arraySizeZero : DpiError := ofNum 1031 "array size cannot be zero"

end DpiError

/-- The value of `DPI_DEFAULT_FETCH_ARRAY_SIZE`. -/
def defaultFetchArraySize : Nat := 100

/-- A variable that a column is fetched into, with an entry of `externalData` for each row. -/
structure QueryVar where
  nativeTypeNum : DpiNativeTypeNum
  maxArraySize : Nat
  requiresPreFetch : Bool
  externalData : Nat → DpiData

/-- A column of a query, with its variable once one is defined. -/
structure FetchColumn where
  info : DpiQueryInfo
  var : Option QueryVar

/-- The fields of `dpiStmt` that executing and fetching a query use. -/
structure FetchState where
  isQuery : Bool
  fetchArraySize : Nat
  bufferRowCount : Nat
  bufferRowIndex : Nat
  bufferMinRow : Nat
  rowCount : Nat
  hasRowsToFetch : Bool
  columns : List FetchColumn

/-- What `dpiStmt.c` asks of OCI about a statement, itself or through `dpiVar.c`; `define` tells
whether the variable is dynamic. -/
structure QueryCalls (τ : Type) where
  check : Attempt DpiError τ Unit
  beforeExecute : Attempt DpiError τ Unit
  stmtExecute : Attempt DpiError τ Unit
  afterExecute : Attempt DpiError τ Unit
  prepareAgain : Attempt DpiError τ Unit
  bindAgain : Attempt DpiError τ Unit
  affectedRows : Attempt DpiError τ Nat
  paramCount : Attempt DpiError τ Nat
  getQueryInfo : Nat → Attempt DpiError τ DpiQueryInfo
  define : Nat → Nat → Attempt DpiError τ Bool
  extendedPreFetch : Nat → Attempt DpiError τ Unit
  stmtFetch2 : Nat → Attempt DpiError τ Bool
  rowsFetched : Attempt DpiError τ Nat
  getValue : Nat → Nat → Attempt DpiError τ DpiData

/-- A statement and what lies behind it. -/
structure Fetching (τ : Type) where
  stmt : FetchState
  oci : τ

/-- A statement that `dpiStmt__allocate` and `dpiStmt__prepare` have made. -/
def FetchState.prepared (isQuery : Bool) : FetchState where
  isQuery := isQuery
  fetchArraySize := defaultFetchArraySize
  bufferRowCount := 0
  bufferRowIndex := 0
  bufferMinRow := 0
  rowCount := 0
  hasRowsToFetch := isQuery
  columns := []

/-- The types whose variables are filled anew before each fetch. -/
def typeRequiresPreFetch (oracleTypeNum : DpiOracleTypeNum) : Bool :=
  [.rowid, .clob, .nclob, .blob, .bfile, .stmt, .object, .json, .urowid, .vector].contains
    oracleTypeNum

section Calls

variable {τ α : Type} (calls : QueryCalls τ)

def onOci (m : Attempt DpiError τ α) : Attempt DpiError (Fetching τ) α :=
  zoom Fetching.oci (fun oci w => { w with oci := oci }) m

def onStmt (f : FetchState → FetchState) : Attempt DpiError (Fetching τ) Unit :=
  modify fun w => { w with stmt := f w.stmt }

def FetchState.withVar (stmt : FetchState) (i : Nat) (var : QueryVar) : FetchState :=
  { stmt with columns := stmt.columns.modify i fun column => { column with var := some var } }

/-- The variable that a column gets when it has none. -/
def createQueryVar (i : Nat) (info : DpiQueryInfo) (size : Nat) :
    Attempt DpiError (Fetching τ) QueryVar :=
  match populateTypeInfo info.typeInfo with
  | none => throw (.invalidOracleType info.typeInfo.oracleTypeNum)
  | some nativeTypeNum => do
      whenever (size = 0) (throw .arraySizeZero)
      let isDynamic ← onOci (calls.define i size)
      let var : QueryVar := ⟨nativeTypeNum, size, isDynamic, fun _ => dpiDataSetNull .zero⟩
      onStmt (·.withVar i var)
      return var

def FetchState.describe (info : DpiQueryInfo) (stmt : FetchState) : FetchState :=
  { stmt with columns := stmt.columns ++ [⟨info, none⟩] }

def FetchState.clearQueryVars (stmt : FetchState) : FetchState := { stmt with columns := [] }

def FetchState.startFetch (stmt : FetchState) : FetchState :=
  { stmt with bufferRowIndex := stmt.fetchArraySize, hasRowsToFetch := true }

/-- Describe the columns, which gives up all of them when it fails. -/
def describeColumns (numQueryVars : Nat) : Attempt DpiError (Fetching τ) Unit := do
  onStmt FetchState.clearQueryVars
  onFailure
    ((List.range numQueryVars).forM fun i => do
      let info ← onOci (calls.getQueryInfo (i + 1))
      onStmt (FetchState.describe info))
    fun w => { w with stmt := w.stmt.clearQueryVars }

def dpiStmtCreateQueryVars : Attempt DpiError (Fetching τ) Unit := do
  let numQueryVars ← onOci calls.paramCount
  let w ← get
  whenever (numQueryVars ≠ w.stmt.columns.length) (describeColumns calls numQueryVars)
  onStmt FetchState.startFetch

def prefetchVar (i size : Nat) (var : QueryVar) : Attempt DpiError (Fetching τ) Unit := do
  whenever (var.maxArraySize < size) (throw (.arraySizeTooSmall var.maxArraySize))
  whenever var.requiresPreFetch (onOci (calls.extendedPreFetch i))

/-- Make sure that the variable of a column is there and has room. -/
def beforeFetchVar (i : Nat) : Attempt DpiError (Fetching τ) Unit := do
  let w ← get
  match w.stmt.columns[i]? with
  | none => return ()
  | some column => do
      let var ← column.var.elim (createQueryVar calls i column.info w.stmt.fetchArraySize) pure
      prefetchVar calls i w.stmt.fetchArraySize var

def dpiStmtBeforeFetch : Attempt DpiError (Fetching τ) Unit := do
  let w ← get
  whenever (w.stmt.columns.isEmpty) (dpiStmtCreateQueryVars calls)
  let w ← get
  (List.range w.stmt.columns.length).forM (beforeFetchVar calls)

/-- The result of `dpiVar__getValue` for a row, in the variable of its column. -/
def QueryVar.filled (var : QueryVar) (oracleTypeNum : DpiOracleTypeNum) (j : Nat)
    (data : DpiData) : QueryVar :=
  { var with
    externalData := Function.update var.externalData j data
    requiresPreFetch := var.requiresPreFetch || typeRequiresPreFetch oracleTypeNum }

def FetchState.filled (stmt : FetchState) (i j : Nat) (data : DpiData) : FetchState :=
  { stmt with
    columns := stmt.columns.modify i fun column =>
      { column with
        var := column.var.map fun var => var.filled column.info.typeInfo.oracleTypeNum j data } }

def dpiStmtPostFetch : Attempt DpiError (Fetching τ) Unit := do
  let w ← get
  (List.range w.stmt.columns.length).forM fun i =>
    (List.range w.stmt.bufferRowCount).forM fun j => do
      let data ← onOci (calls.getValue i j)
      onStmt (·.filled i j data)

def FetchState.fetched (noData : Bool) (stmt : FetchState) : FetchState :=
  { stmt with hasRowsToFetch := !noData }

def FetchState.refilled (bufferRowCount : Nat) (stmt : FetchState) : FetchState :=
  { stmt with
    bufferRowCount := bufferRowCount
    bufferMinRow := stmt.rowCount + 1
    bufferRowIndex := 0 }

/-- Fetch a block of rows; `stmtFetch2` tells whether it was the last one. -/
def dpiStmtFetchBlock : Attempt DpiError (Fetching τ) Unit := do
  dpiStmtBeforeFetch calls
  let w ← get
  let noData ← onOci (calls.stmtFetch2 w.stmt.fetchArraySize)
  onStmt (FetchState.fetched noData)
  let bufferRowCount ← onOci calls.rowsFetched
  onStmt (FetchState.refilled bufferRowCount)
  dpiStmtPostFetch calls

/-- Whether there is a row in the buffers, after a fetch if there was none. -/
def rowInBuffer : Attempt DpiError (Fetching τ) Bool := do
  let w ← get
  whenever (w.stmt.bufferRowCount ≤ w.stmt.bufferRowIndex ∧ w.stmt.hasRowsToFetch)
    (dpiStmtFetchBlock calls)
  let w ← get
  return decide (w.stmt.bufferRowIndex < w.stmt.bufferRowCount)

def FetchState.advance (n : Nat) (stmt : FetchState) : FetchState :=
  { stmt with bufferRowIndex := stmt.bufferRowIndex + n, rowCount := stmt.rowCount + n }

/-- The index of the row in the buffers, or `none` when there is no row. -/
def dpiStmtFetch : Attempt DpiError (Fetching τ) (Option Nat) := do
  onOci calls.check
  let found ← rowInBuffer calls
  let w ← get
  if found then
    onStmt (FetchState.advance 1)
    return some w.stmt.bufferRowIndex
  else return none

/-- What `dpiStmt_fetchRows` returns. -/
structure FetchedRows where
  bufferRowIndex : Nat
  numRowsFetched : Nat
  moreRows : Bool

def dpiStmtFetchRows (maxRows : Nat) : Attempt DpiError (Fetching τ) FetchedRows := do
  onOci calls.check
  let found ← rowInBuffer calls
  let w ← get
  if found then
    let inBuffer := w.stmt.bufferRowCount - w.stmt.bufferRowIndex
    let numRowsFetched := min inBuffer maxRows
    onStmt (FetchState.advance numRowsFetched)
    return ⟨w.stmt.bufferRowIndex, numRowsFetched,
      decide (maxRows < inBuffer) || w.stmt.hasRowsToFetch⟩
  else return ⟨0, 0, false⟩

def FetchState.restarted (stmt : FetchState) : FetchState := { stmt with rowCount := 0 }

def startQuery : Attempt DpiError (Fetching τ) Unit := do
  onStmt FetchState.restarted
  dpiStmtCreateQueryVars calls

/-- What follows an execution that succeeds: a query starts over with the rows of its result. -/
def finishExecute : Attempt DpiError (Fetching τ) Unit := do
  onOci calls.afterExecute
  let w ← get
  whenever w.stmt.isQuery (startQuery calls)

/-- An execution, with what is done when Oracle refuses it. -/
def dpiStmtExecuteInternal (refused : DpiError → Attempt DpiError (Fetching τ) Unit) :
    Attempt DpiError (Fetching τ) Unit := do
  onOci calls.beforeExecute
  handled (onOci calls.stmtExecute) (fun _ => finishExecute calls) refused

/-- The statement is prepared once more, without the columns it had, and executed once more. -/
def dpiStmtReExecute : Attempt DpiError (Fetching τ) Unit := do
  onOci calls.prepareAgain
  onStmt FetchState.clearQueryVars
  onOci calls.bindAgain
  dpiStmtExecuteInternal calls throw

/-- A query is refused because its columns are not those it was prepared with. -/
def DpiError.OtherColumns (e : DpiError) : Prop := e.code = 932 ∨ e.code = 1007

instance (e : DpiError) : Decidable e.OtherColumns := inferInstanceAs (Decidable (_ ∨ _))

def executionRefused (e : DpiError) : Attempt DpiError (Fetching τ) Unit := do
  let w ← get
  if e.OtherColumns ∧ w.stmt.isQuery then dpiStmtReExecute calls else throw e

def dpiStmtExecute : Attempt DpiError (Fetching τ) Nat := do
  onOci calls.check
  dpiStmtExecuteInternal calls (executionRefused calls)
  let w ← get
  return w.stmt.columns.length

/-- The array size that is set, where 0 stands for the default. -/
def effectiveArraySize (arraySize : Nat) : Nat :=
  if arraySize = 0 then defaultFetchArraySize else arraySize

def dpiStmtSetFetchArraySize (arraySize : Nat) : Attempt DpiError (Fetching τ) Unit := do
  onOci calls.check
  let w ← get
  whenever (w.stmt.columns.any fun column =>
      column.var.any fun var => decide (var.maxArraySize < effectiveArraySize arraySize))
    (throw (.arraySizeTooBig (effectiveArraySize arraySize)))
  onStmt fun stmt => { stmt with fetchArraySize := effectiveArraySize arraySize }

def dpiStmtGetNumQueryColumns : Attempt DpiError (Fetching τ) Nat := do
  onOci calls.check
  let w ← get
  whenever (w.stmt.isQuery ∧ w.stmt.columns.isEmpty) (dpiStmtCreateQueryVars calls)
  let w ← get
  return w.stmt.columns.length

def dpiStmtGetQueryInfo (pos : Nat) : Attempt DpiError (Fetching τ) DpiQueryInfo := do
  onOci calls.check
  let w ← get
  whenever (w.stmt.columns.isEmpty) (dpiStmtCreateQueryVars calls)
  let w ← get
  if pos = 0 then throw (.queryPositionInvalid pos)
  else
    match w.stmt.columns[pos - 1]? with
    | none => throw (.queryPositionInvalid pos)
    | some column => return column.info

def dpiStmtGetQueryValue (pos : Nat) :
    Attempt DpiError (Fetching τ) (DpiNativeTypeNum × DpiData) := do
  onOci calls.check
  let w ← get
  if w.stmt.columns.isEmpty then throw .queryNotExecuted
  else if pos = 0 then throw (.queryPositionInvalid pos)
  else
    match w.stmt.columns[pos - 1]? with
    | none => throw (.queryPositionInvalid pos)
    | some column =>
        match column.var with
        | none => throw .noRowFetched
        | some var =>
            if w.stmt.bufferRowIndex = 0 ∨ w.stmt.bufferRowCount < w.stmt.bufferRowIndex then
              throw .noRowFetched
            else return (var.nativeTypeNum, var.externalData (w.stmt.bufferRowIndex - 1))

/-- The rows handed over since a query was executed, or those another statement affected. -/
def dpiStmtGetRowCount : Attempt DpiError (Fetching τ) Nat := do
  onOci calls.check
  let w ← get
  if w.stmt.isQuery then return w.stmt.rowCount else onOci calls.affectedRows

end Calls

end IdrisOracle
