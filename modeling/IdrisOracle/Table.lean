import IdrisOracle.Delivery
import IdrisOracle.Text

/-! A column of a table: how a bound value gets in and how it comes out. -/

namespace IdrisOracle

open Effect

/-- The assignment of a bound variable to the column: an error, NULL or a content. -/
abbrev Conversion (ty : OracleType) :=
  DpiOracleTypeNum → DpiData → Except DpiError (Option (Content ty))

/-- The placeholder of an INSERT and the cell it writes, which takes what the conversion makes of
the variable that is bound to the placeholder. -/
structure InsertColumn {σ : Type} (env : Env σ) {ty : OracleType} (convert : Conversion ty)
    (insert : Statement) (name : String) where
  bound : σ → Option (DpiOracleTypeNum × DpiData)
  stored : σ → Option (Content ty)
  binds : ∀ native type data s, createBindVar native = some type →
    (env.call (.stmtBindValueByName insert.ptr.stmt (counted (toC name)) native data) s).1 =
      .ok () →
    bound (env.call (.stmtBindValueByName insert.ptr.stmt (counted (toC name)) native data) s).2 =
      some (type, data)
  inserts : ∀ s type data content, bound s = some (type, data) →
    convert type data = .ok content → (env.call (.stmtExecute insert.ptr.stmt) s).1 = .ok () →
    stored (env.call (.stmtExecute insert.ptr.stmt) s).2 = content
  refuses : ∀ s type data failure, bound s = some (type, data) →
    convert type data = .error failure → (env.call (.stmtExecute insert.ptr.stmt) s).1 ≠ .ok ()

section Insert

variable {σ : Type} {env : Env σ} {ty : OracleType} {convert : Conversion ty} {insert : Statement}
  {name : String} {value : OracleValue} {native : DpiNativeTypeNum} {type : DpiOracleTypeNum}
  {data : DpiData} {r : Outcome Unit} {w w₁ : World σ}

theorem cleanly_bindAndExecute (param : BindParameter) :
    Cleanly (fun _ => True) (bindAndExecute env insert param) fun r (_ : World σ) =>
      r = .ok () := by
  refine (cleanly_bindOne param).bind_of (fun r => ?_) ?_
  · cases r with
    | error err => exact grows_pure _
    | ok u => exact preserves_execute (follows_extends env) trivial insert
  · rintro _ rfl
    exact cleanly_execute

/-- An INSERT that succeeds has executed the statement with the bound variable. -/
theorem InsertColumn.executed (T : InsertColumn env convert insert name)
    (hstatus : bindStatus env insert.ptr (toC name) value =
      oracleBindNative env insert.ptr (toC name) native data)
    (htype : createBindVar native = some type)
    (hinsert : Runs (bindAndExecute env insert ⟨name, value⟩) w (.ok ()) w₁) :
    ∃ s, T.bound s = some (type, data) ∧ (env.call (.stmtExecute insert.ptr.stmt) s).1 = .ok () ∧
      w₁.odpi = (env.call (.stmtExecute insert.ptr.stmt) s).2 := by
  rcases runs_andThen.mp hinsert with ⟨err, -, herror⟩ | ⟨_, w₂, hbind, hexecute⟩
  · cases herror
  · have hnative := runs_bindOne_ok.mp hbind
    rw [hstatus] at hnative
    obtain ⟨hbound, hworld⟩ := runs_oracleBindNative_ok hnative
    obtain ⟨hexecuted, rfl⟩ := runs_execute_ok hexecute
    refine ⟨w₂.odpi, ?_, hexecuted, rfl⟩
    rw [hworld]
    exact T.binds _ _ _ _ htype hbound

/-- The INSERT stores what the conversion makes of the bound variable, or it is refused. -/
theorem InsertColumn.outcome (T : InsertColumn env convert insert name)
    (hstatus : bindStatus env insert.ptr (toC name) value =
      oracleBindNative env insert.ptr (toC name) native data)
    (htype : createBindVar native = some type)
    (hinsert : Runs (bindAndExecute env insert ⟨name, value⟩) w r w₁)
    (hclean : (∃ stored, convert type data = .ok stored) → NoFailure w w₁) :
    (∃ failure err, convert type data = .error failure ∧ r = .error err) ∨
      ∃ stored, convert type data = .ok stored ∧ r = .ok () ∧ T.stored w₁.odpi = stored := by
  cases hconvert : convert type data with
  | error failure =>
      refine .inl ⟨failure, ?_⟩
      cases r with
      | error err => exact ⟨err, rfl, rfl⟩
      | ok u =>
          obtain ⟨s, hbound, hexecuted, -⟩ := T.executed hstatus htype hinsert
          exact absurd hexecuted (T.refuses s type data failure hbound hconvert)
  | ok stored =>
      obtain rfl : r = .ok () := (cleanly_bindAndExecute _).spec _ _ _ trivial hinsert
        (hclean ⟨stored, hconvert⟩)
      obtain ⟨s, hbound, hexecuted, hworld⟩ := T.executed hstatus htype hinsert
      refine .inr ⟨stored, rfl, rfl, ?_⟩
      rw [hworld]
      exact T.inserts s type data stored hbound hconvert hexecuted

end Insert

/-- The types whose content the cell itself holds and the decoder takes over. -/
def OracleType.Direct : OracleType → Prop
  | .oracleTypeRaw | .oracleTypeDate | .oracleTypeTimestamp | .oracleTypeTimestampTZ
  | .oracleTypeIntervalYM | .oracleTypeIntervalDS => True
  | _ => False

/-- The cell is a cell of the column and shows what the column stores. -/
structure CellOf {ty : OracleType} (cell : DriverCell) (stored : Option (Content ty)) : Prop where
  type_eq : cell.type = ty
  null : stored = none → cell.data.isNull ≠ 0
  filled : ∀ content, stored = some content →
    cell.data.isNull = 0 ∧ Fills cell.native ty content cell.data.value

section Read

variable {σ : Type} {env : Env σ} {ty : OracleType} {cell : DriverCell} {w w' : World σ}

theorem value_of_fills {content : Content ty} (hdirect : ty.Direct)
    (hfill : Fills cell.native ty content cell.data.value) :
    cell.Holds ty ∧ cell.content ty = content.value ty := by
  cases ty with
  | oracleTypeRaw =>
      cases hnative : cell.native <;> rw [hnative] at hfill <;> try exact hfill.elim
      have hbytes : cell.data.value.asBytes = some content.1 := hfill
      simpa [DriverCell.Holds, DriverCell.content, Content.value, hbytes] using content.2
  | oracleTypeDate | oracleTypeTimestamp | oracleTypeTimestampTZ =>
      cases hnative : cell.native <;> rw [hnative] at hfill <;> try exact hfill.elim
      obtain rfl : cell.data.value.asTimestamp = content := hfill
      exact ⟨trivial, rfl⟩
  | oracleTypeIntervalYM =>
      cases hnative : cell.native <;> rw [hnative] at hfill <;> try exact hfill.elim
      obtain rfl : cell.data.value.asIntervalYM = content := hfill
      exact ⟨trivial, rfl⟩
  | oracleTypeIntervalDS =>
      cases hnative : cell.native <;> rw [hnative] at hfill <;> try exact hfill.elim
      obtain rfl : cell.data.value.asIntervalDS = content := hfill
      exact ⟨trivial, rfl⟩
  | _ => exact hdirect.elim

theorem CellOf.supported {stored : Option (Content ty)} (h : CellOf cell stored)
    (hdirect : ty.Direct) : cell.Supported := by
  cases stored with
  | none => exact .inl (h.null rfl)
  | some content =>
      refine .inr ?_
      rw [h.type_eq]
      exact (value_of_fills hdirect (h.filled content rfl).2).1

theorem CellOf.value {stored : Option (Content ty)} (h : CellOf cell stored)
    (hdirect : ty.Direct) : cell.value = stored.elim .oracleNull (Content.value ty) := by
  cases stored with
  | none => exact DriverCell.value_of_null (h.null rfl)
  | some content =>
      obtain ⟨hnull, hfill⟩ := h.filled content rfl
      rw [DriverCell.value_of_not_null hnull, h.type_eq]
      exact (value_of_fills hdirect hfill).2

/-- A cell that nothing fails to read comes back as what the column stores. -/
theorem CellOf.read (C : ResultSet env) {ptr : OracleStmt} {column : Int32}
    {stored : Option (Content ty)} {r : Outcome OracleValue} (h : CellOf cell stored)
    (hdirect : ty.Direct)
    (hcell : (C.current ptr.stmt w.odpi)[(position column).toNat - 1]? = some cell)
    (hread : Runs (decodeColumn env ptr column) w r w') (hclean : NoFailure w w') :
    r = .ok (stored.elim .oracleNull (Content.value ty)) := by
  rw [← h.value hdirect]
  exact ((cleanly_decodeColumn hcell (h.supported hdirect)).spec _ _ _ ⟨rfl, rfl⟩ hread hclean).1

end Read

/-- How ODPI-C describes a column and hands over what it stores. -/
structure Layout (ty : OracleType) where
  info : DpiQueryInfo
  type_eq : fromOracleTypeNum info.typeInfo.oracleTypeNum = ty
  native : DpiNativeTypeNum
  native_eq : populateTypeInfo info.typeInfo = some native
  fill : Content ty → DpiDataBuffer
  fills : ∀ content, Fills native ty content (fill content)
  lobBytes : Content ty → List UInt8

/-- The INSERT of a table with its placeholder, and the SELECT that reads its column. -/
structure TableSql where
  insert : DpiStmt
  placeholder : List UInt8
  select : DpiStmt

/-- The INSERT of a table and the SELECT that reads it. -/
def tableInto : Statement := ⟨⟨0, ⟨0⟩, ⟨0⟩⟩⟩

def tableFrom : OracleStmt := ⟨1, ⟨0⟩, ⟨1⟩⟩

def tableSql (name : String) : TableSql :=
  ⟨tableInto.ptr.stmt, counted (toC name), tableFrom.stmt⟩

/-- The variables of a session, the one bound to the INSERT and the row. -/
structure Table (ty : OracleType) where
  vars : List (DpiOracleTypeNum × DpiData)
  bound : Option Nat
  row : Option (Option (Content ty))

namespace Table

variable {ty : OracleType}

def empty : Table ty := ⟨[], none, none⟩

/-- The type and the data of the bound variable. -/
def current (s : Table ty) : Option (DpiOracleTypeNum × DpiData) := do
  let var ← s.bound
  s.vars[var]?

def insert (convert : Conversion ty) (s : Table ty) : Except DpiError Unit × Table ty :=
  match s.current with
  | none => (.error (.oracle ⟨1008, by decide⟩ "ORA-01008: not all variables bound"), s)
  | some (type, data) =>
      match convert type data with
      | .error err => (.error err, s)
      | .ok stored => (.ok (), { s with row := some stored })

def lobBytes (layout : Layout ty) (s : Table ty) : List UInt8 :=
  match s.row with
  | some (some content) => layout.lobBytes content
  | _ => []

/-- The cell of the row. -/
def cell (layout : Layout ty) (s : Table ty) : Option DriverCell :=
  s.row.map fun stored =>
    { info := layout.info
      native := layout.native
      data := stored.elim ⟨1, .zero⟩ fun content => ⟨0, layout.fill content⟩
      lobBytes := s.lobBytes layout }

end Table

/-- The failure of an assignment between types that do not convert. -/
def inconsistentTypes : DpiError := .oracle ⟨932, by decide⟩ "ORA-00932: inconsistent datatypes"

def illegalVariable : DpiError := .oracle ⟨1036, by decide⟩ "ORA-01036: illegal variable name"

def noRow : DpiError := .oracle ⟨1002, by decide⟩ "ORA-01002: fetch out of sequence"

/-- ODPI-C over the table, with an allocator that grants blocks of some kinds. -/
def tableEnv {ty : OracleType} (sql : TableSql) (layout : Layout ty) (convert : Conversion ty)
    (grants : BlockKind → Bool) : Env (Table ty) where
  call
    | .connNewVar _ type _, s => (.ok ⟨s.vars.length⟩, { s with vars := s.vars ++ [(type, .zero)] })
    | .stmtBindByName stmt name var, s =>
        if stmt = sql.insert ∧ name = sql.placeholder then
          (.ok (), { s with bound := some var.id })
        else (.error illegalVariable, s)
    | .stmtBindValueByName stmt name native data, s =>
        if stmt = sql.insert ∧ name = sql.placeholder then
          match createBindVar native with
          | none => (.error (.odpi ⟨1014, by decide⟩ "conversion is not implemented"), s)
          | some type =>
              (.ok (), { s with vars := s.vars ++ [(type, data)], bound := some s.vars.length })
        else (.error illegalVariable, s)
    | .stmtExecute stmt, s => if stmt = sql.insert then s.insert convert else (.ok (), s)
    | .stmtGetQueryInfo stmt pos, s =>
        if stmt = sql.select ∧ pos = 1 then (.ok layout.info, s) else (.error .unsupported, s)
    | .stmtGetQueryValue stmt pos, s =>
        if stmt = sql.select ∧ pos = 1 then
          ((s.cell layout).elim (.error noRow) fun cell => .ok (cell.native, cell.data), s)
        else (.error .unsupported, s)
    | .lobGetSize _, s => (.ok (UInt64.ofNat (s.lobBytes layout).length), s)
    | .lobReadBytes _ offset amount _, s =>
        (.ok (((s.lobBytes layout).drop (offset.toNat - 1)).take amount.toNat), s)
    | _, s => (.error .unsupported, s)
  release _ s := s
  storeVar var data s := { s with vars := s.vars.modify var.id fun slot => (slot.1, data) }
  malloc kind _ s := (grants kind, s)
  nullString := ""

section

variable {ty : OracleType} {sql : TableSql} {layout : Layout ty} {convert : Conversion ty}
  {grants : BlockKind → Bool}

theorem tableEnv_bindValue {native : DpiNativeTypeNum} {type : DpiOracleTypeNum}
    (htype : createBindVar native = some type) (data : DpiData) (s : Table ty) :
    (tableEnv sql layout convert grants).call
        (.stmtBindValueByName sql.insert sql.placeholder native data) s =
      (.ok (), { s with vars := s.vars ++ [(type, data)], bound := some s.vars.length }) := by
  simp [tableEnv, htype]

theorem tableEnv_execute (s : Table ty) :
    (tableEnv sql layout convert grants).call (.stmtExecute sql.insert) s = s.insert convert := by
  simp [tableEnv]

theorem current_bindValue {native : DpiNativeTypeNum} {type : DpiOracleTypeNum}
    (htype : createBindVar native = some type) (data : DpiData) (s : Table ty) :
    ((tableEnv sql layout convert grants).call
      (.stmtBindValueByName sql.insert sql.placeholder native data) s).2.current =
        some (type, data) := by
  rw [tableEnv_bindValue htype]
  simp [Table.current]

theorem row_insert {s : Table ty} {type : DpiOracleTypeNum} {data : DpiData}
    {stored : Option (Content ty)} (hbound : s.current = some (type, data))
    (hconvert : convert type data = .ok stored) :
    ((tableEnv sql layout convert grants).call (.stmtExecute sql.insert) s).2.row.join =
      stored := by
  rw [tableEnv_execute]
  simp [Table.insert, hbound, hconvert]

theorem insert_refused {s : Table ty} {type : DpiOracleTypeNum} {data : DpiData}
    {failure : DpiError} (hbound : s.current = some (type, data))
    (hconvert : convert type data = .error failure) :
    ((tableEnv sql layout convert grants).call (.stmtExecute sql.insert) s).1 ≠ .ok () := by
  rw [tableEnv_execute]
  simp [Table.insert, hbound, hconvert]

/-- The cell that the INSERT of the table writes. -/
def tableInsert (layout : Layout ty) (convert : Conversion ty) (grants : BlockKind → Bool)
    (insert : Statement) (name : String) (select : DpiStmt) :
    InsertColumn (tableEnv ⟨insert.ptr.stmt, counted (toC name), select⟩ layout convert grants)
      convert insert name where
  bound := Table.current
  stored s := s.row.join
  binds _ _ data s htype _ := current_bindValue htype data s
  inserts _ _ _ _ hbound hconvert _ := row_insert hbound hconvert
  refuses _ _ _ _ hbound hconvert := insert_refused hbound hconvert

theorem tableEnv_queryInfo {query : OracleStmt} (hquery : query.stmt = sql.select)
    (s : Table ty) :
    (tableEnv sql layout convert grants).call (.stmtGetQueryInfo query.stmt (position 0)) s =
      (.ok layout.info, s) :=
  if_pos ⟨hquery, rfl⟩

theorem tableEnv_queryValue {query : OracleStmt} {s : Table ty} {content : Content ty}
    (hquery : query.stmt = sql.select) (hrow : s.row = some (some content)) :
    (tableEnv sql layout convert grants).call (.stmtGetQueryValue query.stmt (position 0)) s =
      (.ok (layout.native, ⟨0, layout.fill content⟩), s) := by
  have hcell : s.cell layout =
      some ⟨layout.info, layout.native, ⟨0, layout.fill content⟩, s.lobBytes layout⟩ := by
    rw [Table.cell, hrow]
    rfl
  have hcall : (tableEnv sql layout convert grants).call
      (.stmtGetQueryValue query.stmt (position 0)) s =
        ((s.cell layout).elim (.error noRow) fun cell => .ok (cell.native, cell.data), s) :=
    if_pos ⟨hquery, rfl⟩
  rw [hcall, hcell]
  rfl

theorem answers_queryInfo {query : OracleStmt} (hquery : query.stmt = sql.select)
    (content : Content ty) :
    Answers (tableEnv sql layout convert grants) (fun s => s.row = some (some content))
      (.stmtGetQueryInfo query.stmt (position 0)) layout.info := by
  intro s hrow
  rw [tableEnv_queryInfo hquery]
  exact ⟨rfl, hrow⟩

theorem answers_queryValue {query : OracleStmt} (hquery : query.stmt = sql.select)
    (content : Content ty) :
    Answers (tableEnv sql layout convert grants) (fun s => s.row = some (some content))
      (.stmtGetQueryValue query.stmt (position 0)) (layout.native, ⟨0, layout.fill content⟩) := by
  intro s hrow
  rw [tableEnv_queryValue hquery hrow]
  exact ⟨rfl, hrow⟩

/-- The column of the SELECT while the row stores a content. -/
def tableColumn (sql : TableSql) (layout : Layout ty) (convert : Conversion ty)
    (content : Content ty) (query : OracleStmt) (hquery : query.stmt = sql.select)
    (hlob : ∀ lob, (layout.fill content).asLOB = some lob →
      ReadsLob (tableEnv sql layout convert fun _ => true)
        (fun s => s.row = some (some content)) lob ty content) :
    ColumnEnv (tableEnv sql layout convert fun _ => true) query 0
      ⟨layout.info, ty, layout.type_eq, content⟩ where
  ready s := s.row = some (some content)
  malloc_ok _ _ _ h := ⟨rfl, h⟩
  native := layout.native
  native_eq := layout.native_eq
  data := ⟨0, layout.fill content⟩
  notNull := rfl
  fills := layout.fills content
  readsLob := hlob
  queryInfo := answers_queryInfo hquery content
  queryValue := answers_queryValue hquery content

/-- What the SELECT of the table shows. -/
def Table.selected (sql : TableSql) (layout : Layout ty) (stmt : DpiStmt) (s : Table ty) :
    List DriverCell :=
  if stmt = sql.select then (s.cell layout).toList else []

theorem mem_selected {stmt : DpiStmt} {s : Table ty} {cell : DriverCell}
    (h : cell ∈ s.selected sql layout stmt) : s.cell layout = some cell := by
  rw [Table.selected] at h
  split at h
  · simpa using h
  · cases h

theorem asLOB_selected {stmt : DpiStmt} {s : Table ty} {cell : DriverCell} {lob : DpiLob}
    (hlob : ∀ content, (layout.fill content).asLOB = none)
    (h : cell ∈ s.selected sql layout stmt) : cell.data.value.asLOB ≠ some lob := by
  obtain ⟨stored, -, rfl⟩ := Option.map_eq_some_iff.mp (mem_selected h)
  cases stored with
  | none =>
      intro hsome
      cases hsome
  | some content =>
      intro hsome
      cases (hlob content).symm.trans hsome

theorem described_selected {stmt : DpiStmt} {s : Table ty} {pos : UInt32} {info : DpiQueryInfo}
    {cell : DriverCell}
    (hcall : ((tableEnv sql layout convert grants).call (.stmtGetQueryInfo stmt pos) s).1 =
      .ok info) (h : cell ∈ s.selected sql layout stmt) : info = cell.info := by
  obtain ⟨stored, -, rfl⟩ := Option.map_eq_some_iff.mp (mem_selected h)
  simp only [tableEnv] at hcall
  split at hcall
  · cases hcall
    rfl
  · cases hcall

theorem valued_selected {stmt : DpiStmt} {s : Table ty} {pos : UInt32}
    {reply : DpiNativeTypeNum × DpiData} {cell : DriverCell}
    (hcall : ((tableEnv sql layout convert grants).call (.stmtGetQueryValue stmt pos) s).1 =
      .ok reply) (h : cell ∈ s.selected sql layout stmt) : reply = (cell.native, cell.data) := by
  simp only [tableEnv, mem_selected h] at hcall
  split at hcall
  · cases hcall
    rfl
  · cases hcall

theorem row_called {req : Req} {s : Table ty} (hreq : req.group.OnRow) :
    ((tableEnv sql layout convert grants).call req s).2 = s := by
  cases req <;> first
    | exact hreq.elim
    | rfl
    | (simp only [tableEnv]; split <;> rfl)

/-- The SELECT of the table as a result set whose only row has been fetched. -/
def tableRow (hlob : ∀ content, (layout.fill content).asLOB = none) :
    ResultSet (tableEnv sql layout convert grants) where
  chars := List.length
  rows _ _ := []
  current stmt s := s.selected sql layout stmt
  fetched _ _ _ hcall := nomatch hcall
  counted _ _ _ hcall := nomatch hcall
  described _ _ _ _ hcall _ hcell := described_selected hcall (List.mem_of_getElem? hcell)
  valued _ _ _ _ hcall _ hcell := valued_selected hcall (List.mem_of_getElem? hcell)
  sized _ _ _ _ _ _ hcell hcontent := absurd hcontent (asLOB_selected hlob hcell)
  buffered _ _ _ _ _ hcall := nomatch hcall
  readLob _ _ _ _ _ _ _ _ hcell hcontent := absurd hcontent (asLOB_selected hlob hcell)
  supported _ _ _ hrow := absurd hrow List.not_mem_nil
  called _ _ _ hreq := ⟨rfl, by rw [row_called hreq]⟩
  released _ _ _ := ⟨rfl, rfl⟩
  stored _ _ _ _ := ⟨rfl, rfl⟩
  allocated _ _ _ _ := ⟨rfl, rfl⟩

theorem current_tableRow (hlob : ∀ content, (layout.fill content).asLOB = none)
    {query : OracleStmt} {s : Table ty} {cell : DriverCell} (hquery : query.stmt = sql.select)
    (h : s.cell layout = some cell) :
    ((tableRow hlob : ResultSet (tableEnv sql layout convert grants)).current query.stmt
      s)[(position 0).toNat - 1]? = some cell := by
  change (s.selected sql layout query.stmt)[0]? = some cell
  rw [Table.selected, if_pos hquery, h]
  rfl

/-- The cell of the row carries what the row stores. -/
theorem cellOf_table {s : Table ty} {cell : DriverCell} (h : s.cell layout = some cell) :
    CellOf cell s.row.join := by
  obtain ⟨stored, hrow, rfl⟩ := Option.map_eq_some_iff.mp h
  rw [hrow, Option.join_some]
  refine ⟨layout.type_eq, ?_, ?_⟩
  · rintro rfl
    change ¬ (1 : Int32) = 0
    decide
  · rintro content rfl
    exact ⟨rfl, layout.fills content⟩

end

end IdrisOracle
