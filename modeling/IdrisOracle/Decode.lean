import IdrisOracle.Connection

/-! Reading one column of the current row. -/

namespace IdrisOracle

open Effect

/-- `Show` of an Oracle type. -/
def OracleType.show : OracleType → String
  | .oracleTypeVarchar => "OracleTypeVarchar"
  | .oracleTypeChar => "OracleTypeChar"
  | .oracleTypeNVarchar => "OracleTypeNVarchar"
  | .oracleTypeNChar => "OracleTypeNChar"
  | .oracleTypeRaw => "OracleTypeRaw"
  | .oracleTypeNumber => "OracleTypeNumber"
  | .oracleTypeBinaryFloat => "OracleTypeBinaryFloat"
  | .oracleTypeBinaryDouble => "OracleTypeBinaryDouble"
  | .oracleTypeDate => "OracleTypeDate"
  | .oracleTypeTimestamp => "OracleTypeTimestamp"
  | .oracleTypeTimestampTZ => "OracleTypeTimestampTZ"
  | .oracleTypeIntervalYM => "OracleTypeIntervalYM"
  | .oracleTypeIntervalDS => "OracleTypeIntervalDS"
  | .oracleTypeClob => "OracleTypeClob"
  | .oracleTypeBlob => "OracleTypeBlob"
  | .oracleTypeBoolean => "OracleTypeBoolean"
  | .oracleTypeUnknown n =>
      "OracleTypeUnknown " ++ if n < 0 then "(" ++ toString n ++ ")" else toString n

def unsupportedBoolean (n : Int32) : OracleError :=
  ⟨-1, "Unsupported BOOLEAN: " ++ toString n, "Oracle.Internal.Decode.decodeColumn", false⟩

def unsupportedOracleType (n : Int32) : OracleError :=
  ⟨-1, "Unsupported Oracle type: " ++ toString n, "Oracle.Internal.Decode.decodeColumn", false⟩

def invalidRaw (hex : String) : OracleError :=
  ⟨-1, "Invalid RAW hexadecimal value: " ++ hex, "Oracle.Internal.Decode.decodeColumn.use", false⟩

def unsupportedType (ty : OracleType) : OracleError :=
  ⟨-1, "Unsupported type: " ++ ty.show, "Oracle.Internal.Decode.decodeColumn.use", false⟩

/-- The pointer the decoder brackets: the data of a RAW, the handle of a LOB. -/
inductive DecodePtr where
  | data (data : DpiData)
  | lob (lob : Option DpiLob)

variable {σ : Type} (env : Env σ) {α : Type}

def withQueryInfo.use (action : DpiQueryInfo → Eff (World σ) α) (ptr : QueryInfoPtr) :
    Eff (World σ) (Outcome α) := do
  match ptr with
  | none =>
      let lasterr ← getLastError env
      return .error lasterr
  | some (_, info) =>
      let result ← action info
      return .ok result

/-- Run an action on a query-info structure and free the structure afterwards. -/
def withQueryInfo (stmt : OracleStmt) (column : Int32) (action : DpiQueryInfo → Eff (World σ) α) :
    Eff (World σ) (Outcome α) :=
  bracket (oracleQueryInfo env stmt column) (withQueryInfo.use env action) oracleQueryInfoFree

def getColumnInfo (stmt : OracleStmt) (column : Int32) : Eff (World σ) (Outcome ColumnInfo) :=
  withQueryInfo env stmt column fun info => do
    let name ← oracleQueryInfoName env info
    let tynum := oracleQueryInfoType info
    let size := (oracleQueryInfoSize info).toInt32
    let nullable := oracleQueryInfoNullable info
    return ⟨fromC env name, fromOracleTypeNum tynum, size.toInt.toNat, nullable ≠ 0⟩

namespace decodeColumn

def acquire (dataptr : DpiData) : OracleType → Eff (World σ) DecodePtr
  | .oracleTypeRaw => return .data dataptr
  | _ => return .lob (← oracleDataLob dataptr)

def use (ptr : DecodePtr) (oracletype : OracleType) : Eff (World σ) (Outcome OracleValue) := do
  match oracletype, ptr with
  | .oracleTypeBlob, .lob none | .oracleTypeClob, .lob none =>
      let lasterr ← getLastError env
      return .error lasterr
  | .oracleTypeBlob, .lob (some lob) =>
      let size ← oracleLobSize env (some lob)
      if size < 0 then
        let lasterr ← getLastError env
        return .error lasterr
      else
        let bytes ← oracleLobRead env (some lob) 1 size
        return .ok (.oracleBlob (CString.encode (fromC env bytes).toList))
  | .oracleTypeClob, .lob (some lob) =>
      let text ← oracleClobRead env (some lob)
      return .ok (.oracleClob (fromC env text))
  | .oracleTypeRaw, .data dataptr =>
      let hex ← oracleDataBytesHex env dataptr
      match hexDecode (fromC env hex) with
      | none => return .error (invalidRaw (fromC env hex))
      | some bytes => return .ok (.oracleRaw bytes)
  | ty, _ => return .error (unsupportedType ty)

def release (ptr : DecodePtr) : OracleType → Eff (World σ) Unit
  | .oracleTypeRaw => pure ()
  | _ =>
      match ptr with
      | .data _ => pure ()
      | .lob lob => oracleLobRelease env lob

def withDataPtrAndOracleType (dataptr : DpiData) (oracletype : OracleType) :
    Eff (World σ) (Outcome OracleValue) :=
  bracket (acquire dataptr oracletype) (fun ptr => use env ptr oracletype)
    (fun ptr => release env ptr oracletype)

/-- The decoding of a value that is not NULL. -/
def value (dataptr : DpiData) (oracletype : OracleType) : Eff (World σ) (Outcome OracleValue) := do
  match oracletype with
  | .oracleTypeVarchar | .oracleTypeChar | .oracleTypeNVarchar | .oracleTypeNChar =>
      let text ← oracleDataString env dataptr
      return .ok (.oracleString (fromC env text))
  | .oracleTypeNumber => return .ok (.oracleNumber (← oracleDataDouble dataptr))
  | .oracleTypeBinaryFloat => return .ok (.oracleBinaryFloat (← oracleDataBinaryFloat dataptr))
  | .oracleTypeBinaryDouble => return .ok (.oracleBinaryDouble (← oracleDataBinaryDouble dataptr))
  | .oracleTypeDate =>
      let dt ← oracleDataTimestamp dataptr
      return .ok (.oracleDate ⟨dt.year.toInt32, dt.month.toUInt32.toInt32,
        dt.day.toUInt32.toInt32, dt.hour.toUInt32.toInt32, dt.minute.toUInt32.toInt32,
        dt.second.toUInt32.toInt32⟩)
  | .oracleTypeTimestamp =>
      let ts ← oracleDataTimestamp dataptr
      return .ok (.oracleTimestamp ⟨ts.year.toInt32, ts.month.toUInt32.toInt32,
        ts.day.toUInt32.toInt32, ts.hour.toUInt32.toInt32, ts.minute.toUInt32.toInt32,
        ts.second.toUInt32.toInt32, ts.fsecond.toInt32⟩)
  | .oracleTypeTimestampTZ =>
      let ts ← oracleDataTimestamp dataptr
      return .ok (.oracleTimestampTZ ⟨ts.year.toInt32, ts.month.toUInt32.toInt32,
        ts.day.toUInt32.toInt32, ts.hour.toUInt32.toInt32, ts.minute.toUInt32.toInt32,
        ts.second.toUInt32.toInt32, ts.fsecond.toInt32, ts.tzHourOffset.toInt32,
        ts.tzMinuteOffset.toInt32⟩)
  | .oracleTypeIntervalYM =>
      let iv ← oracleDataIntervalYM dataptr
      return .ok (.oracleIntervalYM ⟨iv.years, iv.months⟩)
  | .oracleTypeIntervalDS =>
      let iv ← oracleDataIntervalDS dataptr
      return .ok (.oracleIntervalDS ⟨iv.days, iv.hours, iv.minutes, iv.seconds, iv.fseconds⟩)
  | .oracleTypeRaw | .oracleTypeBlob | .oracleTypeClob =>
      withDataPtrAndOracleType env dataptr oracletype
  | .oracleTypeBoolean =>
      match ← oracleDataBool dataptr with
      | 0 => return .ok (.oracleBool false)
      | 1 => return .ok (.oracleBool true)
      | n => return .error (unsupportedBoolean n)
  | .oracleTypeUnknown n => return .error (unsupportedOracleType n)

/-- The decoding of the current value of a column whose type is known. -/
def cell (stmt : OracleStmt) (column : Int32) (oracletype : OracleType) :
    Eff (World σ) (Outcome OracleValue) := do
  match ← oracleColumnValue env stmt column with
  | none =>
      let lasterr ← getLastError env
      return .error lasterr
  | some dataptr =>
      if oracleDataIsNull dataptr ≠ 0 then
        return .ok .oracleNull
      else
        value env dataptr oracletype

end decodeColumn

/-- Decode the value of a single column in the current row. -/
def decodeColumn (stmt : OracleStmt) (column : Int32) : Eff (World σ) (Outcome OracleValue) := do
  match ← getColumnInfo env stmt column with
  | .error err => return .error err
  | .ok info => decodeColumn.cell env stmt column info.oracletype

theorem decodeColumn_eq (stmt : OracleStmt) (column : Int32) :
    decodeColumn env stmt column =
      andThen (getColumnInfo env stmt column) fun info =>
        decodeColumn.cell env stmt column info.oracletype := by
  unfold decodeColumn andThen
  congr 1
  funext result
  cases result <;> rfl

theorem runs_oracleQueryInfo_some {stmt : OracleStmt} {column : Int32} {block : Nat}
    {info : DpiQueryInfo} {w w' : World σ}
    (hrun : Runs (oracleQueryInfo env stmt column) w (some (block, info)) w') :
    ∃ s, (env.call (.stmtGetQueryInfo stmt.stmt (position column)) s).1 = .ok info := by
  cases hmalloc : (env.malloc .queryInfo 128 w.odpi).1 with
  | false => simp [Runs, oracleQueryInfo, hmalloc] at hrun
  | true =>
      let w₁ := w.allocated env .queryInfo 128
      let req := Req.stmtGetQueryInfo stmt.stmt (position column)
      cases hcall : (env.call req w₁.odpi).1 with
      | error failure => simp [Runs, oracleQueryInfo, hmalloc, hcall, w₁, req] at hrun
      | ok reply =>
          have hfound : (w.nextBlock = block ∧ reply = info) ∧ w₁.called env req = w' := by
            simpa [Runs, oracleQueryInfo, hmalloc, hcall, w₁, req] using hrun
          exact ⟨w₁.odpi, hcall.trans (congrArg Except.ok hfound.1.2)⟩

/-- The type the library finds for a column is the one ODPI-C described it with. -/
theorem runs_getColumnInfo_ok {stmt : OracleStmt} {column : Int32} {info : ColumnInfo}
    {w w' : World σ} (hrun : Runs (getColumnInfo env stmt column) w (.ok info) w') :
    ∃ s reply, (env.call (.stmtGetQueryInfo stmt.stmt (position column)) s).1 = .ok reply ∧
      info.oracletype = fromOracleTypeNum reply.typeInfo.oracleTypeNum := by
  obtain ⟨ptr, w₁, w₂, hacquire, huse, -⟩ := runs_bracket.mp hrun
  cases ptr with
  | none => simp [Runs, withQueryInfo.use] at huse
  | some ptr =>
      obtain ⟨s, hcall⟩ := runs_oracleQueryInfo_some env hacquire
      obtain ⟨found, w₃, haction, hreturn⟩ := runs_bind.mp huse
      obtain ⟨name, w₄, -, hinfo⟩ := runs_bind.mp haction
      cases hinfo
      cases hreturn
      exact ⟨s, ptr.2, hcall, rfl⟩

end IdrisOracle
