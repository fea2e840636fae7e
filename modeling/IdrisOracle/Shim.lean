import IdrisOracle.Hex
import IdrisOracle.World

/-! The functions of the C layer. -/

namespace IdrisOracle

open Effect

/-- The statement wrapper of the C layer, at the block that holds it. -/
structure OracleStmt where
  block : Nat
  conn : DpiConn
  stmt : DpiStmt
deriving DecidableEq

/-- A string of the C layer at the block that holds it; `none` is NULL. -/
abbrev CharPtr := Option (Nat × List UInt8)

/-- A query-info structure at the block that holds it; `none` is NULL. -/
abbrev QueryInfoPtr := Option (Nat × DpiQueryInfo)

section Errors

def scanSign : List Char → Int × List Char
  | '-' :: rest => (-1, rest)
  | '+' :: rest => (1, rest)
  | rest => (1, rest)

/-- The conversion `%d` of `sscanf`. -/
def scanDecimal (cs : List Char) : Option Int32 :=
  let signed := scanSign (cs.dropWhile isSpace)
  let digits := signed.2.takeWhile Char.isDigit
  if digits = [] then none
  else
    let value : Nat := digits.foldl (fun n d => n * 10 + (d.toNat - 48)) 0
    some (Int32.ofInt (signed.1 * value))

/-- `sscanf(message, "DPI-%d:", &parsed) == 1`, with the number it parsed. -/
def scanDpi (message : String) : Option Int32 :=
  match message.toList with
  | 'D' :: 'P' :: 'I' :: '-' :: rest => scanDecimal rest
  | _ => none

variable {σ : Type} (env : Env σ)

def oracleCaptureError (error : DpiErrorInfo) : Eff (World σ) Unit :=
  modify fun w =>
    let code :=
      if error.code = 0 ∧ error.message = .buffer then
        (scanDpi w.errorBuffer.message).getD error.code
      else error.code
    { w with gLastError := ⟨code, error.message, error.messageLength⟩, gHasError := true }

/-- `dpiContext_getError`. -/
def dpiContextGetError : Eff (World σ) DpiErrorInfo :=
  step fun w => (⟨w.errorBuffer.code, .buffer, w.errorBuffer.messageLength⟩, w)

def oracleCaptureLastError : Eff (World σ) Unit := do
  let w ← get
  if w.gContext then
    let error ← dpiContextGetError
    oracleCaptureError error

/-- `true` when the context exists afterwards. -/
def oracleInitContext : Eff (World σ) Bool := do
  let w ← get
  if w.gContext then
    return true
  match ← odpi env .contextCreate with
  | .error err =>
      oracleCaptureError ⟨err.code, .buffer, err.messageLength⟩
      return false
  | .ok _ =>
      modify fun w => { w with gContext := true }
      return true

def getErrorCode : Eff (World σ) Int32 :=
  step fun w => (if w.gHasError then w.gLastError.code else 0, w)

/-- The message as Idris receives it: the whole text of the buffer. -/
def getErrorMessage : Eff (World σ) String :=
  step fun w =>
    (if w.gHasError then
      match w.gLastError.message with
      | .null => env.nullString
      | .buffer => w.errorBuffer.message
    else "", w)

/-- The world after the globals have taken over an error. -/
def World.captured (w : World σ) (error : DpiErrorInfo) : World σ :=
  let code :=
    if error.code = 0 ∧ error.message = .buffer then
      (scanDpi w.errorBuffer.message).getD error.code
    else error.code
  { w with gLastError := ⟨code, error.message, error.messageLength⟩, gHasError := true }

/-- The world after the globals have taken over the last error of ODPI-C. -/
def World.capturedLast (w : World σ) : World σ :=
  if w.gContext then w.captured ⟨w.errorBuffer.code, .buffer, w.errorBuffer.messageLength⟩ else w

@[simp] theorem oracleCaptureError_apply (error : DpiErrorInfo) (w : World σ) :
    oracleCaptureError error w = some ((), w.captured error) := rfl

@[simp] theorem oracleCaptureLastError_apply (w : World σ) :
    oracleCaptureLastError w = some ((), w.capturedLast) := by
  by_cases hcontext : w.gContext = true <;>
    simp [oracleCaptureLastError, dpiContextGetError, World.capturedLast, hcontext]

@[simp] theorem World.captured_log (w : World σ) (error : DpiErrorInfo) :
    (w.captured error).log = w.log := rfl

@[simp] theorem World.capturedLast_odpi (w : World σ) : w.capturedLast.odpi = w.odpi := by
  by_cases hcontext : w.gContext = true <;> simp [World.capturedLast, World.captured, hcontext]

@[simp] theorem World.capturedLast_log (w : World σ) : w.capturedLast.log = w.log := by
  by_cases hcontext : w.gContext = true <;> simp [World.capturedLast, World.captured, hcontext]

end Errors

/-- The 1-based position ODPI-C gives to a 0-based column index. -/
def position (column : Int32) : UInt32 := (column + 1).toUInt32

section QueryInfo

variable {σ : Type} (env : Env σ)

def oracleQueryInfo (stmt : OracleStmt) (column : Int32) : Eff (World σ) QueryInfoPtr := do
  match ← malloc env .queryInfo 128 with
  | none => return none
  | some block =>
      match ← odpi env (.stmtGetQueryInfo stmt.stmt (position column)) with
      | .error _ =>
          free block
          oracleCaptureLastError
          return none
      | .ok info => return some (block, info)

def oracleQueryInfoFree (info : QueryInfoPtr) : Eff (World σ) Unit :=
  match info with
  | none => pure ()
  | some (block, _) => free block

def oracleQueryInfoType (info : DpiQueryInfo) : Int32 := info.typeInfo.oracleTypeNum

def oracleQueryInfoName (info : DpiQueryInfo) : Eff (World σ) CharPtr := do
  match ← malloc env .infoName (info.name.length + 1) with
  | none => return none
  | some block => return some (block, info.name)

def oracleQueryInfoNullable (info : DpiQueryInfo) : Int32 := info.nullOk

def oracleQueryInfoSize (info : DpiQueryInfo) : UInt32 := info.typeInfo.sizeInChars

end QueryInfo

section Data

variable {σ : Type} (env : Env σ)

def oracleDataIsNull (data : DpiData) : Int32 := data.isNull

def oracleDataDouble (data : DpiData) : Eff (World σ) Float :=
  readMember .asDouble data.value.asDouble

def oracleDataBinaryFloat (data : DpiData) : Eff (World σ) Float :=
  readMember .asFloat data.value.asFloat.toFloat

def oracleDataBinaryDouble (data : DpiData) : Eff (World σ) Float :=
  readMember .asDouble data.value.asDouble

def oracleDataString (data : DpiData) : Eff (World σ) CharPtr := do
  match ← readMember .asBytes data.value.asBytes with
  | none => return none
  | some bytes =>
      match ← malloc env .string ((bytes.length + 1) % 2 ^ 32) with
      | none => return none
      | some block => return some (block, bytes)

def oracleDataBool (data : DpiData) : Eff (World σ) Int32 :=
  readMember .asBoolean data.value.asBoolean

def oracleDataTimestamp (data : DpiData) : Eff (World σ) DpiTimestamp :=
  readMember .asTimestamp data.value.asTimestamp

def oracleDataIntervalDS (data : DpiData) : Eff (World σ) DpiIntervalDS :=
  readMember .asIntervalDS data.value.asIntervalDS

def oracleDataIntervalYM (data : DpiData) : Eff (World σ) DpiIntervalYM :=
  readMember .asIntervalYM data.value.asIntervalYM

def oracleDataBytesHex (data : DpiData) : Eff (World σ) CharPtr := do
  let bytes := (← readMember .asBytes data.value.asBytes).getD []
  match ← malloc env .bytesHex (bytes.length * 2 + 1) with
  | none => return none
  | some block => return some (block, hexBlock (2 ^ 32) bytes)

def oracleDataLob (data : DpiData) : Eff (World σ) (Option DpiLob) :=
  readMember .asLOB data.value.asLOB

end Data

section Lob

variable {σ : Type} (env : Env σ)

def oracleLobSize (lob : Option DpiLob) : Eff (World σ) Int64 := do
  match lob with
  | none => return -1
  | some lob =>
      match ← odpi env (.lobGetSize lob) with
      | .error _ =>
          oracleCaptureLastError
          return -1
      | .ok size => return size.toInt64

def oracleLobRead (lob : Option DpiLob) (offset length : Int64) : Eff (World σ) CharPtr := do
  match lob with
  | none => return none
  | some lob =>
      match ← malloc env .lobBuffer length.toUInt64.toNat with
      | none => return none
      | some buffer =>
          match ← odpi env (.lobReadBytes lob offset.toUInt64 length.toUInt64
              length.toUInt64) with
          | .error _ =>
              oracleCaptureLastError
              free buffer
              return none
          | .ok bytes =>
              match ← malloc env .lobHex ((bytes.length * 2 + 1) % 2 ^ 64) with
              | none =>
                  free buffer
                  return none
              | some hex =>
                  free buffer
                  return some (hex, hexBlock (2 ^ 64) bytes)

def oracleLobRelease (lob : Option DpiLob) : Eff (World σ) Unit :=
  match lob with
  | none => pure ()
  | some lob => odpiRelease env (.lob lob)

def oracleClobRead (lob : Option DpiLob) : Eff (World σ) CharPtr := do
  match lob with
  | none => return none
  | some lob =>
      match ← odpi env (.lobGetSize lob) with
      | .error _ =>
          oracleCaptureLastError
          return none
      | .ok chars =>
          match ← odpi env (.lobGetBufferSize lob chars) with
          | .error _ =>
              oracleCaptureLastError
              return none
          | .ok bytes =>
              match ← malloc env .clobBuffer (bytes + 1).toNat with
              | none => return none
              | some buffer =>
                  match ← odpi env (.lobReadBytes lob 1 chars bytes) with
                  | .error _ =>
                      oracleCaptureLastError
                      free buffer
                      return none
                  | .ok text => return some (buffer, text)

end Lob

/-- The bytes of a C string that ODPI-C is given with a `uint32_t` length. -/
def counted (text : List UInt8) : List UInt8 := text.take (text.length % 2 ^ 32)

section Bind

variable {σ : Type} (env : Env σ)

/-- The status a failing function of ODPI-C returns. -/
def dpiFailure : Int32 := -1

def oracleBindNative (stmt : OracleStmt) (name : List UInt8) (nativeType : DpiNativeTypeNum)
    (data : DpiData) : Eff (World σ) Int32 := do
  match ← odpi env (.stmtBindValueByName stmt.stmt (counted name) nativeType data) with
  | .error _ =>
      oracleCaptureLastError
      return dpiFailure
  | .ok _ => return 0

def oracleBindTyped (stmt : OracleStmt) (name : List UInt8) (oracleType : DpiOracleTypeNum)
    (nativeType : DpiNativeTypeNum) (data : DpiData) : Eff (World σ) Int32 := do
  match ← odpi env (.connNewVar stmt.conn oracleType nativeType) with
  | .error _ =>
      oracleCaptureLastError
      return dpiFailure
  | .ok var =>
      storeVar env var data
      match ← odpi env (.stmtBindByName stmt.stmt (counted name) var) with
      | .error _ =>
          oracleCaptureLastError
          odpiRelease env (.var var)
          return dpiFailure
      | .ok _ =>
          odpiRelease env (.var var)
          return 0

def oracleBindNull (stmt : OracleStmt) (name : List UInt8) : Eff (World σ) Int32 :=
  oracleBindNative env stmt name .bytes (dpiDataSetNull .zero)

def oracleBindBool (stmt : OracleStmt) (name : List UInt8) (value : Int32) :
    Eff (World σ) Int32 :=
  oracleBindNative env stmt name .boolean (dpiDataSetBool .zero (value ≠ 0))

def oracleBindString (stmt : OracleStmt) (name value : List UInt8) : Eff (World σ) Int32 :=
  oracleBindNative env stmt name .bytes (dpiDataSetBytes .zero (counted value))

def oracleBindDouble (stmt : OracleStmt) (name : List UInt8) (value : Float) :
    Eff (World σ) Int32 :=
  oracleBindNative env stmt name .double (dpiDataSetDouble .zero value)

def oracleBindBinaryFloat (stmt : OracleStmt) (name : List UInt8) (value : Float) :
    Eff (World σ) Int32 :=
  oracleBindTyped env stmt name .nativeFloat .float (dpiDataSetFloat .zero value.toFloat32)

def oracleBindBinaryDouble (stmt : OracleStmt) (name : List UInt8) (value : Float) :
    Eff (World σ) Int32 :=
  oracleBindTyped env stmt name .nativeDouble .double (dpiDataSetDouble .zero value)

def oracleBindRaw (stmt : OracleStmt) (name value : List UInt8) : Eff (World σ) Int32 :=
  oracleBindNative env stmt name .bytes (dpiDataSetBytes .zero (counted value))

def oracleBindClob (stmt : OracleStmt) (name value : List UInt8) : Eff (World σ) Int32 :=
  oracleBindNative env stmt name .bytes (dpiDataSetBytes .zero (counted value))

def oracleBindBlob (stmt : OracleStmt) (name value : List UInt8) : Eff (World σ) Int32 :=
  oracleBindNative env stmt name .bytes (dpiDataSetBytes .zero (counted value))

def oracleBindDate (stmt : OracleStmt) (name : List UInt8) (year : Int16)
    (month day hour minute second : UInt8) : Eff (World σ) Int32 :=
  oracleBindNative env stmt name .timestamp
    (dpiDataSetTimestamp .zero ⟨year, month, day, hour, minute, second, 0, 0, 0⟩)

def oracleBindTimestamp (stmt : OracleStmt) (name : List UInt8) (year : Int16)
    (month day hour minute second : UInt8) (fsecond : UInt32) : Eff (World σ) Int32 :=
  oracleBindNative env stmt name .timestamp
    (dpiDataSetTimestamp .zero ⟨year, month, day, hour, minute, second, fsecond, 0, 0⟩)

def oracleBindTimestampTZ (stmt : OracleStmt) (name : List UInt8) (year : Int16)
    (month day hour minute second : UInt8) (fsecond : UInt32) (tzHour tzMinute : Int8) :
    Eff (World σ) Int32 :=
  oracleBindNative env stmt name .timestamp
    (dpiDataSetTimestamp .zero
      ⟨year, month, day, hour, minute, second, fsecond, tzHour, tzMinute⟩)

def oracleBindIntervalYM (stmt : OracleStmt) (name : List UInt8) (years months : Int32) :
    Eff (World σ) Int32 :=
  oracleBindNative env stmt name .intervalYM (dpiDataSetIntervalYM .zero ⟨years, months⟩)

def oracleBindIntervalDS (stmt : OracleStmt) (name : List UInt8)
    (days hours minutes seconds fseconds : Int32) : Eff (World σ) Int32 :=
  oracleBindNative env stmt name .intervalDS
    (dpiDataSetIntervalDS .zero ⟨days, hours, minutes, seconds, fseconds⟩)

end Bind

section Statement

variable {σ : Type} (env : Env σ)

def oraclePrepareStmt (conn : DpiConn) (sql : List UInt8) : Eff (World σ) (Option OracleStmt) := do
  match ← malloc env .stmt 16 with
  | none => return none
  | some block =>
      match ← odpi env (.connPrepareStmt conn (counted sql)) with
      | .error _ =>
          oracleCaptureLastError
          free block
          return none
      | .ok stmt => return some ⟨block, conn, stmt⟩

def oracleReleaseStmt (stmt : OracleStmt) : Eff (World σ) Unit := do
  odpiRelease env (.stmt stmt.stmt)
  free stmt.block

def oracleExecuteStmt (stmt : OracleStmt) : Eff (World σ) Int32 := do
  match ← odpi env (.stmtExecute stmt.stmt) with
  | .error _ =>
      oracleCaptureLastError
      return -1
  | .ok _ => return 0

def oracleFetch (stmt : OracleStmt) : Eff (World σ) Int32 := do
  match ← odpi env (.stmtFetch stmt.stmt) with
  | .error _ =>
      oracleCaptureLastError
      return -1
  | .ok found => return if found then 1 else 0

def oracleColumnCount (stmt : OracleStmt) : Eff (World σ) Int32 := do
  match ← odpi env (.stmtGetNumQueryColumns stmt.stmt) with
  | .error _ =>
      oracleCaptureLastError
      return -1
  | .ok count => return count.toInt32

def oracleColumnValue (stmt : OracleStmt) (column : Int32) :
    Eff (World σ) (Option DpiData) := do
  match ← odpi env (.stmtGetQueryValue stmt.stmt (position column)) with
  | .error _ =>
      oracleCaptureLastError
      return none
  | .ok (_, data) => return some data

theorem runs_oracleColumnValue {stmt : OracleStmt} {column : Int32} {w w' : World σ}
    {data : Option DpiData} (hrun : Runs (oracleColumnValue env stmt column) w data w') :
    let req := Req.stmtGetQueryValue stmt.stmt (position column)
    (∃ failure, (env.call req w.odpi).1 = .error failure ∧ data = none ∧
        w' = (w.called env req).capturedLast) ∨
      ∃ native value, (env.call req w.odpi).1 = .ok (native, value) ∧ data = some value ∧
        w' = w.called env req := by
  intro req
  cases hcall : (env.call req w.odpi).1 with
  | error failure =>
      simp [Runs, oracleColumnValue, hcall, req] at hrun
      exact .inl ⟨failure, rfl, hrun.1.symm, hrun.2.symm⟩
  | ok reply =>
      simp [Runs, oracleColumnValue, hcall, req] at hrun
      exact .inr ⟨reply.1, reply.2, rfl, hrun.1.symm, hrun.2.symm⟩

end Statement

section Connection

variable {σ : Type} (env : Env σ)

def oracleCommit (conn : DpiConn) : Eff (World σ) Int32 := do
  match ← odpi env (.connCommit conn) with
  | .error _ =>
      oracleCaptureLastError
      return -1
  | .ok _ => return 0

def oracleRollback (conn : DpiConn) : Eff (World σ) Int32 := do
  match ← odpi env (.connRollback conn) with
  | .error _ =>
      oracleCaptureLastError
      return -1
  | .ok _ => return 0

def oracleConnect (username password connectString : List UInt8) :
    Eff (World σ) (Option DpiConn) := do
  if !(← oracleInitContext env) then
    return none
  match ← odpi env (.connCreate (counted username) (counted password)
      (counted connectString)) with
  | .error _ =>
      -- The `error` structure captured here is the zeroed local one, not what ODPI-C reports.
      oracleCaptureError ⟨0, .null, 0⟩
      return none
  | .ok conn => return some conn

def oracleDisconnect (conn : DpiConn) : Eff (World σ) Unit := odpiRelease env (.conn conn)

end Connection

end IdrisOracle
