import IdrisOracle.Types

/-! The part of ODPI-C the C layer calls: its data, its requests and its choice of types. -/

namespace IdrisOracle

structure DpiConn where
  id : Nat
deriving DecidableEq

structure DpiStmt where
  id : Nat
deriving DecidableEq

structure DpiVar where
  id : Nat
deriving DecidableEq

structure DpiLob where
  id : Nat
deriving DecidableEq

inductive Handle where
  | conn (conn : DpiConn)
  | stmt (stmt : DpiStmt)
  | var (var : DpiVar)
  | lob (lob : DpiLob)
deriving DecidableEq

abbrev DpiOracleTypeNum := Int32

namespace DpiOracleTypeNum

def varchar : DpiOracleTypeNum := 2001
def nvarchar : DpiOracleTypeNum := 2002
def char : DpiOracleTypeNum := 2003
def nchar : DpiOracleTypeNum := 2004
def rowid : DpiOracleTypeNum := 2005
def raw : DpiOracleTypeNum := 2006
def nativeFloat : DpiOracleTypeNum := 2007
def nativeDouble : DpiOracleTypeNum := 2008
def nativeInt : DpiOracleTypeNum := 2009
def number : DpiOracleTypeNum := 2010
def date : DpiOracleTypeNum := 2011
def timestamp : DpiOracleTypeNum := 2012
def timestampTZ : DpiOracleTypeNum := 2013
def timestampLTZ : DpiOracleTypeNum := 2014
def intervalDS : DpiOracleTypeNum := 2015
def intervalYM : DpiOracleTypeNum := 2016
def clob : DpiOracleTypeNum := 2017
def nclob : DpiOracleTypeNum := 2018
def blob : DpiOracleTypeNum := 2019
def bfile : DpiOracleTypeNum := 2020
def stmt : DpiOracleTypeNum := 2021
def boolean : DpiOracleTypeNum := 2022
def object : DpiOracleTypeNum := 2023
def longVarchar : DpiOracleTypeNum := 2024
def longRaw : DpiOracleTypeNum := 2025
def nativeUint : DpiOracleTypeNum := 2026
def json : DpiOracleTypeNum := 2027
def jsonObject : DpiOracleTypeNum := 2028
def jsonArray : DpiOracleTypeNum := 2029
def urowid : DpiOracleTypeNum := 2030
def longNVarchar : DpiOracleTypeNum := 2031
def xmltype : DpiOracleTypeNum := 2032
def vector : DpiOracleTypeNum := 2033

end DpiOracleTypeNum

inductive DpiNativeTypeNum where
  | int64
  | uint64
  | float
  | double
  | bytes
  | timestamp
  | intervalDS
  | intervalYM
  | lob
  | object
  | stmt
  | boolean
  | rowid
  | json
  | jsonObject
  | jsonArray
  | vector
deriving DecidableEq

structure DpiTimestamp where
  year : Int16
  month : UInt8
  day : UInt8
  hour : UInt8
  minute : UInt8
  second : UInt8
  fsecond : UInt32
  tzHourOffset : Int8
  tzMinuteOffset : Int8
deriving DecidableEq

structure DpiIntervalDS where
  days : Int32
  hours : Int32
  minutes : Int32
  seconds : Int32
  fseconds : Int32
deriving DecidableEq

structure DpiIntervalYM where
  years : Int32
  months : Int32
deriving DecidableEq

/-- The value union, as what each member reads; `asInt64` and `asDouble` read the same word. -/
structure DpiDataBuffer where
  asBoolean : Int32
  word : UInt64
  asFloat : Float32
  asBytes : Option (List UInt8)
  asTimestamp : DpiTimestamp
  asIntervalDS : DpiIntervalDS
  asIntervalYM : DpiIntervalYM
  asLOB : Option DpiLob

def DpiDataBuffer.asInt64 (buffer : DpiDataBuffer) : Int64 := buffer.word.toInt64

def DpiDataBuffer.asDouble (buffer : DpiDataBuffer) : Float := Float.ofBits buffer.word

structure DpiData where
  isNull : Int32
  value : DpiDataBuffer

def DpiDataBuffer.zero : DpiDataBuffer where
  asBoolean := 0
  word := 0
  asFloat := Float32.ofBits 0
  asBytes := none
  asTimestamp := ⟨0, 0, 0, 0, 0, 0, 0, 0, 0⟩
  asIntervalDS := ⟨0, 0, 0, 0, 0⟩
  asIntervalYM := ⟨0, 0⟩
  asLOB := none

/-- A `dpiData` cleared by `memset`. -/
def DpiData.zero : DpiData := ⟨0, .zero⟩

def dpiDataSetNull (data : DpiData) : DpiData := { data with isNull := 1 }

def dpiDataSetBool (data : DpiData) (value : Bool) : DpiData :=
  { isNull := 0, value := { data.value with asBoolean := if value then 1 else 0 } }

def dpiDataSetBytes (data : DpiData) (bytes : List UInt8) : DpiData :=
  { isNull := 0, value := { data.value with asBytes := some bytes } }

def dpiDataSetDouble (data : DpiData) (value : Float) : DpiData :=
  { isNull := 0, value := { data.value with word := value.toBits } }

def dpiDataSetFloat (data : DpiData) (value : Float32) : DpiData :=
  { isNull := 0, value := { data.value with asFloat := value } }

def dpiDataSetTimestamp (data : DpiData) (value : DpiTimestamp) : DpiData :=
  { isNull := 0, value := { data.value with asTimestamp := value } }

def dpiDataSetIntervalDS (data : DpiData) (value : DpiIntervalDS) : DpiData :=
  { isNull := 0, value := { data.value with asIntervalDS := value } }

def dpiDataSetIntervalYM (data : DpiData) (value : DpiIntervalYM) : DpiData :=
  { isNull := 0, value := { data.value with asIntervalYM := value } }

structure DpiDataTypeInfo where
  oracleTypeNum : DpiOracleTypeNum
  sizeInChars : UInt32
  precision : Int16
  scale : Int8

structure DpiQueryInfo where
  name : List UInt8
  typeInfo : DpiDataTypeInfo
  nullOk : Int32

/-- The default native type of a type ODPI-C knows and the library does not decode. -/
def otherNativeType (oracleTypeNum : DpiOracleTypeNum) : Option DpiNativeTypeNum :=
  if oracleTypeNum = .rowid ∨ oracleTypeNum = .urowid then some .rowid
  else if oracleTypeNum = .nativeInt then some .int64
  else if oracleTypeNum = .timestampLTZ then some .timestamp
  else if oracleTypeNum = .nclob ∨ oracleTypeNum = .bfile then some .lob
  else if oracleTypeNum = .stmt then some .stmt
  else if oracleTypeNum = .object then some .object
  else if oracleTypeNum = .longVarchar ∨ oracleTypeNum = .longRaw ∨
      oracleTypeNum = .longNVarchar ∨ oracleTypeNum = .xmltype then some .bytes
  else if oracleTypeNum = .nativeUint then some .uint64
  else if oracleTypeNum = .json then some .json
  else if oracleTypeNum = .jsonObject then some .jsonObject
  else if oracleTypeNum = .jsonArray then some .jsonArray
  else if oracleTypeNum = .vector then some .vector
  else none

/-- The default native type of a type ODPI-C knows. -/
def defaultNativeType : OracleType → Option DpiNativeTypeNum
  | .oracleTypeVarchar | .oracleTypeNVarchar | .oracleTypeChar | .oracleTypeNChar
  | .oracleTypeRaw => some .bytes
  | .oracleTypeNumber => some .double
  | .oracleTypeBinaryFloat => some .float
  | .oracleTypeBinaryDouble => some .double
  | .oracleTypeDate | .oracleTypeTimestamp | .oracleTypeTimestampTZ => some .timestamp
  | .oracleTypeIntervalDS => some .intervalDS
  | .oracleTypeIntervalYM => some .intervalYM
  | .oracleTypeClob | .oracleTypeBlob => some .lob
  | .oracleTypeBoolean => some .boolean
  | .oracleTypeUnknown num => otherNativeType num

/-- A NUMBER whose precision and scale say that it fits an `int64_t`. -/
def IntegerNumber (info : DpiDataTypeInfo) : Prop :=
  info.oracleTypeNum = .number ∧ info.scale = 0 ∧ 0 < info.precision ∧ info.precision ≤ 18

instance (info : DpiDataTypeInfo) : Decidable (IntegerNumber info) :=
  inferInstanceAs (Decidable (_ ∧ _ ∧ _ ∧ _))

/-- The native type a query column is fetched as. -/
def populateTypeInfo (info : DpiDataTypeInfo) : Option DpiNativeTypeNum :=
  if IntegerNumber info then some .int64
  else defaultNativeType (fromOracleTypeNum info.oracleTypeNum)

/-- The Oracle type of the variable ODPI-C creates for a value bound by name. -/
def createBindVar : DpiNativeTypeNum → Option DpiOracleTypeNum
  | .int64 | .uint64 | .float | .double => some .number
  | .bytes => some .varchar
  | .timestamp => some .timestamp
  | .intervalDS => some .intervalDS
  | .intervalYM => some .intervalYM
  | .object => some .object
  | .rowid => some .rowid
  | .boolean => some .boolean
  | .lob | .stmt | .json | .jsonObject | .jsonArray | .vector => none

/-- A failure: Oracle's own number and text, or a numbered error of ODPI-C itself. -/
inductive DpiError where
  | oracle (num : { code : Int32 // code ≠ 0 }) (text : String)
  | odpi (num : { num : Nat // 1000 ≤ num ∧ num < 10000 }) (text : String)

/-- The failure of a call that ODPI-C does not support. -/
def DpiError.unsupported : DpiError := .odpi ⟨1013, by decide⟩ "not supported"

def isSpace (c : Char) : Bool := c = ' ' || ('\t' ≤ c && c ≤ '\r')

/-- What `dpiOci__errorGet` keeps of a text: it strips trailing whitespace after the first
character. -/
def stripTrailing : List Char → List Char
  | [] => []
  | c :: rest => c :: (rest.reverse.dropWhile isSpace).reverse

/-- The digits of a four-digit number, as `printf` writes them. -/
def fourDigits (n : Nat) : List Char :=
  [Nat.digitChar (n / 1000), Nat.digitChar (n / 100 % 10), Nat.digitChar (n / 10 % 10),
    Nat.digitChar (n % 10)]

namespace DpiError

/-- The `code` field of `dpiErrorInfo`, which is 0 for the errors of ODPI-C itself. -/
def code : DpiError → Int32
  | oracle num _ => num
  | odpi _ _ => 0

/-- The text in the error buffer. -/
def text : DpiError → String
  | oracle _ text => text
  | odpi num text => String.ofList ("DPI-".toList ++ fourDigits num ++ ": ".toList ++ text.toList)

/-- The message that ODPI-C reports, which is as much of the text as `messageLength` says. -/
def message : DpiError → String
  | oracle _ text => String.ofList (stripTrailing text.toList)
  | odpi num text => (odpi num text).text

/-- The number that identifies the failure. -/
def number : DpiError → Int32
  | oracle num _ => num
  | odpi num _ => Int32.ofNat num

/-- The text ends in no whitespace that ODPI-C strips. -/
def Trimmed : DpiError → Prop
  | oracle _ text => ∀ c ∈ text.toList.tail.getLast?, isSpace c = false
  | odpi _ _ => True

theorem text_oracle (num : { code : Int32 // code ≠ 0 }) (text : String) :
    (oracle num text).text = text := rfl

theorem message_oracle (num : { code : Int32 // code ≠ 0 }) (text : String) :
    (oracle num text).message = String.ofList (stripTrailing text.toList) := rfl

theorem message_odpi (num : { num : Nat // 1000 ≤ num ∧ num < 10000 }) (text : String) :
    (odpi num text).message = (odpi num text).text := rfl

theorem text_odpi (num : { num : Nat // 1000 ≤ num ∧ num < 10000 }) (text : String) :
    (odpi num text).text =
      String.ofList ("DPI-".toList ++ fourDigits num ++ ": ".toList ++ text.toList) := rfl

end DpiError

/-- A request to ODPI-C that can fail. -/
inductive Req where
  | contextCreate
  | connCreate (username password connectString : List UInt8)
  | connCommit (conn : DpiConn)
  | connRollback (conn : DpiConn)
  | connPrepareStmt (conn : DpiConn) (sql : List UInt8)
  | connNewVar (conn : DpiConn) (oracleType : DpiOracleTypeNum) (nativeType : DpiNativeTypeNum)
  | stmtBindByName (stmt : DpiStmt) (name : List UInt8) (var : DpiVar)
  | stmtBindValueByName (stmt : DpiStmt) (name : List UInt8) (nativeType : DpiNativeTypeNum)
      (data : DpiData)
  | stmtExecute (stmt : DpiStmt)
  | stmtFetch (stmt : DpiStmt)
  | stmtGetNumQueryColumns (stmt : DpiStmt)
  | stmtGetQueryInfo (stmt : DpiStmt) (pos : UInt32)
  | stmtGetQueryValue (stmt : DpiStmt) (pos : UInt32)
  | lobGetSize (lob : DpiLob)
  | lobGetBufferSize (lob : DpiLob) (sizeInChars : UInt64)
  | lobReadBytes (lob : DpiLob) (offset amount valueLength : UInt64)

/-- What a request writes through its output parameters when it succeeds. -/
@[reducible] def Req.Resp : Req → Type
  | contextCreate => Unit
  | connCreate .. => DpiConn
  | connCommit _ => Unit
  | connRollback _ => Unit
  | connPrepareStmt .. => DpiStmt
  | connNewVar .. => DpiVar
  | stmtBindByName .. => Unit
  | stmtBindValueByName .. => Unit
  | stmtExecute _ => Unit
  | stmtFetch _ => Bool
  | stmtGetNumQueryColumns _ => UInt32
  | stmtGetQueryInfo .. => DpiQueryInfo
  | stmtGetQueryValue .. => DpiNativeTypeNum × DpiData
  | lobGetSize _ => UInt64
  | lobGetBufferSize .. => UInt64
  | lobReadBytes .. => List UInt8

end IdrisOracle
