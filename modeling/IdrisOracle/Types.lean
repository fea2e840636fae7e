import Mathlib.Tactic.Common
import Mathlib.Data.Nat.Init
import Mathlib.Data.Int.Init

/-! The values, errors and parameters the library exchanges with its callers. -/

namespace IdrisOracle

/-- Oracle database error returned from ODPI-C. -/
structure OracleError where
  code : Int32
  message : String
  fnname : String
  recoverable : Bool
deriving DecidableEq

/-- What a library operation returns. -/
abbrev Outcome (α : Type) := Except OracleError α

abbrev ByteString := List UInt8

structure OracleDate where
  year : Int32
  month : Int32
  day : Int32
  hour : Int32
  minute : Int32
  second : Int32
deriving DecidableEq

structure OracleTimestamp where
  year : Int32
  month : Int32
  day : Int32
  hour : Int32
  minute : Int32
  second : Int32
  nanosecond : Int32
deriving DecidableEq

structure OracleTimestampTZ where
  year : Int32
  month : Int32
  day : Int32
  hour : Int32
  minute : Int32
  second : Int32
  nanosecond : Int32
  tzHourOffset : Int32
  tzMinuteOffset : Int32
deriving DecidableEq

structure OracleIntervalYM where
  years : Int32
  months : Int32
deriving DecidableEq

structure OracleIntervalDS where
  days : Int32
  hours : Int32
  minutes : Int32
  seconds : Int32
  nanoseconds : Int32
deriving DecidableEq

/-- A value exchanged with Oracle, as a bind parameter or in a query result. -/
inductive OracleValue where
  | oracleNull
  | oracleString (text : String)
  | oracleNumber (number : Float)
  | oracleBinaryFloat (number : Float)
  | oracleBinaryDouble (number : Float)
  | oracleBool (value : Bool)
  | oracleRaw (bytes : ByteString)
  | oracleClob (text : String)
  | oracleBlob (bytes : ByteString)
  | oracleDate (date : OracleDate)
  | oracleTimestamp (timestamp : OracleTimestamp)
  | oracleTimestampTZ (timestamp : OracleTimestampTZ)
  | oracleIntervalYM (interval : OracleIntervalYM)
  | oracleIntervalDS (interval : OracleIntervalDS)
deriving DecidableEq

/-- Named bind parameter. -/
structure BindParameter where
  name : String
  value : OracleValue
deriving DecidableEq

inductive OracleType where
  | oracleTypeVarchar
  | oracleTypeChar
  | oracleTypeNVarchar
  | oracleTypeNChar
  | oracleTypeRaw
  | oracleTypeNumber
  | oracleTypeBinaryFloat
  | oracleTypeBinaryDouble
  | oracleTypeDate
  | oracleTypeTimestamp
  | oracleTypeTimestampTZ
  | oracleTypeIntervalYM
  | oracleTypeIntervalDS
  | oracleTypeClob
  | oracleTypeBlob
  | oracleTypeBoolean
  | oracleTypeUnknown (num : Int32)
deriving DecidableEq

/-- Convert an ODPI-C Oracle type number into an Idris representation. -/
def fromOracleTypeNum : Int32 → OracleType
  | 2001 => .oracleTypeVarchar
  | 2003 => .oracleTypeChar
  | 2002 => .oracleTypeNVarchar
  | 2004 => .oracleTypeNChar
  | 2006 => .oracleTypeRaw
  | 2010 => .oracleTypeNumber
  | 2007 => .oracleTypeBinaryFloat
  | 2008 => .oracleTypeBinaryDouble
  | 2011 => .oracleTypeDate
  | 2012 => .oracleTypeTimestamp
  | 2013 => .oracleTypeTimestampTZ
  | 2015 => .oracleTypeIntervalDS
  | 2016 => .oracleTypeIntervalYM
  | 2017 => .oracleTypeClob
  | 2019 => .oracleTypeBlob
  | 2022 => .oracleTypeBoolean
  | n => .oracleTypeUnknown n

/-- The types whose values are LOB locators. -/
def OracleType.IsLob (ty : OracleType) : Prop := ty = .oracleTypeClob ∨ ty = .oracleTypeBlob

instance (ty : OracleType) : Decidable ty.IsLob := inferInstanceAs (Decidable (_ ∨ _))

structure ColumnInfo where
  name : String
  oracletype : OracleType
  size : Nat
  nullable : Bool
deriving DecidableEq

/-- Connection information required to establish a connection to an Oracle database. -/
structure ConnectInfo where
  username : String
  password : String
  host : String
  port : Nat
  service : String
deriving DecidableEq

/-- How a raw row is shown inside an error message. -/
class ShowRow where
  showRow : List OracleValue → String

end IdrisOracle
