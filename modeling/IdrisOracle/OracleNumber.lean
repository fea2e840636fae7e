import Mathlib.Data.List.DropRight
import IdrisOracle.FetchWindow

/-! Oracle numbers: the text that stands for one, and the bytes that hold it. -/

namespace IdrisOracle

namespace DpiError

def notSupported : DpiError := ofNum 1013 "not supported"
def bufferSizeTooSmall (size : Nat) : DpiError :=
  ofNum 1019 ("buffer size of " ++ toString size ++ " is too small")
def invalidOciNumber : DpiError := ofNum 1042 "invalid OCI number"
def invalidNumber : DpiError := ofNum 1043 "invalid number"
def numberNoRepr : DpiError := ofNum 1044 "value cannot be represented as an Oracle number"
def numberStringTooLong : DpiError :=
  ofNum 1045 "strings converted to numbers can only be up to 172 characters long"

end DpiError

/-- The value of `DPI_NUMBER_AS_TEXT_CHARS`. -/
def numberAsTextChars : Nat := 172

/-- The value of `DPI_NUMBER_MAX_DIGITS`. -/
def numberMaxDigits : Nat := 40

/-- The value of `DPI_OCI_NUMBER_SIZE`. -/
def ociNumberSize : Nat := 22

/-- The parts of a number, whose digits follow a decimal point that is then moved. -/
structure NumberParts where
  isNegative : Bool
  decimalPointIndex : Int
  digits : List UInt8
  deriving DecidableEq

abbrev Parses (α : Type) := Except DpiError α

def isDigitChar (c : UInt8) : Bool := 48 ≤ c ∧ c ≤ 57

def isExponentChar (c : UInt8) : Bool := c = 101 ∨ c = 69

/-- What a scan for digits has found: the digits, the zeros before them and the text left. -/
structure DigitScan where
  digits : List UInt8
  skipped : Nat
  rest : List UInt8

/-- Scan for digits until one of the characters at which to stop is found. -/
def scanDigits (stop : UInt8 → Bool) (digits : List UInt8) (skipped : Nat) :
    List UInt8 → Parses DigitScan
  | [] => .ok ⟨digits, skipped, []⟩
  | c :: rest =>
      if stop c then .ok ⟨digits, skipped, c :: rest⟩
      else if isDigitChar c = false then .error .invalidNumber
      else if c = 48 ∧ digits = [] then scanDigits stop digits (skipped + 1) rest
      else scanDigits stop (digits ++ [c - 48]) skipped rest

/-- Scan for the digits of an exponent, of which there are at most three. -/
def scanExponent (exponentDigits : List UInt8) : List UInt8 → Parses (List UInt8)
  | [] => .ok exponentDigits
  | c :: rest =>
      if isDigitChar c = false then .error .invalidNumber
      else if exponentDigits.length = 3 then .error .notSupported
      else scanExponent (exponentDigits ++ [c]) rest

/-- The result of `strtol` on digits alone. -/
def strtolDigits (text : List UInt8) : Int :=
  text.foldl (fun n c => n * 10 + (c.toNat - 48 : Int)) 0

/-- The sign of an exponent, if there is one. -/
def exponentSign : List UInt8 → Bool × List UInt8
  | c :: rest => if c = 43 ∨ c = 45 then (decide (c = 45), rest) else (false, c :: rest)
  | [] => (false, [])

def parseExponent (text : List UInt8) : Parses Int := do
  let (exponentIsNegative, rest) := exponentSign text
  let exponentDigits ← scanExponent [] rest
  if exponentDigits = [] then throw .invalidNumber
  else
    return if exponentIsNegative then -strtolDigits exponentDigits
      else strtolDigits exponentDigits

/-- The digits after the decimal point, if there is one, before which zeros move the point. -/
def scanFraction (whole : DigitScan) : Parses (DigitScan × Int) := do
  match whole.rest with
  | [] => return (whole, whole.digits.length)
  | c :: rest =>
      if c = 46 then
        let fraction ← scanDigits isExponentChar whole.digits 0 rest
        return (fraction, whole.digits.length - fraction.skipped)
      else return (whole, whole.digits.length)

/-- The exponent, if there is one; nothing may follow the number. -/
def scanTail : List UInt8 → Parses Int
  | [] => return 0
  | c :: rest => if isExponentChar c then parseExponent rest else throw .invalidNumber

def stripTrailingZeros (digits : List UInt8) : List UInt8 := digits.rdropWhile (· = 0)

/-- The number of digits and the magnitude that an Oracle number can have. -/
def NumberParts.InRange (parts : NumberParts) : Prop :=
  parts.digits.length ≤ numberMaxDigits ∧ parts.decimalPointIndex ≤ 126 ∧
    -129 ≤ parts.decimalPointIndex

instance (parts : NumberParts) : Decidable parts.InRange :=
  inferInstanceAs (Decidable (_ ∧ _ ∧ _))

def numberSign : List UInt8 → Bool × List UInt8
  | c :: rest => if c = 45 then (true, rest) else (false, c :: rest)
  | [] => (false, [])

def dpiUtilsParseNumberString (value : List UInt8) : Parses NumberParts := do
  if value = [] then throw .invalidNumber
  else if numberAsTextChars < value.length then throw .numberStringTooLong
  else
    let (isNegative, value) := numberSign value
    let whole ← scanDigits (fun c => c = 46 || isExponentChar c) [] 0 value
    let (scan, decimalPointIndex) ← scanFraction whole
    let exponent ← scanTail scan.rest
    let parts : NumberParts :=
      ⟨isNegative, decimalPointIndex + exponent, stripTrailingZeros scan.digits⟩
    if parts.InRange then return parts else throw .numberNoRepr

/-- The digits in pairs, the first of which is one digit when a zero was prepended. -/
def numberPairs : Bool → Nat → List UInt8 → List UInt8
  | _, 0, _ => []
  | true, n + 1, digit :: source => digit :: numberPairs false n source
  | false, n + 1, high :: low :: source => (high * 10 + low) :: numberPairs false n source
  | _, _ + 1, _ => []

def mantissaByte (isNegative : Bool) (byte : UInt8) : UInt8 :=
  if isNegative then 101 - byte else byte + 1

def exponentByte (isNegative : Bool) (decimalPointIndex : Int) : UInt8 :=
  let ociExponent := UInt8.ofInt ((decimalPointIndex - 2).tdiv 2 + 193)
  if isNegative then ~~~ociExponent else ociExponent

/-- Whether the exponent is odd. -/
def prependZero (decimalPointIndex : Int) : Bool :=
  (0 < decimalPointIndex ∧ decimalPointIndex.tmod 2 = 1) ∨
    (decimalPointIndex < 0 ∧ decimalPointIndex.tmod 2 = -1)

/-- The digits with a zero for each that makes up their pairs. -/
def paddedDigits (parts : NumberParts) : List UInt8 :=
  let digits := if prependZero parts.decimalPointIndex ∧ parts.digits ≠ [] then
    parts.digits ++ [0] else parts.digits
  if digits.length % 2 = 1 then digits ++ [0] else digits

/-- The bytes that are written for a number from its parts. -/
def oracleNumberBytes (parts : NumberParts) : List UInt8 :=
  let prepend := prependZero parts.decimalPointIndex
  let decimalPointIndex :=
    if prepend ∧ parts.digits ≠ [] then parts.decimalPointIndex + 1 else parts.decimalPointIndex
  let digits := paddedDigits parts
  let numPairs := digits.length / 2
  let appendSentinel := parts.isNegative ∧ 0 < digits.length ∧ digits.length < numberMaxDigits
  let lengthByte := UInt8.ofNat (numPairs + 1 + if appendSentinel then 1 else 0)
  if digits = [] then [lengthByte, 128]
  else
    lengthByte :: exponentByte parts.isNegative decimalPointIndex ::
      ((numberPairs prepend numPairs digits).map (mantissaByte parts.isNegative) ++
        if appendSentinel then [102] else [])

def toOracleNumberFromText (value : List UInt8) : Parses (List UInt8) := do
  let parts ← dpiUtilsParseNumberString value
  return oracleNumberBytes parts

/-- The digits of mantissa byte `i`, and by how much they move the decimal point. -/
def mantissaDigits (isNegative : Bool) (length i : Nat) (byte : UInt8) : List UInt8 × Int :=
  let byte := if isNegative then 101 - byte else byte - 1
  let low := if byte % 10 = 0 ∧ i + 1 = length then [] else [byte % 10]
  if byte / 10 = 0 ∧ i = 0 then (low, -1)
  else if byte / 10 = 10 then (1 :: 0 :: low, 1)
  else (byte / 10 :: low, 0)

/-- Process the mantissa from byte `i` on. -/
def scanMantissa (isNegative : Bool) (length : Nat) :
    Nat → List UInt8 → List UInt8 × Int
  | _, [] => ([], 0)
  | i, byte :: source =>
      let (digits, shift) := mantissaDigits isNegative length i byte
      let (digits', shift') := scanMantissa isNegative length (i + 1) source
      (digits ++ digits', shift + shift')

/-- The mantissa without the byte that ends those of negative numbers. -/
def dropSentinel (isNegative : Bool) (mantissa : List UInt8) : List UInt8 :=
  if isNegative ∧ mantissa.getLast? = some 102 then mantissa.dropLast else mantissa

/-- The parts of a number from the bytes it is held in. -/
def dpiUtilsParseOracleNumber (length exponent : UInt8) (source : List UInt8) :
    Parses NumberParts :=
  let length := (length - 1).toNat
  let isNegative : Bool := exponent &&& 0x80 = 0
  let ociExponent := (if isNegative then ~~~exponent.toInt8 else exponent.toInt8) - 193
  let decimalPointIndex := ociExponent.toInt * 2 + 2
  if 20 < length then .error .invalidOciNumber
  else if length = 0 then
    if isNegative then .ok ⟨true, 127, [1]⟩ else .ok ⟨false, 1, [0]⟩
  else
    let mantissa := dropSentinel isNegative (source.take length)
    let (digits, shift) := scanMantissa isNegative mantissa.length 0 mantissa
    .ok ⟨isNegative, decimalPointIndex + shift, digits⟩

/-- The digits from index `i` on, with the decimal point where it lies between two of them. -/
def digitsText (decimalPointIndex : Int) : Nat → List UInt8 → List UInt8
  | _, [] => []
  | i, digit :: digits =>
      (if 0 < i ∧ (i : Int) = decimalPointIndex then [46] else []) ++
        (48 + digit) :: digitsText decimalPointIndex (i + 1) digits

def numberText (parts : NumberParts) : List UInt8 :=
  (if parts.isNegative then [45] else []) ++
    (if parts.decimalPointIndex ≤ 0 then
      48 :: 46 :: List.replicate (-parts.decimalPointIndex).toNat 48 else []) ++
    digitsText parts.decimalPointIndex 0 parts.digits ++
    List.replicate (parts.decimalPointIndex - parts.digits.length).toNat 48

/-- The number of bytes that are required for the text. -/
def numberTextSize (parts : NumberParts) : Nat :=
  parts.digits.length + (if parts.isNegative then 1 else 0) +
    if parts.decimalPointIndex ≤ 0 then (-parts.decimalPointIndex + 2).toNat
    else if parts.decimalPointIndex < parts.digits.length then 1
    else (parts.decimalPointIndex - parts.digits.length).toNat

/-- The text of a number in a buffer of a size. -/
def fromOracleNumberAsText (size : Nat) (length exponent : UInt8) (source : List UInt8) :
    Parses (List UInt8) := do
  let parts ← dpiUtilsParseOracleNumber length exponent source
  if size < numberTextSize parts then throw (.bufferSizeTooSmall size)
  else return numberText parts

end IdrisOracle
