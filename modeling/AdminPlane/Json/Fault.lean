import AdminPlane.Decimal.Numeral
import AdminPlane.Decimal.Shortest
import AdminPlane.Text.Ascii
import AdminPlane.Text.Quoted

namespace AdminPlane.Json

/-- A number as read: integers of 64 bits are exact, every other number is a binary fraction. -/
inductive Number where
  | natural (n : Nat)
  | negative (n : Int)
  | fraction (minus : Bool) (magnitude : Decimal.Binary64)
deriving DecidableEq, Repr

/-- What was found where another kind of value was expected. -/
inductive Found where
  | null
  | bool (b : Bool)
  | number (n : Number)
  | string (s : String)
  | sequence
  | map
deriving DecidableEq, Repr

/-- Numbers up to sixteen digits before the point, or four zeros after it, have no exponent. -/
def fractionLayout : Decimal.Shortest.Layout := ⟨-5, 15⟩

def Found.text : Found → String
  | null => "null"
  | bool b => if b then "boolean `true`" else "boolean `false`"
  | number (.natural n) => "integer `" ++ Decimal.natural n ++ "`"
  | number (.negative n) => "integer `" ++ Decimal.integer n ++ "`"
  | number (.fraction minus x) => "floating point `" ++ fractionLayout.write minus x ++ "`"
  | string s => "string " ++ Text.quoted s
  | sequence => "sequence"
  | map => "map"

/-- Why a document is refused. -/
inductive Cause where
  | eofInValue
  | eofInList
  | eofInObject
  | eofInString
  | expectedColon
  | expectedListEnd
  | expectedObjectEnd
  | expectedValue
  | expectedIdent
  | keyNotString
  | trailingComma
  | trailingCharacters
  | invalidEscape
  | invalidNumber
  | numberOutOfRange
  | controlCharacter
  | loneSurrogate
  | endOfHexEscape
  | invalidCodePoint
  | wrongType (found : Found) (expected : String)
  | wrongValue (found : Found) (expected : String)
  | wrongLength (length : Nat) (expected : String)
  | missingField (name : String)
  | duplicateField (name : String)
  | unknownVariant (name : String) (variants : List String)
deriving DecidableEq, Repr

def Cause.message : Cause → String
  | eofInValue => "EOF while parsing a value"
  | eofInList => "EOF while parsing a list"
  | eofInObject => "EOF while parsing an object"
  | eofInString => "EOF while parsing a string"
  | expectedColon => "expected `:`"
  | expectedListEnd => "expected `,` or `]`"
  | expectedObjectEnd => "expected `,` or `\x7d`"
  | expectedValue => "expected value"
  | expectedIdent => "expected ident"
  | keyNotString => "key must be a string"
  | trailingComma => "trailing comma"
  | trailingCharacters => "trailing characters"
  | invalidEscape => "invalid escape"
  | invalidNumber => "invalid number"
  | numberOutOfRange => "number out of range"
  | controlCharacter => "control character (\\u0000-\\u001F) found while parsing a string"
  | loneSurrogate => "lone leading surrogate in hex escape"
  | endOfHexEscape => "unexpected end of hex escape"
  | invalidCodePoint => "invalid unicode code point"
  | wrongType found expected => "invalid type: " ++ found.text ++ ", expected " ++ expected
  | wrongValue found expected => "invalid value: " ++ found.text ++ ", expected " ++ expected
  | wrongLength length expected =>
    "invalid length " ++ Decimal.natural length ++ ", expected " ++ expected
  | missingField name => "missing field `" ++ name ++ "`"
  | duplicateField name => "duplicate field `" ++ name ++ "`"
  | unknownVariant name variants =>
    "unknown variant `" ++ name ++ "`, expected one of " ++
      ", ".intercalate (variants.map fun v => "`" ++ v ++ "`")

/-- A cause, and how many bytes of the document lie behind the place it is reported at. -/
structure Fault where
  cause : Cause
  left : Nat
deriving DecidableEq, Repr

/-- A cause with its place: lines count from one, columns are bytes of the line before the place. -/
structure Error where
  cause : Cause
  line : Nat
  column : Nat
deriving DecidableEq, Repr

def Fault.locate (fault : Fault) (document : List UInt8) : Error :=
  let before := document.take (document.length - fault.left)
  ⟨fault.cause, before.count Text.Ascii.lineFeed + 1,
    (before.reverse.takeWhile (· ≠ Text.Ascii.lineFeed)).length⟩

def Error.message (e : Error) : String :=
  e.cause.message ++ " at line " ++ Decimal.natural e.line ++ " column " ++
    Decimal.natural e.column

end AdminPlane.Json
