import PinnedPool.Decimal.Shortest
import PinnedPool.Text.Quoted

/-! # Why a configuration text is refused

A cause is what went wrong; its message is the only place that words it. A fault is a cause with
the bytes that follow the place it is reported at.
-/
namespace PinnedPool.Json

abbrev Bytes := List UInt8

/-- A value that stands where another type is expected. -/
inductive Found where
  | null
  | flag (b : Bool)
  | integer (n : Int)
  | float (negative : Bool) (f : Decimal.Binary64)
  | text (s : String)
  | sequence
  | map
deriving DecidableEq, Repr

inductive Cause where
  | endInValue
  | endInObject
  | endInList
  | endInText
  | expectedColon
  | expectedListEnd
  | expectedObjectEnd
  | expectedIdent
  | expectedValue
  | invalidEscape
  | invalidNumber
  | numberOutOfRange
  | controlCharacter
  | keyMustBeString
  | loneSurrogate
  | brokenSurrogatePair
  | trailingComma
  | trailingCharacters
  | invalidType (found : Found) (expected : String)
  | invalidValue (found : Found) (expected : String)
  | duplicateField (name : String)
deriving DecidableEq, Repr

/-- Floats are written positionally from five places after the point to sixteen before it. -/
def Found.layout : Decimal.Layout := ⟨-5, 15⟩

def Found.describe : Found → String
  | .null => "null"
  | .flag b => "boolean `" ++ toString b ++ "`"
  | .integer n => "integer `" ++ toString n ++ "`"
  | .float negative f => "floating point `" ++ layout.text negative f ++ "`"
  | .text s => "string " ++ Text.quoted s
  | .sequence => "sequence"
  | .map => "map"

def Cause.message : Cause → String
  | .endInValue => "EOF while parsing a value"
  | .endInObject => "EOF while parsing an object"
  | .endInList => "EOF while parsing a list"
  | .endInText => "EOF while parsing a string"
  | .expectedColon => "expected `:`"
  | .expectedListEnd => "expected `,` or `]`"
  | .expectedObjectEnd => "expected `,` or `\x7d`"
  | .expectedIdent => "expected ident"
  | .expectedValue => "expected value"
  | .invalidEscape => "invalid escape"
  | .invalidNumber => "invalid number"
  | .numberOutOfRange => "number out of range"
  | .controlCharacter => "control character (\\u0000-\\u001F) found while parsing a string"
  | .keyMustBeString => "key must be a string"
  | .loneSurrogate => "lone leading surrogate in hex escape"
  | .brokenSurrogatePair => "unexpected end of hex escape"
  | .trailingComma => "trailing comma"
  | .trailingCharacters => "trailing characters"
  | .invalidType found expected => "invalid type: " ++ found.describe ++ ", expected " ++ expected
  | .invalidValue found expected => "invalid value: " ++ found.describe ++ ", expected " ++ expected
  | .duplicateField name => "duplicate field `" ++ name ++ "`"

/-- A cause and the bytes after the place it is reported at. -/
structure Fault where
  cause : Cause
  rest : Bytes
deriving DecidableEq, Repr

/-- A fault on the byte looked at: that byte counts as passed. -/
def Fault.atByte (c : Cause) (s : Bytes) : Fault := ⟨c, s.drop 1⟩

end PinnedPool.Json
