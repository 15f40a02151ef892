import NodeSwitcher.Json.Cursor
import NodeSwitcher.Decimal.Shortest
import NodeSwitcher.Text.Quoted
/-!
# Errors of reading a JSON text

An `Error` is a `Problem` and the place where it was found; its message is the
problem's text followed by ` at line L column C`.

Problems are of two kinds. Syntax problems are found by the scanner at the
character that breaks the grammar. Shape problems are found by a typed reader: a
value of the wrong type (`wrongType`, naming what was `Found`), a sequence form
with too few elements, a missing or repeated member of a record.
-/

namespace NodeSwitcher.Json

/-- What stands where a value of another type was wanted. -/
inductive Found where
  | null
  | bool (b : Bool)
  | unsigned (n : Nat)
  | signed (n : Int)
  | float (f : Float)
  | string (s : String)
  | array
  | object

/-- How an error message names what was found. -/
def Found.describe : Found → String
  | .null => "null"
  | .bool b => "boolean `" ++ toString b ++ "`"
  | .unsigned n => "integer `" ++ toString n ++ "`"
  | .signed n => "integer `" ++ toString n ++ "`"
  | .float f => "floating point `" ++ Decimal.Layout.brief.show f ++ "`"
  | .string s => "string " ++ Text.quote s
  | .array => "sequence"
  | .object => "map"

/-- What went wrong while reading a JSON text. -/
inductive Problem where
  | eofInList
  | eofInObject
  | eofInString
  | eofInValue
  | expectedColon
  | expectedListCommaOrEnd
  | expectedObjectCommaOrEnd
  | expectedIdent
  | expectedValue
  | invalidEscape
  | invalidNumber
  | numberOutOfRange
  | controlCharacter
  | keyNotString
  | loneSurrogate
  | unexpectedEndOfHexEscape
  | trailingComma
  | trailingCharacters
  /-- A value was found where a value described by `wanted` belongs. -/
  | wrongType (found : Found) (wanted : String)
  /-- A sequence form ended after `count` elements. -/
  | wrongLength (count : Nat) (wanted : String)
  | missingField (name : String)
  | duplicateField (name : String)

/-- The text of a problem. -/
def Problem.message : Problem → String
  | .eofInList => "EOF while parsing a list"
  | .eofInObject => "EOF while parsing an object"
  | .eofInString => "EOF while parsing a string"
  | .eofInValue => "EOF while parsing a value"
  | .expectedColon => "expected `:`"
  | .expectedListCommaOrEnd => "expected `,` or `]`"
  | .expectedObjectCommaOrEnd => "expected `,` or `\x7d`"
  | .expectedIdent => "expected ident"
  | .expectedValue => "expected value"
  | .invalidEscape => "invalid escape"
  | .invalidNumber => "invalid number"
  | .numberOutOfRange => "number out of range"
  | .controlCharacter => "control character (\\u0000-\\u001F) found while parsing a string"
  | .keyNotString => "key must be a string"
  | .loneSurrogate => "lone leading surrogate in hex escape"
  | .unexpectedEndOfHexEscape => "unexpected end of hex escape"
  | .trailingComma => "trailing comma"
  | .trailingCharacters => "trailing characters"
  | .wrongType found wanted => "invalid type: " ++ found.describe ++ ", expected " ++ wanted
  | .wrongLength count wanted => "invalid length " ++ toString count ++ ", expected " ++ wanted
  | .missingField name => "missing field `" ++ name ++ "`"
  | .duplicateField name => "duplicate field `" ++ name ++ "`"

/-- A problem and the place where it was found. -/
structure Error where
  problem : Problem
  pos : Position

/-- The text of an error: the problem, then its line and column. -/
def Error.message (e : Error) : String :=
  e.problem.message ++ " at line " ++ toString e.pos.line ++ " column " ++ toString e.pos.column

/-- A result of reading: a value, or the first error. -/
abbrev Result (α : Type) := Except Error α

/-- Fails with a problem at a place. -/
def fail {α : Type} (problem : Problem) (pos : Position) : Result α :=
  .error ⟨problem, pos⟩

end NodeSwitcher.Json
