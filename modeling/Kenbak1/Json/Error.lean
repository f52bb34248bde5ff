/-
  Kenbak1.Json.Error

  What can be wrong with a JSON text, or with a value for the purpose it is read for, and
  where. A position is a line and the number of bytes of that line read so far.
-/
import Kenbak1.Column
import Kenbak1.Quoted

namespace Kenbak1.Json

/-- A place in a text. -/
structure Position where
  line : Nat
  column : Nat
  deriving DecidableEq

/-- What stands where something else was expected. -/
inductive Found where
  | null
  | bool (b : Bool)
  | integer (n : Int)
  /-- A number with a fraction or exponent, or beyond the integers, as text. -/
  | decimal (text : String)
  | text (s : String)
  | sequence
  | map
  /-- The bare name of a variant that carries a value. -/
  | bareVariant
  deriving DecidableEq

/-- A name between backquotes. -/
def ticked (name : String) : String :=
  "`" ++ name ++ "`"

/-- What was found, in a message. -/
def Found.describe : Found → String
  | .null => "null"
  | .bool b => "boolean " ++ ticked (if b then "true" else "false")
  | .integer n => "integer " ++ ticked (toString n)
  | .decimal digits => "floating point " ++ ticked digits
  | .text s => "string " ++ quoted s
  | .sequence => "sequence"
  | .map => "map"
  | .bareVariant => "unit variant"

/-- What is wrong. -/
inductive Problem where
  | endInValue
  | endInObject
  | endInList
  | endInText
  | keyNotText
  | noColon
  | noListEnd
  | noObjectEnd
  | trailingComma
  | trailingCharacters
  | noValue
  | badWord
  | badNumber
  | numberTooLarge
  | badEscape
  | loneSurrogate
  | openSurrogate
  | controlCharacter
  | wrongType (found : Found) (expected : String)
  | wrongValue (found : Int) (expected : String)
  | wrongLength (found : Nat) (expected : String)
  | missingField (name : String)
  | duplicateField (name : String)
  | unknownVariant (name : String) (expected : List String)
  deriving DecidableEq

/-- The names of which one is expected. -/
def alternatives : List String → String
  | [] => "there are no variants"
  | [a] => "expected " ++ ticked a
  | [a, b] => "expected " ++ ticked a ++ " or " ++ ticked b
  | names => "expected one of " ++ joined ", " (names.map ticked)

/-- A problem in words. -/
def Problem.describe : Problem → String
  | .endInValue => "EOF while parsing a value"
  | .endInObject => "EOF while parsing an object"
  | .endInList => "EOF while parsing a list"
  | .endInText => "EOF while parsing a string"
  | .keyNotText => "key must be a string"
  | .noColon => "expected " ++ ticked ":"
  | .noListEnd => "expected " ++ ticked "," ++ " or " ++ ticked "]"
  | .noObjectEnd => "expected " ++ ticked "," ++ " or " ++ ticked "\x7d"
  | .trailingComma => "trailing comma"
  | .trailingCharacters => "trailing characters"
  | .noValue => "expected value"
  | .badWord => "expected ident"
  | .badNumber => "invalid number"
  | .numberTooLarge => "number out of range"
  | .badEscape => "invalid escape"
  | .loneSurrogate => "lone leading surrogate in hex escape"
  | .openSurrogate => "unexpected end of hex escape"
  | .controlCharacter => "control character (\\u0000-\\u001F) found while parsing a string"
  | .wrongType found expected => "invalid type: " ++ found.describe ++ ", expected " ++ expected
  | .wrongValue found expected =>
      "invalid value: " ++ (Found.integer found).describe ++ ", expected " ++ expected
  | .wrongLength found expected =>
      "invalid length " ++ toString found ++ ", expected " ++ expected
  | .missingField name => "missing field " ++ ticked name
  | .duplicateField name => "duplicate field " ++ ticked name
  | .unknownVariant name expected =>
      "unknown variant " ++ ticked name ++ ", " ++ alternatives expected

/-- A problem and its place, where it has one. -/
structure Error where
  problem : Problem
  position : Option Position
  deriving DecidableEq

/-- The report of an error. -/
def Error.message (e : Error) : String :=
  match e.position with
  | some p =>
      e.problem.describe ++ " at line " ++ toString p.line ++ " column " ++ toString p.column
  | none => e.problem.describe

end Kenbak1.Json
