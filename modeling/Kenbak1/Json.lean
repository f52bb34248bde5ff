/-
  Kenbak1.Json

  JSON values with integer numbers, and the two ways of writing them: without any blanks, or
  with one member a line and two blanks a level.
-/
import Kenbak1.Column

namespace Kenbak1

/-- A JSON value. Members of an object keep their order. -/
inductive Json where
  | null
  | bool (b : Bool)
  | number (n : Int)
  | text (s : String)
  | list (items : List Json)
  | object (members : List (String × Json))

namespace Json

/-- A byte. -/
def byte (b : UInt8) : Json :=
  .number b.toNat

/-- A value that may be absent. -/
def option {α : Type} (f : α → Json) (value : Option α) : Json :=
  match value with
  | some a => f a
  | none => .null

/-! ## Texts -/

/-- A character as it stands in a JSON text: quotes, backslashes and control characters are
    escaped. -/
def escaped (c : Char) : String :=
  match c with
  | '"' => "\\\""
  | '\\' => "\\\\"
  | '\x08' => "\\b"
  | '\x0c' => "\\f"
  | '\n' => "\\n"
  | '\r' => "\\r"
  | '\t' => "\\t"
  | c =>
    if c.toNat < 0x20 then
      "\\u00" ++ String.ofList (Nat.toDigits 16 (c.toNat / 16))
        ++ String.ofList (Nat.toDigits 16 (c.toNat % 16))
    else c.toString

/-- A text between quotes. -/
def quote (s : String) : String :=
  "\"" ++ String.join (s.toList.map escaped) ++ "\""

/-! ## Without blanks -/

mutual

/-- A value without blanks. -/
def compact : Json → String
  | .null => "null"
  | .bool b => if b then "true" else "false"
  | .number n => toString n
  | .text s => quote s
  | .list items => "[" ++ joined "," (compactItems items) ++ "]"
  | .object members => "\x7b" ++ joined "," (compactMembers members) ++ "\x7d"

/-- Items without blanks. -/
def compactItems : List Json → List String
  | [] => []
  | item :: rest => item.compact :: compactItems rest

/-- Members without blanks. -/
def compactMembers : List (String × Json) → List String
  | [] => []
  | (key, value) :: rest => (quote key ++ ":" ++ value.compact) :: compactMembers rest

end

/-! ## One member a line -/

/-- A new line at a level, two blanks a level. -/
def newLine (level : Nat) : String :=
  "\n" ++ String.ofList (List.replicate (2 * level) ' ')

/-- Parts between brackets, one a line at the level above `level`. -/
def stacked (level : Nat) (opening closing : String) (parts : List String) : String :=
  match parts with
  | [] => opening ++ closing
  | _ => opening ++ newLine (level + 1) ++ joined ("," ++ newLine (level + 1)) parts
      ++ newLine level ++ closing

mutual

/-- A value with one member a line, its brackets standing at `level`. -/
def prettyAt (level : Nat) : Json → String
  | .null => "null"
  | .bool b => if b then "true" else "false"
  | .number n => toString n
  | .text s => quote s
  | .list items => stacked level "[" "]" (prettyItems (level + 1) items)
  | .object members => stacked level "\x7b" "\x7d" (prettyMembers (level + 1) members)

/-- Items with one member a line. -/
def prettyItems (level : Nat) : List Json → List String
  | [] => []
  | item :: rest => item.prettyAt level :: prettyItems level rest

/-- Members with one member a line. -/
def prettyMembers (level : Nat) : List (String × Json) → List String
  | [] => []
  | (key, value) :: rest => (quote key ++ ": " ++ value.prettyAt level) :: prettyMembers level rest

end

/-- A value with one member a line. -/
def pretty (value : Json) : String :=
  value.prettyAt 0

end Json

end Kenbak1
