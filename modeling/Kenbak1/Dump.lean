/-
  Kenbak1.Dump

  Diagnostic forms of values. A dump is the shape of a value; it is written either on one
  line or with one field a line, four blanks a level and a comma after every field.
-/
import Kenbak1.Column

namespace Kenbak1

/-- The shape of a value. -/
inductive Dump where
  /-- A number or a plain name. -/
  | word (text : String)
  /-- A constructor with its arguments; without a name, a tuple. -/
  | apply (name : String) (arguments : List Dump)
  /-- A list. -/
  | list (items : List Dump)
  /-- A named record with its fields. -/
  | record (name : String) (fields : List (String × Dump))
  /-- A map with texts as keys. -/
  | map (entries : List (String × Dump))

namespace Dump

/-- A number. -/
def number (n : Nat) : Dump :=
  .word (toString n)

/-- A truth value. -/
def bool (b : Bool) : Dump :=
  .word (if b then "true" else "false")

/-- A value that may be absent. -/
def option (value : Option Dump) : Dump :=
  match value with
  | some d => .apply "Some" [d]
  | none => .word "None"

/-! ## One line -/

mutual

/-- The dump on one line. -/
def inline : Dump → String
  | .word text => text
  | .apply name arguments => name ++ "(" ++ joined ", " (inlineAll arguments) ++ ")"
  | .list items => "[" ++ joined ", " (inlineAll items) ++ "]"
  | .record name fields => name ++ " \x7b " ++ joined ", " (inlineFields fields) ++ " \x7d"
  | .map entries => "\x7b" ++ joined ", " (inlineEntries entries) ++ "\x7d"

/-- Each dump on one line. -/
def inlineAll : List Dump → List String
  | [] => []
  | d :: rest => d.inline :: inlineAll rest

/-- Each field with its name. -/
def inlineFields : List (String × Dump) → List String
  | [] => []
  | (name, d) :: rest => (name ++ ": " ++ d.inline) :: inlineFields rest

/-- Each entry with its quoted key. -/
def inlineEntries : List (String × Dump) → List String
  | [] => []
  | (key, d) :: rest => ("\"" ++ key ++ "\": " ++ d.inline) :: inlineEntries rest

end

/-! ## One field a line -/

/-- Four blanks for each level. -/
def indentation (level : Nat) : String :=
  String.ofList (List.replicate (4 * level) ' ')

/-- Parts between brackets, one a line at the level above `level`. -/
def bracketed (level : Nat) (opening closing : String) (parts : List String) : String :=
  match parts with
  | [] => opening ++ closing
  | _ => opening ++ "\n"
      ++ String.join (parts.map fun part => indentation (level + 1) ++ part ++ ",\n")
      ++ indentation level ++ closing

mutual

/-- The dump with one field a line, its brackets standing at `level`. -/
def indented (level : Nat) : Dump → String
  | .word text => text
  | .apply name arguments => name ++ bracketed level "(" ")" (indentedAll (level + 1) arguments)
  | .list items => bracketed level "[" "]" (indentedAll (level + 1) items)
  | .record name fields =>
      name ++ " " ++ bracketed level "\x7b" "\x7d" (indentedFields (level + 1) fields)
  | .map entries => bracketed level "\x7b" "\x7d" (indentedEntries (level + 1) entries)

/-- Each dump with one field a line. -/
def indentedAll (level : Nat) : List Dump → List String
  | [] => []
  | d :: rest => d.indented level :: indentedAll level rest

/-- Each field with its name. -/
def indentedFields (level : Nat) : List (String × Dump) → List String
  | [] => []
  | (name, d) :: rest => (name ++ ": " ++ d.indented level) :: indentedFields level rest

/-- Each entry with its quoted key. -/
def indentedEntries (level : Nat) : List (String × Dump) → List String
  | [] => []
  | (key, d) :: rest => ("\"" ++ key ++ "\": " ++ d.indented level) :: indentedEntries level rest

end

/-- The dump with one field a line. -/
def pretty (d : Dump) : String :=
  d.indented 0

end Dump

end Kenbak1
