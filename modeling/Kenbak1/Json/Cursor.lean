/-
  Kenbak1.Json.Cursor

  A place in a JSON text with what follows it, and readers: functions that read from a
  cursor and leave it where they stopped.
-/
import Kenbak1.Json.Error

namespace Kenbak1.Json

/-- What is left of a text, and the place reached. -/
structure Cursor where
  rest : List Char
  line : Nat := 1
  column : Nat := 0

namespace Cursor

/-- The beginning of a text. -/
def ofText (text : String) : Cursor :=
  { rest := text.toList }

/-- The place reached. -/
def here (c : Cursor) : Position :=
  { line := c.line, column := c.column }

/-- The place one byte further on, or the end of the text. -/
def beyond (c : Cursor) : Position :=
  match c.rest with
  | [] => c.here
  | '\n' :: _ => { line := c.line + 1, column := 0 }
  | _ => { line := c.line, column := c.column + 1 }

/-- Past one character. -/
def advance (c : Cursor) : Cursor :=
  match c.rest with
  | [] => c
  | '\n' :: rest => { rest, line := c.line + 1, column := 0 }
  | char :: rest => { rest, line := c.line, column := c.column + char.utf8Size }

/-- Past the blanks at the beginning of a text. -/
def pastBlanks : List Char → (line column : Nat) → Cursor
  | [], line, column => { rest := [], line, column }
  | c :: rest, line, column =>
    if c = '\n' then pastBlanks rest (line + 1) 0
    else if c = ' ' ∨ c = '\t' ∨ c = '\r' then pastBlanks rest line (column + 1)
    else { rest := c :: rest, line, column }

/-- Past blanks. -/
def skipBlanks (c : Cursor) : Cursor :=
  pastBlanks c.rest c.line c.column

/-- The place a number of bytes further on, or the end of the text. -/
def afterBytes : (bytes : Nat) → List Char → Position → Position
  | 0, _, p => p
  | _ + 1, [], p => p
  | bytes + 1, c :: rest, p =>
    if c = '\n' then afterBytes bytes rest { line := p.line + 1, column := 0 }
    else if c.utf8Size ≤ bytes + 1 then
      afterBytes (bytes + 1 - c.utf8Size) rest { p with column := p.column + c.utf8Size }
    else { p with column := p.column + bytes + 1 }

end Cursor

/-- Reads from a cursor. -/
abbrev Reader := StateT Cursor (Except Error)

namespace Reader

/-- A problem at a place. -/
def failAt {α : Type} (problem : Problem) (position : Position) : Reader α :=
  throw { problem, position := some position }

/-- A problem at the place reached. -/
def failHere {α : Type} (problem : Problem) : Reader α := do
  failAt problem (← get).here

/-- A problem with the next byte. -/
def failBeyond {α : Type} (problem : Problem) : Reader α := do
  failAt problem (← get).beyond

/-- Past one character. -/
def eat : Reader Unit :=
  modify Cursor.advance

/-- The next character, if there is one. -/
def peek : Reader (Option Char) := do
  return (← get).rest.head?

/-- Past blanks; then the next character. -/
def next : Reader (Option Char) := do
  modify Cursor.skipBlanks
  peek

/-- Past exactly these characters, the rest of `null`, `true` or `false`. -/
def word : List Char → Reader Unit
  | [] => pure ()
  | c :: rest => do
    match ← peek with
    | none => failHere .endInValue
    | some found =>
      if found = c then
        eat
        word rest
      else failBeyond .badWord

/-- Past the colon between a key and its value. -/
def colon : Reader Unit := do
  match ← next with
  | some ':' => eat
  | some _ => failBeyond .noColon
  | none => failBeyond .endInObject

end Reader

end Kenbak1.Json
