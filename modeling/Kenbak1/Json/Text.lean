/-
  Kenbak1.Json.Text

  JSON texts, from behind the opening quote on. A text can be read, or skipped when its
  value does not matter; skipping does not pair surrogates.
-/
import Kenbak1.Json.Cursor

namespace Kenbak1.Json.Reader

/-! ## Escapes -/

/-- The value of a hexadecimal digit. -/
def hexValue? (c : Char) : Option Nat :=
  if '0' ≤ c ∧ c ≤ '9' then some (c.toNat - 48)
  else if 'a' ≤ c ∧ c ≤ 'f' then some (c.toNat - 87)
  else if 'A' ≤ c ∧ c ≤ 'F' then some (c.toNat - 55)
  else none

/-- The value of four hexadecimal digits. -/
def hexQuad? : List Char → Option Nat
  | a :: b :: c :: d :: _ => do
    return ((← hexValue? a) * 16 + (← hexValue? b)) * 256 + (← hexValue? c) * 16 + (← hexValue? d)
  | _ => none

/-- Four hexadecimal digits; they are looked at together. -/
def hexQuad : Reader Nat := do
  let c ← get
  match hexQuad? c.rest with
  | some value =>
    set { c with rest := c.rest.drop 4, column := c.column + 4 }
    return value
  | none =>
    let left := (String.ofList c.rest).utf8ByteSize
    failAt (if left < 4 then .endInText else .badEscape) (Cursor.afterBytes 4 c.rest c.here)

/-- The character an escape letter other than `u` stands for. -/
def plainEscape? : Char → Option Char
  | '"' => some '"'
  | '\\' => some '\\'
  | '/' => some '/'
  | 'b' => some '\x08'
  | 'f' => some '\x0c'
  | 'n' => some '\n'
  | 'r' => some '\r'
  | 't' => some '\t'
  | _ => none

/-- A character of the second half of a surrogate pair. -/
def pairMark (c : Char) : Reader Unit := do
  match ← peek with
  | none => failHere .endInText
  | some found => if found = c then eat else failBeyond .openSurrogate

/-- A character given by its number; above FFFF, by two surrogates. -/
def numbered : Reader Char := do
  let high ← hexQuad
  if 0xDC00 ≤ high ∧ high ≤ 0xDFFF then failHere .loneSurrogate
  else if high < 0xD800 ∨ 0xDBFF < high then return Char.ofNat high
  else
    pairMark '\\'
    pairMark 'u'
    let low ← hexQuad
    if low < 0xDC00 ∨ 0xDFFF < low then failHere .loneSurrogate
    else return Char.ofNat (0x10000 + (high - 0xD800) * 0x400 + (low - 0xDC00))

/-- The character of an escape, from behind the backslash on. -/
def escape : Reader Char := do
  match ← peek with
  | none => failHere .endInText
  | some 'u' => do
    eat
    numbered
  | some c =>
    match plainEscape? c with
    | some plain =>
      eat
      return plain
    | none => failBeyond .badEscape

/-- Past an escape, from behind the backslash on. -/
def skipEscape : Reader Unit := do
  match ← peek with
  | none => failHere .endInText
  | some 'u' => do
    eat
    let _ ← hexQuad
  | some c =>
    match plainEscape? c with
    | some _ => eat
    | none => failBeyond .badEscape

/-! ## Texts -/

/-- The characters up to the closing quote, which is passed; at most `count` of them. A
    control character has been passed when it is reported. -/
def chars : (count : Nat) → Reader (List Char)
  | 0 => failHere .endInText
  | count + 1 => do
    match ← peek with
    | none => failHere .endInText
    | some '"' => do
      eat
      return []
    | some '\\' => do
      eat
      let c ← escape
      return c :: (← chars count)
    | some c =>
      if c.toNat < 0x20 then failBeyond .controlCharacter
      else do
        eat
        return c :: (← chars count)

/-- Past the closing quote, at most `count` characters on. A control character has not been
    passed when it is reported. -/
def skipChars : (count : Nat) → Reader Unit
  | 0 => failHere .endInText
  | count + 1 => do
    match ← peek with
    | none => failHere .endInText
    | some '"' => eat
    | some '\\' => do
      eat
      skipEscape
      skipChars count
    | some c =>
      if c.toNat < 0x20 then failHere .controlCharacter
      else do
        eat
        skipChars count

/-- A text, from behind the opening quote on. -/
def text : Reader String := do
  return String.ofList (← chars ((← get).rest.length + 1))

/-- Past a text, from behind the opening quote on. -/
def skipText : Reader Unit := do
  skipChars ((← get).rest.length + 1)

end Kenbak1.Json.Reader
