/-
  Kenbak1.Json.Number

  JSON numbers. A number without fraction and exponent is an integer as long as 64 bits hold
  it, negative zero excepted; every other number is a binary floating-point number, obtained
  from the leading digits that 64 bits hold and a power of ten.
-/
import Kenbak1.Decimal.Shortest
import Kenbak1.Json.Cursor

namespace Kenbak1.Json

/-- A number as read. -/
inductive Number where
  | integer (n : Int)
  /-- A floating-point number, as its shortest text. -/
  | decimal (text : String)
  deriving DecidableEq

/-- The number as something found. -/
def Number.found : Number → Found
  | .integer n => .integer n
  | .decimal digits => .decimal digits

/-! ## Floating-point values -/

/-- The largest leading digits that are kept. -/
def maxSignificand : Nat := UInt64.size - 1

/-- Puts digits behind a value as long as it stays in range. Returns the value and the number
    of digits left over. -/
def gather : (value : Nat) → List Char → Nat × Nat
  | value, [] => (value, 0)
  | value, c :: rest =>
    let longer := value * 10 + (c.toNat - 48)
    if longer ≤ maxSignificand then gather longer rest else (value, rest.length + 1)

/-- A power of ten. -/
def powerOfTen (n : Nat) : Float :=
  Float.ofScientific 1 false n

/-- A value times a power of ten, in steps of at most 308 places; nothing when it is too
    large. -/
def scale : (steps : Nat) → Float → Int → Option Float
  | 0, x, _ => some x
  | steps + 1, x, exponent =>
    if exponent.natAbs ≤ 308 then
      if 0 ≤ exponent then
        let y := x * powerOfTen exponent.natAbs
        if y.isInf then none else some y
      else some (x / powerOfTen exponent.natAbs)
    else if x == 0 then some x
    else if 0 ≤ exponent then none
    else scale steps (x / powerOfTen 308) (exponent + 308)

/-- The text of a floating-point number. -/
def decimalText (negative : Bool) (x : Float) : Number :=
  .decimal (Decimal.shortest (if negative then -x else x))

namespace Reader

/-! ## Digits -/

/-- A decimal digit. -/
def isDigit (c : Char) : Bool :=
  '0' ≤ c && c ≤ '9'

/-- Past digits, which are returned. -/
def digits : Reader (List Char) := do
  let c ← get
  let found := c.rest.takeWhile isDigit
  set { c with rest := c.rest.drop found.length, column := c.column + found.length }
  return found

/-- A value with its power of ten, the whole number having been read. -/
def finish (negative : Bool) (significand : Nat) (exponent : Int) : Reader Number := do
  match scale 8 (UInt64.ofNat significand).toFloat exponent with
  | some x => return decimalText negative x
  | none => failHere .numberTooLarge

/-! ## Exponents -/

/-- The largest exponent that is counted. -/
def maxExponent : Nat := 0x7fffffff

/-- The exponent's digits that can be counted, and the rest. -/
def countable : (value : Nat) → List Char → Nat × List Char
  | value, [] => (value, [])
  | value, c :: rest =>
    let longer := value * 10 + (c.toNat - 48)
    if longer ≤ maxExponent then countable longer rest else (value, c :: rest)

/-- The sign of an exponent. -/
def exponentSign : Reader Bool := do
  match ← peek with
  | some '+' => do
    eat
    return false
  | some '-' => do
    eat
    return true
  | _ => return false

/-- The exponent of a number, from behind the `e` on. An exponent that cannot be counted
    makes the number too large or zero; too large is reported at the digit that shows it. -/
def exponentPart (negative : Bool) (significand : Nat) (exponent : Int) : Reader Number := do
  let down ← exponentSign
  match ← peek with
  | none => failHere .endInValue
  | some c =>
    if isDigit c then
      let start ← get
      let found ← digits
      let (value, excess) := countable 0 found
      if excess = [] then
        finish negative significand (if down then exponent - value else exponent + value)
      else if significand ≠ 0 ∧ ¬ down then
        failAt .numberTooLarge
          { line := start.line, column := start.column + (found.length - excess.length) + 1 }
      else return decimalText negative 0
    else failBeyond .badNumber

/-- Past the letter of an exponent, if one follows. -/
def exponentMark : Reader Bool := do
  match ← peek with
  | some 'e' => do
    eat
    return true
  | some 'E' => do
    eat
    return true
  | _ => return false

/-! ## Numbers -/

/-- The fraction of a number, from behind the point on, and its exponent. -/
def fractionPart (negative : Bool) (significand : Nat) (exponent : Int) : Reader Number := do
  let found ← digits
  if found = [] then
    match ← peek with
    | some _ => failBeyond .badNumber
    | none => failBeyond .endInValue
  else
    let (value, excess) := gather significand found
    let scaled := exponent - (found.length - excess : Nat)
    if ← exponentMark then exponentPart negative value scaled
    else finish negative value scaled

/-- An integer of 64 bits, or the floating-point number nearest to it. -/
def whole (negative : Bool) (significand : Nat) : Number :=
  if negative then
    if significand = 0 ∨ 0x8000000000000000 < significand then
      decimalText true (UInt64.ofNat significand).toFloat
    else .integer (-significand)
  else .integer significand

/-- What may follow the digits of a whole number. -/
def afterDigits (negative : Bool) (found : List Char) : Reader Number := do
  let (significand, excess) := gather 0 found
  match ← peek with
  | some '.' => do
    eat
    fractionPart negative significand excess
  | _ =>
    if ← exponentMark then exponentPart negative significand excess
    else if excess = 0 then return whole negative significand
    else finish negative significand excess

/-- A number, from behind its minus sign on. A zero ends the digits. -/
def number (negative : Bool) : Reader Number := do
  match ← peek with
  | none => failHere .endInValue
  | some '0' => do
    eat
    match ← peek with
    | some c => if isDigit c then failBeyond .badNumber else afterDigits negative ['0']
    | none => afterDigits negative ['0']
  | some c =>
    if isDigit c then afterDigits negative (← digits) else failBeyond .badNumber

/-! ## Skipping -/

/-- Past the exponent of a number, from behind the `e` on. -/
def skipExponent : Reader Unit := do
  let _ ← exponentSign
  match ← peek with
  | some c =>
    if isDigit c then
      let _ ← digits
    else failBeyond .badNumber
  | none => failHere .badNumber

/-- Past a number, from behind its minus sign on. -/
def skipNumber : Reader Unit := do
  match ← peek with
  | none => failHere .badNumber
  | some '0' => do
    eat
    match ← peek with
    | some c => if isDigit c then failBeyond .badNumber
    | none => pure ()
  | some c =>
    if isDigit c then
      let _ ← digits
    else failBeyond .badNumber
  match ← peek with
  | some '.' => do
    eat
    if (← digits) = [] then failBeyond .badNumber
    else if ← exponentMark then skipExponent
  | _ => if ← exponentMark then skipExponent

end Reader

end Kenbak1.Json
