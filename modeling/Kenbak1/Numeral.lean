/-
  Kenbak1.Numeral

  Numbers as an operator of the machine writes them: a byte as three octal digits, a lamp
  pattern as eight binary digits, and the reading of octal bytes and of decimal numbers.
-/

namespace Kenbak1

/-! ## Writing -/

/-- The character of a digit below ten. -/
def digitChar (d : Nat) : Char :=
  Char.ofNat (48 + d)

/-- The last `width` digits of `n` in base `base`, most significant first. -/
def fixedDigits (base : Nat) : (width : Nat) → Nat → List Char
  | 0, _ => []
  | width + 1, n => digitChar (n / Nat.pow base width % base) :: fixedDigits base width n

/-- A byte as three octal digits. -/
def octalDigits (b : UInt8) : List Char :=
  fixedDigits 8 3 b.toNat

/-- A byte as three octal digits. -/
def octal (b : UInt8) : String :=
  String.ofList (octalDigits b)

/-- A byte as eight binary digits, bit 7 first. -/
def binary (b : UInt8) : String :=
  String.ofList (fixedDigits 2 8 b.toNat)

theorem fixedDigits_length (base width n : Nat) : (fixedDigits base width n).length = width := by
  induction width with
  | zero => rfl
  | succ width ih => simp [fixedDigits, ih]

/-! ## Reading -/

/-- Why a text is no octal byte. -/
inductive OctalFault where
  /-- A character that is no octal digit, or no digit at all. -/
  | malformed
  /-- A value above 377. -/
  | tooLarge
  deriving DecidableEq

/-- Reads octal digits from the left onto the value `value`. The first character that is no
    digit, or the first digit for which there is no room, decides; a bad digit is seen before
    the lack of room. -/
def readOctalDigits : (value : Nat) → List Char → Except OctalFault UInt8
  | value, [] => .ok value.toUInt8
  | value, c :: rest =>
    if '0' ≤ c ∧ c ≤ '7' then
      if value < 32 then readOctalDigits (value * 8 + (c.toNat - 48)) rest
      else .error .tooLarge
    else .error .malformed

/-- Reads an octal byte: at most one leading `+`, then at least one digit. -/
def readOctal : List Char → Except OctalFault UInt8
  | [] => .error .malformed
  | '+' :: [] => .error .malformed
  | '+' :: digits => readOctalDigits 0 digits
  | digits => readOctalDigits 0 digits

/-- Why a text is no decimal number. -/
inductive DecimalFault where
  | empty
  | notADigit
  | tooLarge
  deriving DecidableEq

/-- Reads decimal digits from the left onto the value `value`. As with octal digits, the first
    fault decides. -/
def readDecimalDigits (greatest : Nat) : (value : Nat) → List Char → Except DecimalFault Nat
  | value, [] => .ok value
  | value, c :: rest =>
    if '0' ≤ c ∧ c ≤ '9' then
      let next := value * 10 + (c.toNat - 48)
      if next ≤ greatest then readDecimalDigits greatest next rest else .error .tooLarge
    else .error .notADigit

/-- Reads a decimal number up to `greatest`: at most one leading `+`, then at least one digit. -/
def readDecimal (greatest : Nat) : List Char → Except DecimalFault Nat
  | [] => .error .empty
  | '+' :: [] => .error .notADigit
  | '+' :: digits => readDecimalDigits greatest 0 digits
  | digits => readDecimalDigits greatest 0 digits

end Kenbak1
