/-
  Kenbak1.Instruction.Decode

  From an opcode byte to an instruction. An opcode is read as three octal digits: the high
  digit has two bits, the middle and the low one three each. The low digit tells the family:

    0       halt and noop
    1       shifts and rotations of A or B
    2       setting and testing one bit of a memory cell
    3 to 7  jumps when the middle digit is 4 or more; below that, logic on A when the high
            digit is 3, and arithmetic, loads and stores on A, B or X otherwise

  Every byte stands for an instruction.
-/
import Kenbak1.Instruction

namespace Kenbak1

/-! ## The three octal digits -/

/-- The high octal digit of an opcode, 0 to 3. -/
def highDigit (opcode : UInt8) : UInt8 := opcode >>> 6

/-- The middle octal digit of an opcode, 0 to 7. -/
def middleDigit (opcode : UInt8) : UInt8 := (opcode >>> 3) &&& 7

/-- The low octal digit of an opcode, 0 to 7. -/
def lowDigit (opcode : UInt8) : UInt8 := opcode &&& 7

/-! ## Fields selected by one digit -/

/-- The addressing mode a low digit selects. -/
def Mode.ofDigit? (low : UInt8) : Option Mode :=
  match low with
  | 3 => some .constant
  | 4 => some .memory
  | 5 => some .indirect
  | 6 => some .indexed
  | 7 => some .indirectIndexed
  | _ => none

/-- The jump condition a low digit selects. -/
def Condition.ofDigit? (low : UInt8) : Option Condition :=
  match low with
  | 3 => some .nonZero
  | 4 => some .zero
  | 5 => some .negative
  | 6 => some .positive
  | 7 => some .positiveNonZero
  | _ => none

/-- The register a high digit selects. -/
def Register.ofDigit? (high : UInt8) : Option Register :=
  match high with
  | 0 => some .a
  | 1 => some .b
  | 2 => some .x
  | _ => none

/-! ## The families -/

/-- Shifts and rotations. The high digit 3 is a second code for the right shift, and zero
    places stand for four. -/
def decodeShift (opcode high middle : UInt8) : Instruction where
  opcode
  operation :=
    match high with
    | 0 => .sftr
    | 1 => .rotr
    | 2 => .sftl
    | _ => .sftr
  register := some (if middle &&& 4 != 0 then .b else .a)
  bit := some (if middle &&& 3 != 0 then middle &&& 3 else 4)

/-- Setting and testing a bit. -/
def decodeBit (opcode high middle : UInt8) : Instruction where
  opcode
  operation :=
    match high with
    | 0 => .set0
    | 1 => .set1
    | 2 => .skp0
    | _ => .skp1
  mode := some .memory
  bit := some middle

/-- Jumps. Without a register the jump is always taken. -/
def decodeJump (opcode high middle low : UInt8) : Instruction :=
  let register := Register.ofDigit? high
  let condition := register.bind fun _ => Condition.ofDigit? low
  match middle &&& 3 with
  | 0 => { opcode, operation := .jpd, mode := some .memory, register, condition }
  | 1 => { opcode, operation := .jpi, mode := some .indirect, register, condition }
  | 2 => { opcode, operation := .jmd, mode := some .memory, register, condition, mark := true }
  | _ => { opcode, operation := .jmi, mode := some .indirect, register, condition, mark := true }

/-- Logic on A. The middle digit 1 does nothing and takes no operand. -/
def decodeLogic (opcode middle low : UInt8) : Instruction :=
  let mode := Mode.ofDigit? low
  match middle with
  | 0 => { opcode, operation := .or, mode, register := some .a }
  | 1 => { opcode, operation := .noop }
  | 2 => { opcode, operation := .and, mode, register := some .a }
  | _ => { opcode, operation := .lneg, mode, register := some .a }

/-- Arithmetic, loads and stores. -/
def decodeTransfer (opcode high middle low : UInt8) : Instruction where
  opcode
  operation :=
    match middle with
    | 0 => .add
    | 1 => .sub
    | 2 => .load
    | _ => .store
  mode := Mode.ofDigit? low
  register := Register.ofDigit? high

/-- The instruction an opcode stands for. -/
def decode (opcode : UInt8) : Instruction :=
  let high := highDigit opcode
  let middle := middleDigit opcode
  let low := lowDigit opcode
  if low = 0 then
    { opcode, operation := if high &&& 2 != 0 then .noop else .halt }
  else if low = 1 then decodeShift opcode high middle
  else if low = 2 then decodeBit opcode high middle
  else if 4 ≤ middle then decodeJump opcode high middle low
  else if high = 3 then decodeLogic opcode middle low
  else decodeTransfer opcode high middle low

end Kenbak1
