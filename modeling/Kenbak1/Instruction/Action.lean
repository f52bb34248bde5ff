/-
  Kenbak1.Instruction.Action

  What executing an instruction does. An action carries exactly the fields its execution
  needs; `Instruction.action` finds the action of an instruction record, or the fault of a
  record that lacks a field.
-/
import Kenbak1.Fault
import Kenbak1.Instruction.Decode

namespace Kenbak1

/-! ## Functions on bytes -/

/-- Operations that put a function of a register and an operand into the register. -/
inductive Combination where
  | add
  | sub
  | load
  | or
  | and
  | lneg
  deriving DecidableEq

/-- The new value of the register. Sums and differences wrap around and set no carry, and
    the negative of -128 is -128. -/
def Combination.apply (f : Combination) (register operand : UInt8) : UInt8 :=
  match f with
  | .add => register + operand
  | .sub => register - operand
  | .load => operand
  | .or => register ||| operand
  | .and => register &&& operand
  | .lneg => 0 - operand

/-- Shifts and rotations. -/
inductive Shift where
  | left
  | right
  | rotateLeft
  | rotateRight
  deriving DecidableEq

/-- Half of a byte read as a signed number, rounded toward zero. -/
def signedHalf (value : UInt8) : UInt8 :=
  (value.toInt8 / 2).toUInt8

/-- A byte shifted left; from eight places on nothing is left. -/
def shiftLeft (value places : UInt8) : UInt8 :=
  if places < 8 then value <<< places else 0

/-- A byte rotated left, places counting modulo eight. -/
def rotateLeft (value places : UInt8) : UInt8 :=
  if places % 8 = 0 then value
  else (value <<< (places % 8)) ||| (value >>> (8 - places % 8))

/-- A byte rotated right, places counting modulo eight. -/
def rotateRight (value places : UInt8) : UInt8 :=
  if places % 8 = 0 then value
  else (value >>> (places % 8)) ||| (value <<< (8 - places % 8))

/-- A byte shifted or rotated. The right shift halves once, whatever the number of places. -/
def Shift.apply (shift : Shift) (value places : UInt8) : UInt8 :=
  match shift with
  | .left => shiftLeft value places
  | .right => signedHalf value
  | .rotateLeft => Kenbak1.rotateLeft value places
  | .rotateRight => Kenbak1.rotateRight value places

/-- The shift or rotation an operation is, if it is one. -/
def Operation.shift? : Operation → Option Shift
  | .sftl => some .left
  | .sftr => some .right
  | .rotl => some .rotateLeft
  | .rotr => some .rotateRight
  | _ => none

/-- A byte shifted or rotated by an operation. -/
def shiftRotate (operation : Operation) (value places : UInt8) : Except Fault UInt8 :=
  match operation.shift? with
  | some shift => .ok (shift.apply value places)
  | none => .error (.notAShift operation)

/-- The byte with one bit set, for a bit below eight. -/
def bitMask (bit : Fin 8) : UInt8 :=
  1 <<< UInt8.ofNat bit.val

/-! ## Actions -/

/-- What executing an instruction does. -/
inductive Action where
  /-- Combine an operand into a register. -/
  | combine (f : Combination) (register : Register) (mode : Mode)
  /-- Store a register. -/
  | store (register : Register) (mode : Mode)
  /-- Jump, if the register meets the condition where there is one; a marking jump stores
      its return address at the target and goes on behind it. -/
  | jump (test : Option (Condition × Register)) (mode : Mode) (mark : Bool)
  /-- Skip the next two bytes if the bit of the addressed cell is as wanted. -/
  | skip (bit : Fin 8) (wanted : Bool)
  /-- Set or clear the bit of the addressed cell. -/
  | assign (bit : Fin 8) (value : Bool)
  /-- Shift or rotate a register. -/
  | shift (shift : Shift) (register : Register) (places : UInt8)
  | noop
  | halt
  deriving DecidableEq

namespace Instruction

/-- The register, for an operation that needs one. -/
def needRegister (i : Instruction) : Except Fault Register :=
  match i.register with
  | some r => .ok r
  | none => .error (.missingRegister i.operation i.opcode)

/-- The addressing mode, for an operation that needs one. -/
def needMode (i : Instruction) : Except Fault Mode :=
  match i.mode with
  | some m => .ok m
  | none => .error (.missingMode i.operation i.opcode)

/-- The number of places, for a shift or rotation. -/
def needPlaces (i : Instruction) : Except Fault UInt8 :=
  match i.bit with
  | some n => .ok n
  | none => .error (.missingBit i.operation i.opcode)

/-- The bit number, for an operation on a bit. -/
def needBit (i : Instruction) : Except Fault (Fin 8) :=
  match i.bit with
  | some n => if h : n.toNat < 8 then .ok ⟨n.toNat, h⟩ else .error (.noSuchBit n)
  | none => .error (.missingBit i.operation i.opcode)

/-- The action of combining an operand into the register. -/
def combination (i : Instruction) (f : Combination) : Except Fault Action := do
  let mode ← i.needMode
  let register ← i.needRegister
  return .combine f register mode

/-- The action of a jump. -/
def jump (i : Instruction) : Except Fault Action := do
  let mode ← i.needMode
  match i.condition with
  | none => return .jump none mode i.mark
  | some condition =>
    let register ← i.needRegister
    return .jump (some (condition, register)) mode i.mark

/-- The action of a shift or rotation. -/
def shiftAction (i : Instruction) (shift : Shift) : Except Fault Action := do
  let register ← i.needRegister
  let places ← i.needPlaces
  return .shift shift register places

/-- What executing the instruction does. -/
def action (i : Instruction) : Except Fault Action :=
  match i.operation with
  | .add => i.combination .add
  | .sub => i.combination .sub
  | .load => i.combination .load
  | .or => i.combination .or
  | .and => i.combination .and
  | .lneg => i.combination .lneg
  | .store => do
    let register ← i.needRegister
    let mode ← i.needMode
    return .store register mode
  | .jpd | .jpi | .jmd | .jmi => i.jump
  | .skp0 => return .skip (← i.needBit) false
  | .skp1 => return .skip (← i.needBit) true
  | .set0 => return .assign (← i.needBit) false
  | .set1 => return .assign (← i.needBit) true
  | .sftl => i.shiftAction .left
  | .sftr => i.shiftAction .right
  | .rotl => i.shiftAction .rotateLeft
  | .rotr => i.shiftAction .rotateRight
  | .noop => return .noop
  | .halt => return .halt

end Instruction

end Kenbak1
