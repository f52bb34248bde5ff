/-
  Kenbak1.Fault

  Internal faults: what the machine would have to report if an instruction lacked a field
  that its operation needs, or a memory lacked a cell. No opcode and no memory of full size
  leads to one.
-/
import Kenbak1.Numeral
import Kenbak1.Instruction

namespace Kenbak1

/-- An internal fault. -/
inductive Fault where
  /-- The operation works on a register and the instruction names none. -/
  | missingRegister (operation : Operation) (opcode : UInt8)
  /-- The operation takes an operand and the instruction has no addressing mode. -/
  | missingMode (operation : Operation) (opcode : UInt8)
  /-- The operation works on a bit, or by a number of places, and the instruction has none. -/
  | missingBit (operation : Operation) (opcode : UInt8)
  /-- A byte has no bit of this number. -/
  | noSuchBit (bit : UInt8)
  /-- The operation is no shift and no rotation. -/
  | notAShift (operation : Operation)
  /-- The memory has too few cells for an address. -/
  | missingCell (size index : Nat)
  deriving DecidableEq

namespace Fault

/-- A state that decoding rules out, reported as such. -/
def unreachableText (reason : String) : String :=
  "internal error: entered unreachable code: " ++ reason

/-- The report of a fault. -/
def message : Fault → String
  | .missingRegister operation opcode => unreachableText
      (operation.label ++ " (opcode " ++ octal opcode ++ ") decoded without a register")
  | .missingMode operation opcode => unreachableText
      (operation.label ++ " (opcode " ++ octal opcode ++ ") decoded without a mode")
  | .missingBit operation opcode => unreachableText
      (operation.label ++ " (opcode " ++ octal opcode ++ ") decoded without a bit position")
  | .noSuchBit _ => "attempt to shift left with overflow"
  | .notAShift operation => unreachableText (operation.label ++ " is not a shift or rotate")
  | .missingCell size index =>
      "index out of bounds: the len is " ++ toString size ++ " but the index is " ++ toString index

end Fault

end Kenbak1
