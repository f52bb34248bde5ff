/-
  Kenbak1.Instruction

  What an opcode says: operations, addressing modes, jump conditions, and the record that
  holds the fields of one instruction. The record is the form in which instructions are
  stored and shown, so it can also hold combinations that no opcode stands for; the module
  `Kenbak1.Instruction.Action` tells which of them can be executed.
-/
import Kenbak1.Register

namespace Kenbak1

/-! ## Operations -/

/-- The twenty-one operations. -/
inductive Operation where
  | add
  | sub
  | load
  | store
  | or
  | and
  /-- Load the negative. -/
  | lneg
  /-- Jump direct. -/
  | jpd
  /-- Jump indirect. -/
  | jpi
  /-- Jump direct and mark. -/
  | jmd
  /-- Jump indirect and mark. -/
  | jmi
  /-- Skip on a clear bit. -/
  | skp0
  /-- Skip on a set bit. -/
  | skp1
  | set0
  | set1
  /-- Shift left. -/
  | sftl
  /-- Shift right. -/
  | sftr
  | rotl
  | rotr
  | noop
  | halt
  deriving DecidableEq

namespace Operation

/-- Every operation, in the order in which stored data lists them. -/
def all : List Operation :=
  [.add, .sub, .load, .store, .or, .and, .lneg, .jpd, .jpi, .jmd, .jmi, .skp0, .skp1,
    .set0, .set1, .sftl, .sftr, .rotl, .rotr, .noop, .halt]

/-- The mnemonic on listings. -/
def mnemonic : Operation → String
  | .add => "add"
  | .sub => "sub"
  | .load => "load"
  | .store => "store"
  | .or => "or"
  | .and => "and"
  | .lneg => "lneg"
  | .jpd => "jpd"
  | .jpi => "jpi"
  | .jmd => "jmd"
  | .jmi => "jmi"
  | .skp0 => "skp 0"
  | .skp1 => "skp 1"
  | .set0 => "set 0"
  | .set1 => "set 1"
  | .sftl => "sftl"
  | .sftr => "sftr"
  | .rotl => "rotl"
  | .rotr => "rotr"
  | .noop => "noop"
  | .halt => "halt"

/-- The name in stored data and diagnostics. -/
def label : Operation → String
  | .add => "Add"
  | .sub => "Sub"
  | .load => "Load"
  | .store => "Store"
  | .or => "Or"
  | .and => "And"
  | .lneg => "Lneg"
  | .jpd => "Jpd"
  | .jpi => "Jpi"
  | .jmd => "Jmd"
  | .jmi => "Jmi"
  | .skp0 => "Skp0"
  | .skp1 => "Skp1"
  | .set0 => "Set0"
  | .set1 => "Set1"
  | .sftl => "Sftl"
  | .sftr => "Sftr"
  | .rotl => "Rotl"
  | .rotr => "Rotr"
  | .noop => "Noop"
  | .halt => "Halt"

end Operation

/-! ## Addressing modes -/

/-- How an operand byte leads to a value. -/
inductive Mode where
  /-- The operand byte is the value. -/
  | constant
  /-- The operand byte is the address of the value. -/
  | memory
  /-- The operand byte addresses a pointer to the value. -/
  | indirect
  /-- The operand byte plus X addresses the value. -/
  | indexed
  /-- The operand byte addresses a pointer; the pointer plus X addresses the value. -/
  | indirectIndexed
  deriving DecidableEq

namespace Mode

/-- Every mode, in the order of the low octal digits 3 to 7. -/
def all : List Mode :=
  [.constant, .memory, .indirect, .indexed, .indirectIndexed]

/-- The name in stored data and diagnostics. -/
def label : Mode → String
  | .constant => "Constant"
  | .memory => "Memory"
  | .indirect => "Indirect"
  | .indexed => "Indexed"
  | .indirectIndexed => "IndirectIndexed"

end Mode

/-! ## Jump conditions -/

/-- What a conditional jump asks of its register, read as a signed byte. -/
inductive Condition where
  | nonZero
  | zero
  | negative
  /-- Zero or above. -/
  | positive
  /-- Above zero. -/
  | positiveNonZero
  deriving DecidableEq

namespace Condition

/-- Every condition, in the order of the low octal digits 3 to 7. -/
def all : List Condition :=
  [.nonZero, .zero, .negative, .positive, .positiveNonZero]

/-- Whether the condition holds for a byte: bytes from 200 on are negative. -/
def holds (condition : Condition) (value : UInt8) : Bool :=
  match condition with
  | .nonZero => value != 0
  | .zero => value == 0
  | .negative => 0o200 ≤ value
  | .positive => value < 0o200
  | .positiveNonZero => 0 < value && value < 0o200

/-- The symbol on listings. -/
def symbol : Condition → String
  | .nonZero => "!=0"
  | .zero => "=0"
  | .negative => "<0"
  | .positive => ">=0"
  | .positiveNonZero => ">0"

/-- The name in stored data and diagnostics. -/
def label : Condition → String
  | .nonZero => "NonZero"
  | .zero => "Zero"
  | .negative => "Negative"
  | .positive => "Positive"
  | .positiveNonZero => "PositiveNonZero"

end Condition

/-! ## Instructions -/

/-- The fields of an instruction. Which of the optional ones are present depends on the
    operation; the operand byte is not part of the record. -/
structure Instruction where
  /-- The opcode byte. -/
  opcode : UInt8
  operation : Operation
  /-- Present when an operand byte follows the opcode. -/
  mode : Option Mode := none
  register : Option Register := none
  /-- The bit of a set or skip, the places of a shift or rotation. -/
  bit : Option UInt8 := none
  /-- Absent on a jump that is always taken. -/
  condition : Option Condition := none
  /-- The jump stores its return address at its target. -/
  mark : Bool := false
  deriving DecidableEq

namespace Instruction

/-- An operand byte follows the opcode. -/
def hasOperand (i : Instruction) : Bool :=
  i.mode.isSome

/-- The number of bytes the instruction occupies. -/
def size (i : Instruction) : Nat :=
  if i.hasOperand then 2 else 1

end Instruction

end Kenbak1
