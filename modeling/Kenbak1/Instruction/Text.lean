/-
  Kenbak1.Instruction.Text

  Instructions as lines of a listing. Addresses and constants are octal; an operand byte
  that addresses a register directly is shown as the register's name. The register cells
  themselves are never listed as instructions.
-/
import Kenbak1.Numeral
import Kenbak1.Instruction.Decode

namespace Kenbak1

/-- The word in the place of a condition on a jump that is always taken. -/
def unconditional : String := "UNC"

/-- An operand byte as its addressing mode shows it. -/
def operandText (mode : Option Mode) (operand : UInt8) : String :=
  match mode with
  | some .constant => "#" ++ octal operand
  | some .memory =>
    match Register.ofAddress? operand with
    | some r => r.name
    | none => octal operand
  | some .indirect => "(" ++ octal operand ++ ")"
  | some .indexed => octal operand ++ ", " ++ Register.x.name
  | some .indirectIndexed => "(" ++ octal operand ++ "), " ++ Register.x.name
  | none => ""

namespace Instruction

/-- The register's name, or nothing. -/
def registerText (i : Instruction) : String :=
  match i.register with
  | some r => r.name
  | none => ""

/-- The bit or the number of places; 0 when there is none. -/
def bitText (i : Instruction) : String :=
  toString (i.bit.getD 0).toNat

/-- The instruction with its operand byte as a line of a listing. -/
def text (i : Instruction) (operand : UInt8) : String :=
  let mnemonic := i.operation.mnemonic
  let shown := operandText i.mode operand
  match i.operation with
  | .add | .sub | .load => mnemonic ++ " " ++ i.registerText ++ " " ++ shown
  | .store => mnemonic ++ " " ++ shown ++ " " ++ i.registerText
  | .or | .and | .lneg => mnemonic ++ " " ++ shown
  | .jpd | .jpi | .jmd | .jmi =>
    match i.condition with
    | some condition =>
      mnemonic ++ " " ++ i.registerText ++ " " ++ condition.symbol ++ " " ++ shown
    | none => mnemonic ++ " " ++ unconditional ++ " " ++ shown
  | .skp0 | .skp1 | .set0 | .set1 => mnemonic ++ " b" ++ i.bitText ++ " " ++ shown
  | .sftl | .sftr | .rotl | .rotr => mnemonic ++ " " ++ i.registerText ++ i.bitText
  | .noop | .halt => mnemonic

end Instruction

/-- The line of a register cell. -/
def registerLine (r : Register) : String :=
  "REG<" ++ r.name ++ ">"

end Kenbak1
