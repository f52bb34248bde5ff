/-
  Kenbak1.Proofs.Flat

  A machine without registers. A `Flat` has one array of 256 cells, and A, B, X, P, OUT, OCA, OCB,
  OCX and IN are just nine of them (`Flat.reg`); `Flat.execute` does to the cells what the
  instruction set says. There are no bursts and no cycles left: a run is a number of `Flat.steps`.
-/
import Kenbak1.Machine
import Kenbak1.Proofs.Machine.Burst
import Mathlib.Logic.Function.Basic

namespace Kenbak1

/-- A machine whose registers are cells of its memory. -/
@[ext]
structure Flat where
  cells : UInt8 → UInt8
  state : RunState
  /-- Instructions executed since the last reset. -/
  executed : Nat
  /-- Cycles an instruction costs. -/
  cost : Nat
  /-- The address latch of the front panel. -/
  latch : UInt8

/-- What an operation of a flat machine returned and said, with the machine after it. -/
structure Flat.Effect (α : Type) where
  value : α
  notices : List Notice := []
  after : Flat

/-! ## Bytes -/

/-- A byte read as a signed number. -/
def signed (v : UInt8) : Int := v.toInt8.toInt

/-- The negative of a signed byte; -128 stays what it is. -/
def negative (v : UInt8) : UInt8 :=
  if signed v = -128 then v else UInt8.ofInt (-signed v)

/-- Whether a condition holds for a signed byte. -/
def Condition.Meets (condition : Condition) (v : UInt8) : Prop :=
  match condition with
  | .nonZero => signed v ≠ 0
  | .zero => signed v = 0
  | .negative => signed v < 0
  | .positive => 0 ≤ signed v
  | .positiveNonZero => 0 < signed v

instance (condition : Condition) (v : UInt8) : Decidable (condition.Meets v) :=
  match condition with
  | .nonZero => inferInstanceAs (Decidable (signed v ≠ 0))
  | .zero => inferInstanceAs (Decidable (signed v = 0))
  | .negative => inferInstanceAs (Decidable (signed v < 0))
  | .positive => inferInstanceAs (Decidable (0 ≤ signed v))
  | .positiveNonZero => inferInstanceAs (Decidable (0 < signed v))

namespace Flat

/-! ## Cells -/

/-- The machine with a cell changed. -/
def put (s : Flat) (a v : UInt8) : Flat :=
  { s with cells := Function.update s.cells a v }

/-- A register: the cell at its address. -/
def reg (s : Flat) (r : Register) : UInt8 :=
  s.cells r.address

/-- The machine with a register changed. -/
def setReg (s : Flat) (r : Register) (v : UInt8) : Flat :=
  s.put r.address v

/-- Moves P on by one and reads the cell at the old address. -/
def fetch (s : Flat) : UInt8 × Flat :=
  let moved := s.setReg .p (s.reg .p + 1)
  (moved.cells (s.reg .p), moved)

/-! ## Operands -/

/-- The value an operand stands for. -/
def read (s : Flat) (mode : Mode) (operand : UInt8) : UInt8 :=
  match mode with
  | .constant => operand
  | .memory => s.cells operand
  | .indirect => s.cells (s.cells operand)
  | .indexed => s.cells (operand + s.reg .x)
  | .indirectIndexed => s.cells (s.cells operand + s.reg .x)

/-- Stores a value through an operand. Storing to a constant does nothing. -/
def write (s : Flat) (mode : Mode) (operand v : UInt8) : Flat :=
  match mode with
  | .constant => s
  | .memory => s.put operand v
  | .indirect => s.put (s.cells operand) v
  | .indexed => s.put (operand + s.reg .x) v
  | .indirectIndexed => s.put (s.cells operand + s.reg .x) v

/-- The target of a jump: the operand, or the cell it addresses for an indirect one. -/
def target (s : Flat) (mode : Mode) (operand : UInt8) : UInt8 :=
  if mode = .indirect then s.cells operand else operand

/-! ## Instructions -/

/-- A jump that is taken. A marking jump stores P at its target and goes on behind it. -/
def jump (s : Flat) (mode : Mode) (mark : Bool) (operand : UInt8) : Flat :=
  let a := s.target mode operand
  if mark then (s.put a (s.reg .p)).setReg .p (a + 1) else s.setReg .p a

/-- Skips two bytes if the bit of a cell is as wanted. -/
def skip (s : Flat) (bit : Nat) (wanted : Bool) (operand : UInt8) : Flat :=
  if (s.cells operand).toNat.testBit bit = wanted then s.setReg .p (s.reg .p + 2) else s

/-- What an instruction does, its operand byte having been fetched. -/
def execute (s : Flat) (i : Instruction) (operand : UInt8) : Flat :=
  let r := i.register.getD .a
  let mode := i.mode.getD .memory
  let n := i.bit.getD 0
  match i.operation with
  | .add => s.setReg r (s.reg r + s.read mode operand)
  | .sub => s.setReg r (s.reg r - s.read mode operand)
  | .load => s.setReg r (s.read mode operand)
  | .store => s.write mode operand (s.reg r)
  | .or => s.setReg r (s.reg r ||| s.read mode operand)
  | .and => s.setReg r (s.reg r &&& s.read mode operand)
  | .lneg => s.setReg r (negative (s.read mode operand))
  | .jpd | .jpi | .jmd | .jmi =>
    if ∀ c ∈ i.condition, c.Meets (s.reg r) then s.jump mode i.mark operand else s
  | .skp0 => s.skip n.toNat false operand
  | .skp1 => s.skip n.toNat true operand
  | .set0 => s.put operand (s.cells operand &&& ~~~(1 <<< n))
  | .set1 => s.put operand (s.cells operand ||| 1 <<< n)
  | .sftl => s.setReg r (UInt8.ofNat ((s.reg r).toNat * 2 ^ n.toNat))
  | .sftr => s.setReg r (UInt8.ofInt ((signed (s.reg r)).tdiv 2))
  | .rotl => s.setReg r ((s.reg r <<< n) ||| (s.reg r >>> (8 - n)))
  | .rotr => s.setReg r ((s.reg r >>> n) ||| (s.reg r <<< (8 - n)))
  | .noop => s
  | .halt => { s with state := .halted }

/-- Executes the instruction at P, counts it, and says what OUT holds and whether the machine
    stands. A machine that stands does nothing. -/
def step (s : Flat) : Effect (Option Instruction) :=
  match s.state with
  | .halted => { value := none, after := s }
  | .running =>
    let opcode := s.fetch
    let i := decode opcode.1
    let operand := if i.hasOperand then opcode.2.fetch else (0, opcode.2)
    let done := { operand.2.execute i operand.1 with executed := s.executed + 1 }
    { value := some i
      notices := [.out (done.reg .out), .halt (done.state = .halted)]
      after := done }

/-- Steps until the machine stands, but at most `n` times, and counts the steps. -/
def steps : (n : Nat) → Flat → Effect Nat
  | 0, s => { value := 0, after := s }
  | n + 1, s =>
    match s.state with
    | .halted => { value := 0, after := s }
    | .running =>
      let first := s.step
      let rest := steps n first.after
      { value := rest.value + 1, notices := first.notices ++ rest.notices, after := rest.after }

/-! ## From outside -/

/-- Clears the register cells and the count and starts the machine. The other cells and the
    latch stay. -/
def reset (s : Flat) : Flat :=
  { s with
    cells := fun a => if a ∈ Register.all.map Register.address then 0 else s.cells a
    state := .running
    executed := 0 }

/-- Sets a bit of IN; the number counts modulo eight. -/
def setInputBit (s : Flat) (number : UInt8) : Flat :=
  s.setReg .input (s.reg .input ||| 1 <<< (number &&& 7))

/-- Stores IN at the latched address, which then moves on by one. -/
def storeInput (s : Flat) : Flat :=
  { s.put s.latch (s.reg .input) with latch := s.latch + 1 }

end Flat

/-! ## Requests -/

/-- What can be asked of a machine from outside. -/
inductive Request where
  | step
  | run (budget : Int)
  | runBursts (burst : Int) (limit : Nat)
  | setHalt (halt : Bool)
  | reset
  | setInputBit (number : UInt8)
  | clearInput
  | latchInput
  | showLatch
  | storeInput
  | showLatched
  | readByte (address : UInt8)
  | writeByte (address value : UInt8)
  | readOperand (mode : Mode) (operand : UInt8)
  | writeOperand (mode : Mode) (operand value : UInt8)
  | jumpTarget (mode : Mode) (operand : UInt8)

/-- The request is for bursts, which end at their budget only if instructions cost something. -/
def Request.IsBurst : Request → Prop
  | .run _ | .runBursts _ _ => True
  | _ => False

/-- What a request is answered with. -/
inductive Reply where
  | done
  | instruction (i : Option Instruction)
  | count (n : Nat)
  | byte (v : UInt8)
  deriving DecidableEq

namespace Flat

/-- Answers a request. A burst attempts the steps its budget pays for, and bursts up to a
    limit attempt as many steps as the limit allows. -/
def serve (s : Flat) : Request → Effect Reply
  | .step =>
    { value := .instruction s.step.value, notices := s.step.notices, after := s.step.after }
  | .run budget =>
    let ran := s.steps (Machine.payable s.cost budget)
    { value := .count ran.value, notices := ran.notices, after := ran.after }
  | .runBursts _ limit =>
    let ran := s.steps limit
    { value := .count ran.value, notices := ran.notices, after := ran.after }
  | .setHalt halt =>
    { value := .done
      notices := [.halt halt]
      after := { s with state := if halt then .halted else .running } }
  | .reset => { value := .done, after := s.reset }
  | .setInputBit number => { value := .done, after := s.setInputBit number }
  | .clearInput => { value := .done, after := s.setReg .input 0 }
  | .latchInput => { value := .done, after := { s with latch := s.reg .input } }
  | .showLatch => { value := .done, after := s.setReg .out s.latch }
  | .storeInput => { value := .done, after := s.storeInput }
  | .showLatched => { value := .done, after := s.setReg .out (s.cells s.latch) }
  | .readByte a => { value := .byte (s.cells a), after := s }
  | .writeByte a v => { value := .done, after := s.put a v }
  | .readOperand mode operand => { value := .byte (s.read mode operand), after := s }
  | .writeOperand mode operand v => { value := .done, after := s.write mode operand v }
  | .jumpTarget mode operand => { value := .byte (s.target mode operand), after := s }

/-- Answers requests one after another. -/
def serveAll (s : Flat) : List Request → Effect (List Reply)
  | [] => { value := [], after := s }
  | request :: rest =>
    let first := s.serve request
    let others := first.after.serveAll rest
    { value := first.value :: others.value
      notices := first.notices ++ others.notices
      after := others.after }

end Flat
end Kenbak1
