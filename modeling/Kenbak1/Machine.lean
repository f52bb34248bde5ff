/-
  Kenbak1.Machine

  The state of a machine, its view of the address space and the resolution of operands. All
  traffic of the machine goes through `readByte` and `writeByte`, where the registers come
  before the bus; so the bus never sees a register's address.
-/
import Kenbak1.Journal
import Kenbak1.Listing
import Kenbak1.Memory
import Kenbak1.Notice

namespace Kenbak1

/-! ## State -/

/-- Whether a machine runs or stands. -/
inductive RunState where
  | running
  | halted
  deriving DecidableEq

namespace RunState

/-- Both states, in the order in which stored data lists them. -/
def all : List RunState := [.running, .halted]

/-- The name in stored data and diagnostics. -/
def label : RunState → String
  | .running => "Running"
  | .halted => "Halted"

end RunState

/-- The cycles an instruction costs unless set otherwise. -/
def defaultCost : Nat := 2000

/-- A machine on a bus. -/
structure Machine (β : Type) where
  bank : Bank := {}
  bus : β
  state : RunState := .running
  /-- Instructions executed since the last reset. -/
  executed : Nat := 0
  /-- Cycles left in the current burst; negative when the last instruction overdrew it. -/
  budget : Int := 0
  /-- Cycles an instruction costs. -/
  cost : Nat := defaultCost
  /-- The address latch of the front panel. -/
  latch : UInt8 := 0
  /-- The instruction executed last. -/
  last : Option Instruction := none
  journal : Journal := {}

/-- What an operation returned, with the machine and the observer after it. -/
structure Turn (α β σ : Type) where
  value : α
  machine : Machine β
  observer : σ

namespace Machine

/-- A machine in its reset state over zeroed memory. -/
def fresh : Machine Memory :=
  { bus := Memory.zero }

variable {β : Type}

/-- The machine with one more entry in its journal. -/
def note (m : Machine β) (entry : Entry) : Machine β :=
  { m with journal := m.journal.note entry }

/-- The value of a register. -/
def get (m : Machine β) (r : Register) : UInt8 :=
  m.bank.get r

/-- The machine with a register changed. -/
def set (m : Machine β) (r : Register) (value : UInt8) : Machine β :=
  { m with bank := m.bank.set r value }

/-- The machine with P at an address. -/
def jumpTo (m : Machine β) (address : UInt8) : Machine β :=
  { m with bank := m.bank.jump address }

/-- The machine stands. -/
def isHalted (m : Machine β) : Bool :=
  m.state = .halted

/-- The machine runs. -/
def isRunning (m : Machine β) : Bool :=
  m.state = .running

/-- Back to the reset state: registers, counts and the last instruction are cleared and the
    machine runs. Memory and the address latch stay. -/
def reset (m : Machine β) : Machine β :=
  { m with
    bank := .zero
    state := .running
    executed := 0
    budget := 0
    last := none
    journal := m.journal.note .reset }

/-- The diagnostic form. -/
def dump (m : Machine β) : Dump :=
  .record "Cpu"
    [("state", .word m.state.label), ("executed", .number m.executed),
      ("regs", m.bank.dump)]

/-! ## The address space -/

variable [Bus β]

/-- Reads a byte of the address space. -/
def readByte (m : Machine β) (address : UInt8) : UInt8 × Machine β :=
  match Register.ofAddress? address with
  | some r => (m.bank.get r, m)
  | none =>
    let answer := Bus.read m.bus address
    (answer.1, { m with bus := answer.2 })

/-- Writes a byte of the address space. -/
def writeByte (m : Machine β) (address value : UInt8) : Machine β :=
  match Register.ofAddress? address with
  | some r => { m with bank := m.bank.set r value }
  | none => { m with bus := Bus.write m.bus address value }

/-- The line of the listing at an address, read through the registers. -/
def disassembleAt (m : Machine β) (address : UInt8) : Line × Machine β :=
  (disassemble (m := StateM (Machine β)) (fun a m => m.readByte a) address).run m

/-! ## Operands -/

/-- The address of the cell an operand stands for; a constant stands for none. X is read
    before the pointer. -/
def effectiveAddress (m : Machine β) (mode : Mode) (operand : UInt8) :
    Option UInt8 × Machine β :=
  let x := m.bank.x
  match mode with
  | .constant => (none, m)
  | .memory => (some operand, m)
  | .indirect =>
    let pointer := m.readByte operand
    (some pointer.1, pointer.2)
  | .indexed => (some (operand + x), m)
  | .indirectIndexed =>
    let pointer := m.readByte operand
    (some (pointer.1 + x), pointer.2)

/-- The value an operand stands for. -/
def readOperand (m : Machine β) (mode : Mode) (operand : UInt8) : UInt8 × Machine β :=
  let target := m.effectiveAddress mode operand
  match target.1 with
  | some address => target.2.readByte address
  | none => (operand, target.2)

/-- Stores a value through an operand. Storing to a constant does nothing. -/
def writeOperand (m : Machine β) (mode : Mode) (operand value : UInt8) : Machine β :=
  let target := m.effectiveAddress mode operand
  match target.1 with
  | some address => target.2.writeByte address value
  | none => target.2

/-- The target of a jump: the operand itself, or for an indirect jump the byte it addresses. -/
def jumpTarget (m : Machine β) (mode : Mode) (operand : UInt8) : UInt8 × Machine β :=
  match mode with
  | .indirect => m.readByte operand
  | _ => (operand, m)

end Machine

end Kenbak1
