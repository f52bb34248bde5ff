/-
  Kenbak1.Machine.Entry

  Entry by hand: the input register, and the address latch through which an operator stores
  and inspects bytes. The latch moves on after a store and stays after a read.
-/
import Kenbak1.Instruction.Action
import Kenbak1.Machine

namespace Kenbak1
namespace Machine

variable {β : Type}

/-! ## Input -/

/-- Sets a bit of the input; the number counts modulo eight. -/
def setInputBit (m : Machine β) (number : UInt8) : Machine β :=
  m.set .input (m.bank.input ||| bitMask (Fin.ofNat 8 number.toNat))

/-- Zeroes the input. -/
def clearInput (m : Machine β) : Machine β :=
  m.set .input 0

/-! ## The address latch -/

/-- Latches the input as the address. -/
def latchInput (m : Machine β) : Machine β :=
  { m with latch := m.bank.input }

/-- Shows the latched address on the output. -/
def showLatch (m : Machine β) : Machine β :=
  m.set .out m.latch

variable [Bus β]

/-- Stores the input at the latched address, which then moves on by one. -/
def storeInput (m : Machine β) : Machine β :=
  let stored := m.writeByte m.latch m.bank.input
  { stored with latch := stored.latch + 1 }

/-- Shows the byte at the latched address on the output. -/
def showLatched (m : Machine β) : Machine β :=
  let value := m.readByte m.latch
  value.2.set .out value.1

end Machine
end Kenbak1
