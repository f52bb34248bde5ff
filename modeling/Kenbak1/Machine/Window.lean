/-
  Kenbak1.Machine.Window

  Views of the address space: the bytes at a list of addresses, and a window of the listing
  that begins a little before P and never runs past the last address.
-/
import Kenbak1.Machine

namespace Kenbak1

/-- A row of a window: an address, the line there, and whether P stands at it. -/
structure WindowRow where
  address : UInt8
  text : String
  current : Bool
  deriving DecidableEq

namespace Machine

variable {β : Type} [Bus β]

/-- Reads the bytes at a list of addresses, in order. -/
def readEach (m : Machine β) : List UInt8 → List UInt8 × Machine β
  | [] => ([], m)
  | address :: rest =>
    let byte := m.readByte address
    let others := byte.2.readEach rest
    (byte.1 :: others.1, others.2)

/-- Where a window of a number of lines begins: a quarter of it before `p`, but not before
    the first address. The quarter counts modulo 256. -/
def windowStart (p : UInt8) (lines : Nat) : UInt8 :=
  p - min p (lines / 4).toUInt8

/-- At most `count` rows from an address on. The row behind which no address is left is the
    last. -/
def windowFrom : (count : Nat) → UInt8 → Machine β → List WindowRow × Machine β
  | 0, _, m => ([], m)
  | count + 1, address, m =>
    let line := m.disassembleAt address
    let row : WindowRow := { address, text := line.1.text, current := address = m.bank.p }
    if address.toNat + line.1.size < memorySize then
      let below := windowFrom count (address + line.1.size.toUInt8) line.2
      (row :: below.1, below.2)
    else ([row], line.2)

/-- The window of a number of lines. -/
def window (m : Machine β) (lines : Nat) : List WindowRow × Machine β :=
  windowFrom lines (windowStart m.bank.p lines) m

end Machine

end Kenbak1
