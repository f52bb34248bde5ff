/-
  Kenbak1.Button

  The fifteen buttons of the front panel: eight data buttons and seven control buttons.
-/
import Kenbak1.Dump

namespace Kenbak1

/-- A front panel button. -/
inductive Button where
  /-- A data button; the number counts modulo eight. -/
  | bit (number : UInt8)
  /-- Zero the input. -/
  | clear
  /-- Show the latched address. -/
  | display
  /-- Latch the input as the address. -/
  | set
  /-- Show the byte at the latched address. -/
  | read
  /-- Store the input at the latched address. -/
  | store
  | start
  | stop
  deriving DecidableEq

namespace Button

/-- The diagnostic form. -/
def dump : Button → Dump
  | .bit number => .apply "Bit" [.number number.toNat]
  | .clear => .word "Clear"
  | .display => .word "Display"
  | .set => .word "Set"
  | .read => .word "Read"
  | .store => .word "Store"
  | .start => .word "Start"
  | .stop => .word "Stop"

/-- The name in diagnostics. -/
def label (b : Button) : String :=
  b.dump.inline

/-- The buttons by index: data buttons 0 to 7, then the control buttons. -/
def byIndex : List Button :=
  [.bit 0, .bit 1, .bit 2, .bit 3, .bit 4, .bit 5, .bit 6, .bit 7,
    .clear, .display, .set, .read, .store, .start, .stop]

end Button

end Kenbak1
