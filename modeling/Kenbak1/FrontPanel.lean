/-
  Kenbak1.FrontPanel

  A machine wired to its buttons and lamps. The data buttons set bits of the input; the
  control buttons move bytes between the input, the latched address and the output, and
  start and stop the machine. While a program runs the data lamps follow the output.
-/
import Kenbak1.Image
import Kenbak1.Lamps
import Kenbak1.Machine.Entry
import Kenbak1.Machine.Execute

namespace Kenbak1

/-- A machine and its lamps. -/
structure FrontPanel (β : Type) where
  machine : Machine β
  lamps : Lamps

namespace FrontPanel

variable {β : Type}

/-- The panel of a machine, its lamps showing the output and the run state. -/
def ofMachine (machine : Machine β) : FrontPanel β :=
  let lit := Observer.notify ({} : Lamps) (.out machine.bank.out)
  { machine, lamps := Observer.notify lit (.halt machine.isHalted) }

/-- A machine in its reset state over zeroed memory. -/
def fresh : FrontPanel Memory :=
  ofMachine .fresh

/-- The diagnostic form. -/
def dump (panel : FrontPanel β) : Dump :=
  .record "FrontPanel" [("cpu", panel.machine.dump), ("lamps", panel.lamps.dump)]

/-- Lights a mode lamp and shows a register of a machine, which takes the machine's place. -/
def showRegister (panel : FrontPanel β) (machine : Machine β) (mode : ModeLamp) (r : Register) :
    FrontPanel β :=
  { machine, lamps := (panel.lamps.select (some mode)).display (machine.get r) }

/-- Stops or starts the machine. -/
def setHalt (panel : FrontPanel β) (halt : Bool) : FrontPanel β :=
  let after := panel.machine.setHalt halt panel.lamps
  { machine := after.1, lamps := after.2 }

variable [Bus β]

/-! ## Buttons -/

/-- Presses a button. -/
def press (panel : FrontPanel β) (button : Button) : FrontPanel β :=
  let panel := { panel with machine := panel.machine.note (.pressed button) }
  let m := panel.machine
  match button with
  | .bit number => panel.showRegister (m.setInputBit number) .input .input
  | .clear => panel.showRegister m.clearInput .input .input
  | .display => panel.showRegister m.showLatch .address .out
  | .set => panel.showRegister m.latchInput .address .out
  | .read => panel.showRegister m.showLatched .memory .out
  | .store => panel.showRegister m.storeInput .memory .out
  | .start => panel.setHalt false
  | .stop => panel.setHalt true

/-- Presses buttons one after another. -/
def pressAll (panel : FrontPanel β) (buttons : List Button) : FrontPanel β :=
  buttons.foldl press panel

/-- The data buttons of the bits that are set in a byte, bit 0 first. -/
def bitButtons (value : UInt8) : List Button :=
  (List.finRange 8).filterMap fun bit =>
    if value &&& bitMask bit != 0 then some (.bit (UInt8.ofNat bit.val)) else none

/-- The buttons that put a byte into the input. -/
def byteButtons (value : UInt8) : List Button :=
  .clear :: bitButtons value

/-- Enters bytes at an address as an operator does: sets the address, then keys in and
    stores each byte, and clears the input. -/
def keyIn (panel : FrontPanel β) (address : UInt8) (bytes : List UInt8) : FrontPanel β :=
  panel.pressAll
    (byteButtons address ++ .set :: bytes.flatMap (fun byte => byteButtons byte ++ [.store])
      ++ [.clear])

/-! ## Programs -/

/-- Where a loaded program starts: where the image itself sets P, else at the lowest address
    it writes that is no register's, else at `fallback`. The registers have been written. -/
def startOf (image : Image) (fallback written : UInt8) : UInt8 :=
  if image.cells.any (fun cell => cell.1 = Register.p.address) then written
  else image.origin?.getD fallback

/-- Writes an image, registers included, and sets P to the start of the program. -/
def load (panel : FrontPanel β) (image : Image) (fallback : UInt8) : FrontPanel β :=
  let written :=
    image.cells.foldl (fun m cell => m.writeByte cell.1 cell.2) panel.machine
  let start := startOf image fallback written.bank.p
  { machine := (written.jumpTo start).note (.loaded image.size start)
    lamps := Observer.notify panel.lamps (.out written.bank.out) }

/-! ## Running -/

/-- What an operation of the machine returned, and the panel after it. -/
def ofTurn {α : Type} (turn : Turn α β Lamps) : α × FrontPanel β :=
  (turn.value, { machine := turn.machine, lamps := turn.observer })

/-- Runs one burst and returns the number of instructions executed. -/
def runBurst (panel : FrontPanel β) (budget : Int) : Nat × FrontPanel β :=
  ofTurn (panel.machine.run budget panel.lamps)

/-- Runs one burst, and breaks off where a counter overflows. -/
def tryRunBurst (panel : FrontPanel β) (budget : Int) :
    Except (Machine.Failure β Lamps) (Nat × FrontPanel β) :=
  ofTurn <$> panel.machine.tryRun budget panel.lamps

/-- Executes one instruction. -/
def step (panel : FrontPanel β) : Option Instruction × FrontPanel β :=
  ofTurn (panel.machine.step panel.lamps)

/-- Executes one instruction, and breaks off where a counter overflows. -/
def tryStep (panel : FrontPanel β) :
    Except (Machine.Failure β Lamps) (Option Instruction × FrontPanel β) :=
  ofTurn <$> panel.machine.tryStep panel.lamps

/-- Resets the machine and sets the lamps accordingly. -/
def reset (panel : FrontPanel β) : FrontPanel β :=
  let machine := panel.machine.reset
  let lit := Observer.notify (panel.lamps.select none) (.out machine.bank.out)
  { machine, lamps := Observer.notify lit (.halt machine.isHalted) }

end FrontPanel

end Kenbak1
