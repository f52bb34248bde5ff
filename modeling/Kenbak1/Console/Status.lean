/-
  Kenbak1.Console.Status

  What the status line of the console reports.
-/
import Kenbak1.Button
import Kenbak1.Instruction

namespace Kenbak1

/-- The last thing the console did. -/
inductive Status where
  /-- Started up; the line explains the keys. -/
  | ready
  /-- Pressed a button, with the input and the address latch afterwards. -/
  | pressed (button : Button) (input latch : UInt8)
  /-- Executed one instruction at an address, with the line listed there. -/
  | stepped (address : UInt8) (text : String)
  /-- Stopped at a breakpoint. -/
  | stoppedAt (address : UInt8)
  /-- Ran until the machine halted, with the number of instructions executed since the last
      reset and the last of them. -/
  | finished (executed : Nat) (last : Option Operation)
  | breakpointSet (address : UInt8)
  | breakpointRemoved (address : UInt8)
  | reset
  deriving DecidableEq

namespace Status

/-- The text of the status line. -/
def text : Status → String
  | .ready => "Stopped. 0-7 bits, s/d/r/Enter set/display/read/store, g start, q quit."
  | .pressed button input latch =>
      button.label ++ "  IN=" ++ octal input ++ " latch=" ++ octal latch
  | .stepped address line => "P=" ++ octal address ++ ": " ++ line
  | .stoppedAt address => "Breakpoint at P=" ++ octal address
  | .finished executed last =>
      "Halted after " ++ toString executed ++ " instructions (last: "
        ++ (match last with
            | some operation => operation.mnemonic
            | none => "-") ++ ")"
  | .breakpointSet address => "Set breakpoint at P=" ++ octal address
  | .breakpointRemoved address => "Removed breakpoint at P=" ++ octal address
  | .reset => "Reset. Stopped."

end Status

end Kenbak1
