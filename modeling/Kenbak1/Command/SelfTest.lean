/-
  Kenbak1.Command.SelfTest

  The built-in self-test: small programs whose result is known.
-/
import Kenbak1.FrontPanel

namespace Kenbak1
namespace SelfTest

/-- A check of the self-test and, for when it fails, what was found. -/
structure Check where
  name : String
  passed : Bool
  detail : String := ""

namespace Check

/-- A check that a byte is as expected. -/
def byte (name : String) (found expected : UInt8) (extra : Bool) (label : String) : Check :=
  { name
    passed := extra && found = expected
    detail := "(got " ++ label ++ octal found ++ ", expected " ++ octal expected ++ ")" }

/-- The line of a check. -/
def line (c : Check) : String :=
  c.name ++ "... " ++ (if c.passed then "✓" else "✗ " ++ c.detail) ++ "\n"

end Check

/-- The budget of a test program. -/
def budget : Int := 1000000

/-- A machine with runs of bytes in memory, started at 004, after one burst. -/
def ran (runs : List (UInt8 × List UInt8)) : Turn Nat Memory Recorder :=
  let cells := runs.foldl (fun cells run => writeRun cells run.1.toNat run.2) Memory.zero.cells
  let m : Machine Memory := { bus := { cells } }
  (m.jumpTo 0o004).run budget ({} : Recorder)

/-- Every opcode has an operand exactly if it has an addressing mode. -/
def decoderCheck : Check where
  name := "Decoder covers all opcodes"
  passed := (List.range 256).all fun opcode =>
    let i := decode opcode.toUInt8
    i.size = if i.mode.isSome then 2 else 1

/-- Load, add and store to the output. -/
def addition : Turn Nat Memory Recorder :=
  ran [(0o004, [0o023, 0o005, 0o003, 0o003, 0o034, 0o200, 0o000])]

/-- The sum arrives on the output and the machine halts. -/
def additionCheck : Check :=
  .byte "CPU load/add/store" addition.machine.bank.out 0o010 addition.machine.isHalted "OUT="

/-- An optional byte in diagnostic form. -/
def optionText (value : Option UInt8) : String :=
  (Dump.option (value.map fun v => .number v.toNat)).inline

/-- The sum is sent to the lamps. -/
def noticeCheck : Check where
  name := "OUT pushed to lamps"
  passed := addition.observer.lastOutput? = some 0o010
  detail := "(got " ++ optionText addition.observer.lastOutput? ++ ")"

/-- A store through X. -/
def indexedCheck : Check :=
  let after := ran [(0o004, [0o223, 0o002, 0o023, 0o111, 0o036, 0o040, 0o000])]
  .byte "Indexed addressing" (after.machine.bus.read 0o042) 0o111 true ""

/-- A marking jump leaves its return address at its target. -/
def markCheck : Check :=
  let after := ran [(0o004, [0o364, 0o020]), (0o020, [0o000, 0o000])]
  .byte "Jump and mark" (after.machine.bus.read 0o020) 0o006 true ""

/-- A byte keyed in on the panel arrives in memory. -/
def panelCheck : Check :=
  let panel := (FrontPanel.fresh.keyIn 0o100 [0o252]).press .read
  .byte "Front panel store/read" (panel.machine.bus.read 0o100) 0o252 true ""

/-- The checks, in order. -/
def checks : List Check :=
  [decoderCheck, additionCheck, noticeCheck, indexedCheck, markCheck, panelCheck]

/-- All checks pass. -/
def succeeds : Bool :=
  checks.all (·.passed)

/-- The report of the self-test. -/
def report : String :=
  "━━━ Kenbak-1 Emulator Self-Test ━━━\n\n" ++ String.join (checks.map Check.line)
    ++ "\n━━━━━━━━━━━━━━━━━━━━━━━━━━━━━━\nResults: "
    ++ toString (checks.countP (·.passed)) ++ " passed, "
    ++ toString (checks.countP (!·.passed)) ++ " failed\n"
    ++ (if succeeds then "✓ All tests passed!\n" else "")

end SelfTest
end Kenbak1
