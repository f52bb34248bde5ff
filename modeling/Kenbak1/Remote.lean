/-
  Kenbak1.Remote

  A machine for another program to drive: it is given octal text, is stepped and run in
  bursts, and answers questions about its cells. A call that fails changes nothing.
-/
import Kenbak1.FrontPanel
import Kenbak1.Image.Text
import Kenbak1.Json
import Kenbak1.Machine.Window

namespace Kenbak1

/-- A front panel and the program a reset loads. -/
structure Remote where
  panel : FrontPanel Memory := .fresh
  program : Image := .empty

/-- Why a call fails. -/
inductive RemoteError where
  /-- The text is no image. -/
  | image (error : ImageError)
  /-- The machine stands. -/
  | halted
  /-- There is no button of that number. -/
  | noButton (index : Nat)
  deriving DecidableEq

/-- The report of an error. -/
def RemoteError.message : RemoteError → String
  | .image error => error.message
  | .halted => "CPU is halted"
  | .noButton index => "no button " ++ toString index

namespace Remote

/-- Where bytes without an address go, and where a program without bytes starts. -/
def defaultOrigin : UInt8 := 0o004

/-! ## Programs -/

/-- The panel of a machine with a program in it, ready to run. -/
def panelOf (program : Image) : FrontPanel Memory :=
  FrontPanel.fresh.load program defaultOrigin

/-- Reloads the program. -/
def reset (r : Remote) : Remote :=
  { r with panel := panelOf r.program }

/-- Takes octal text as the new program and reloads. Returns the number of its bytes. -/
def loadText (r : Remote) (text : String) : Except RemoteError Nat × Remote :=
  match Image.parse text defaultOrigin with
  | .ok program => (.ok program.size, { r with program }.reset)
  | .error error => (.error (.image error), r)

/-! ## Running -/

section Running

variable {μ : Type → Type} [Monad μ]

/-- Executes one instruction and returns the line listed there before. -/
def stepBy (step : FrontPanel Memory → μ (Option Instruction × FrontPanel Memory)) (r : Remote) :
    μ (Except RemoteError String × Remote) :=
  if r.panel.machine.isRunning then do
    let line := r.panel.machine.disassembleAt r.panel.machine.bank.p
    let stepped ← step { r.panel with machine := line.2 }
    pure (.ok line.1.text, { r with panel := stepped.2 })
  else pure (.error .halted, r)

/-- Runs one burst and returns the number of instructions executed. -/
def runBy (runBurst : FrontPanel Memory → Int → μ (Nat × FrontPanel Memory)) (r : Remote)
    (budget : UInt32) : μ (Nat × Remote) := do
  let after ← runBurst r.panel budget.toNat
  pure (after.1, { r with panel := after.2 })

end Running

/-- Executes one instruction and returns the line listed there before. -/
def step (r : Remote) : Except RemoteError String × Remote :=
  stepBy (μ := Id) FrontPanel.step r

theorem step_eq (r : Remote) :
    r.step =
      if r.panel.machine.isRunning then
        let line := r.panel.machine.disassembleAt r.panel.machine.bank.p
        let stepped := { r.panel with machine := line.2 }.step
        (.ok line.1.text, { r with panel := stepped.2 })
      else (.error .halted, r) := rfl

/-- Executes one instruction, and breaks off where a counter overflows. -/
def tryStep (r : Remote) :
    Except (Machine.Failure Memory Lamps) (Except RemoteError String × Remote) :=
  stepBy FrontPanel.tryStep r

/-- Runs one burst and returns the number of instructions executed. -/
def run (r : Remote) (budget : UInt32) : Nat × Remote :=
  runBy (μ := Id) FrontPanel.runBurst r budget

/-- Runs one burst, and breaks off where a counter overflows. -/
def tryRun (r : Remote) (budget : UInt32) :
    Except (Machine.Failure Memory Lamps) (Nat × Remote) :=
  runBy FrontPanel.tryRunBurst r budget

/-- Presses the button of a number. -/
def press (r : Remote) (index : Nat) : Except RemoteError Unit × Remote :=
  match Button.byIndex[index]? with
  | some button => (.ok (), { r with panel := r.panel.press button })
  | none => (.error (.noButton index), r)

/-! ## Questions -/

/-- The value of the register of a name, in small or capital letters. -/
def register? (r : Remote) (name : String) : Option UInt8 :=
  (Register.all.find? fun q => q.name.toList.map Char.toLower = name.toList.map Char.toLower).map
    r.panel.machine.get

/-- The bytes at a list of addresses, registers included. -/
def bytesAt (r : Remote) (addresses : List UInt8) : List UInt8 × Remote :=
  let bytes := r.panel.machine.readEach addresses
  (bytes.1, { r with panel := { r.panel with machine := bytes.2 } })

/-- All bytes of the address space, registers included. -/
def bytes (r : Remote) : List UInt8 × Remote :=
  r.bytesAt ((List.range memorySize).map Nat.toUInt8)

/-- The registers in the order of their names. -/
def registersByName : List Register :=
  [.a, .b, .input, .oca, .ocb, .ocx, .out, .p, .x]

/-- The registers and the number of instructions executed, as JSON. -/
def registersJson (r : Remote) : Json :=
  .object
    (registersByName.map (fun q => (q.name, .number (r.panel.machine.get q).toNat))
      ++ [("executed", .number r.panel.machine.executed)])

end Remote

end Kenbak1
