/-
  Kenbak1.Console

  The operator's console: a front panel with a program, breakpoints, single steps and a
  status line. A machine that is started runs in bursts, one burst a tick. Breakpoints stop
  a burst before the instruction they stand at, except where the machine was just started.
-/
import Kenbak1.Config
import Kenbak1.Console.Breakpoints
import Kenbak1.Console.Status
import Kenbak1.FrontPanel
import Kenbak1.Machine.Window

namespace Kenbak1

/-- A console. -/
structure Console where
  panel : FrontPanel Memory
  /-- What a reset loads. -/
  program : Image
  config : Config
  breakpoints : Breakpoints := .empty
  status : Status := .ready
  /-- The address the memory view begins at. -/
  scroll : Nat := 0
  /-- The machine was just started, and a breakpoint at P does not stop it. -/
  resuming : Bool := false

namespace Console

/-! ## Resetting -/

/-- The panel after a reset: a machine over zeroed memory with the program in it, stopped.
    The journal goes on. -/
def resetPanel (program : Image) (config : Config) (journal : Journal) : FrontPanel Memory :=
  let machine := { Machine.fresh with cost := config.cyclesPerInstruction.toNat, journal }
  ((FrontPanel.ofMachine machine).load program config.loadAddress).press .stop

/-- Reloads the program and stops. The breakpoints stay. -/
def reset (c : Console) : Console :=
  { c with
    panel := resetPanel c.program c.config c.panel.machine.journal
    status := .reset }

/-- The console of a program, stopped at its start. -/
def new (program : Image) (config : Config) : Console :=
  { panel := resetPanel program config .off, program, config }

/-! ## Buttons and breakpoints -/

/-- Presses a button of the panel. -/
def press (c : Console) (button : Button) : Console :=
  let panel := c.panel.press button
  { c with
    panel
    resuming := button = .start
    status := .pressed button panel.machine.bank.input panel.machine.latch }

/-- Sets a breakpoint at P, or removes the one that is there. -/
def toggleBreakpoint (c : Console) : Console :=
  let p := c.panel.machine.bank.p
  if c.breakpoints.contains p then
    { c with breakpoints := c.breakpoints.erase p, status := .breakpointRemoved p }
  else
    { c with breakpoints := c.breakpoints.insert p, status := .breakpointSet p }

/-! ## Executing -/

/-- The end of a tick: the machine is no longer being resumed, and if it halted the status
    line says so. -/
def settle (c : Console) : Console :=
  let m := c.panel.machine
  { c with
    resuming := false
    status := if m.isHalted then .finished m.executed (m.last.map (·.operation)) else c.status }

/-- The number of instructions a burst pays for; an instruction counts at least one cycle. -/
def burstRounds (cost : Nat) (burst : Int) : Nat :=
  ((burst + max cost 1 - 1) / max cost 1).toNat

section Executing

variable {μ : Type → Type} [Monad μ]
variable (step : FrontPanel Memory → μ (Option Instruction × FrontPanel Memory))
variable (runBurst : FrontPanel Memory → Int → μ (Nat × FrontPanel Memory))

/-- Executes one instruction even if the machine stands; then it stands again. The status
    line shows what is listed at the address of the instruction after it was executed. -/
def stepBy (c : Console) : μ Console := do
  let p := c.panel.machine.bank.p
  let stood := c.panel.machine.isHalted
  let stepped ← step (if stood then c.panel.setHalt false else c.panel)
  let line := stepped.2.machine.disassembleAt p
  let shown := { stepped.2 with machine := line.2 }
  pure { c with
    status := if stepped.1.isSome then .stepped p line.1.text else c.status
    panel := if stood && shown.machine.isRunning then shown.setHalt true else shown }

/-- Steps until a budget is used up, from which each instruction takes its price, or the
    machine stands, or it reaches a breakpoint. A breakpoint at P does not count while
    `resuming`. There are at most `bound` rounds. -/
@[specialize]
def spendBy (price : Nat) :
    (bound : Nat) → (budget : Int) → (resuming : Bool) → Console → μ Console
  | 0, _, _, c => pure c.settle
  | bound + 1, budget, resuming, c =>
    let p := c.panel.machine.bank.p
    if 0 < budget && c.panel.machine.isRunning then
      if c.breakpoints.contains p && !resuming then
        pure { c with panel := c.panel.press .stop, status := .stoppedAt p, resuming := false }
      else do
        let stepped ← step c.panel
        spendBy price bound (budget - price) false { c with panel := stepped.2 }
    else pure c.settle

/-- Runs one burst if the machine runs. With breakpoints the burst is a loop of the console's
    own, over a budget of its own. -/
def tickBy (c : Console) : μ Console :=
  let burst := c.config.burstCycles.toInt
  let cost := c.panel.machine.cost
  if c.panel.machine.isHalted then pure c
  else if c.breakpoints.isEmpty then do
    let ran ← runBurst c.panel burst
    pure (settle { c with panel := ran.2 })
  else spendBy step (max cost 1) (burstRounds cost burst) burst c.resuming c

end Executing

/-- Executes one instruction, also if the machine stands. -/
def step (c : Console) : Console :=
  stepBy (μ := Id) FrontPanel.step c

/-- Executes one instruction, and breaks off where a counter overflows. -/
def tryStep (c : Console) : Except (Machine.Failure Memory Lamps) Console :=
  stepBy FrontPanel.tryStep c

/-- Runs one burst if the machine runs. -/
def tick (c : Console) : Console :=
  tickBy (μ := Id) FrontPanel.step FrontPanel.runBurst c

/-- Runs one burst if the machine runs, and breaks off where a counter overflows. -/
def tryTick (c : Console) : Except (Machine.Failure Memory Lamps) Console :=
  tickBy FrontPanel.tryStep FrontPanel.tryRunBurst c

/-! ## Looking -/

/-- The window of the listing around P. -/
def window (c : Console) (lines : Nat) : List WindowRow × Console :=
  let rows := c.panel.machine.window lines
  (rows.1, { c with panel := { c.panel with machine := rows.2 } })

end Console

end Kenbak1
