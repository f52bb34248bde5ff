/-
  Kenbak1.Command.Run

  Running a program from the command line: all at once in bursts, or instruction by
  instruction with a line for each.
-/
import Kenbak1.Column
import Kenbak1.Command.Arguments
import Kenbak1.Config
import Kenbak1.FrontPanel

namespace Kenbak1
namespace Run

/-! ## Starting -/

/-- A machine with a program in it, ready to run. The input is set after the program is
    loaded. -/
def start (image : Image) (config : Config) (input : Option UInt8) : Machine Memory :=
  let loaded := (FrontPanel.fresh.load image config.loadAddress).machine
  let priced := { loaded with cost := config.cyclesPerInstruction.toNat }
  match input with
  | some value => priced.set .input value
  | none => priced

/-! ## Running -/

/-- An instruction that was executed: its address and line, and registers after it. -/
structure TraceRow where
  address : UInt8
  text : String
  a : UInt8
  b : UInt8
  x : UInt8
  out : UInt8
  deriving DecidableEq

/-- The line of a trace. -/
def TraceRow.render (row : TraceRow) : String :=
  octal row.address ++ ": " ++ padRight 16 row.text ++ " A=" ++ octal row.a ++ " B=" ++ octal row.b
    ++ " X=" ++ octal row.x ++ " OUT=" ++ octal row.out ++ "\n"

section Tracing

variable {β σ : Type} [Bus β] [Observer σ] {μ : Type → Type} [Monad μ]
variable (step : Machine β → σ → μ (Turn (Option Instruction) β σ))

/-- Executes one instruction and records it. -/
def traceStepBy (m : Machine β) (observer : σ) : μ (Turn TraceRow β σ) := do
  let p := m.bank.p
  let line := m.disassembleAt p
  let turn ← step line.2 observer
  let bank := turn.machine.bank
  pure { turn with
    value :=
      { address := p, text := line.1.text, a := bank.a, b := bank.b, x := bank.x
        out := bank.out } }

/-- Executes instructions while the machine runs, at most `limit`, and adds what they did to
    `rows`. -/
@[specialize]
def traceBy : (limit : Nat) → Array TraceRow → Machine β → σ → μ (Turn (Array TraceRow) β σ)
  | 0, rows, m, observer => pure { value := rows, machine := m, observer }
  | limit + 1, rows, m, observer =>
    if m.isRunning then do
      let turn ← traceStepBy step m observer
      traceBy limit (rows.push turn.value) turn.machine turn.observer
    else pure { value := rows, machine := m, observer }

/-- Executes one instruction and records it. -/
def traceStep (m : Machine β) (observer : σ) : Turn TraceRow β σ :=
  traceStepBy (μ := Id) Machine.step m observer

/-- The rows of a trace, behind those there are. -/
def trace (limit : Nat) (rows : Array TraceRow) (m : Machine β) (observer : σ) :
    Turn (Array TraceRow) β σ :=
  traceBy (μ := Id) Machine.step limit rows m observer

theorem trace_succ (limit : Nat) (rows : Array TraceRow) (m : Machine β) (observer : σ) :
    trace (limit + 1) rows m observer =
      if m.isRunning then
        let turn := traceStep m observer
        trace limit (rows.push turn.value) turn.machine turn.observer
      else { value := rows, machine := m, observer } := rfl

end Tracing

/-- What a run did: the lines it printed, the number of instructions executed, and the
    machine and the notices at its end. -/
structure Outcome where
  rows : Array TraceRow := #[]
  executed : Nat
  machine : Machine Memory
  recorder : Recorder

/-- The outcome of a trace. -/
def Outcome.ofTrace (turn : Turn (Array TraceRow) Memory Recorder) : Outcome :=
  { rows := turn.value
    executed := turn.value.size
    machine := turn.machine
    recorder := turn.observer }

/-- The outcome of bursts. -/
def Outcome.ofBursts (turn : Turn Nat Memory Recorder) : Outcome :=
  { executed := turn.value, machine := turn.machine, recorder := turn.observer }

/-- Runs with a line for each instruction. -/
def traced (m : Machine Memory) (limit : Nat) : Outcome :=
  .ofTrace (trace limit #[] m ({} : Recorder))

/-- Runs with a line for each instruction, and breaks off where a counter overflows. -/
def tryTraced (m : Machine Memory) (limit : Nat) :
    Except (Machine.Failure Memory Recorder) Outcome :=
  .ofTrace <$> traceBy Machine.tryStep limit #[] m ({} : Recorder)

/-- Runs in bursts. -/
def plain (m : Machine Memory) (burst : Int) (limit : Nat) : Outcome :=
  .ofBursts (m.runBursts burst limit ({} : Recorder))

/-- Runs in bursts, and breaks off where a counter overflows. -/
def tryPlain (m : Machine Memory) (burst : Int) (limit : Nat) :
    Except (Machine.Failure Memory Recorder) Outcome :=
  .ofBursts <$> m.tryRunBursts burst limit ({} : Recorder)

/-- Runs a program. -/
def outcome (image : Image) (config : Config) (options : RunOptions) : Outcome :=
  let m := start image config options.input
  if options.trace then traced m options.limit
  else plain m config.burstCycles.toInt options.limit

/-- Runs a program, and breaks off where a counter overflows. -/
def tryOutcome (image : Image) (config : Config) (options : RunOptions) :
    Except (Machine.Failure Memory Recorder) Outcome :=
  let m := start image config options.input
  if options.trace then tryTraced m options.limit
  else tryPlain m config.burstCycles.toInt options.limit

/-- The lines that a run has printed when it breaks off: those of the instructions counted. -/
def brokenRows (image : Image) (config : Config) (options : RunOptions)
    (failure : Machine.Failure Memory Recorder) : Array TraceRow :=
  let m := start image config options.input
  if options.trace then (traced m (failure.machine.executed - m.executed)).rows else #[]

/-! ## Reporting -/

/-- The lamp patterns in order, each as often as it changed. -/
def lampHistory (recorder : Recorder) : List UInt8 :=
  recorder.outputs.eraseReps

/-- The lamp patterns, if there were any. -/
def lampLine (history : List UInt8) : String :=
  if history.isEmpty then "" else "Lamps: " ++ joined " → " (history.map binary) ++ "\n"

/-- The note that a run was given up. -/
def limitNote (limit : Nat) : String :=
  "\n⚠️  Reached max instructions limit (" ++ toString limit
    ++ "). Use --max-instructions to increase.\n"

/-- The lines a run prints while it executes instructions. -/
def executionText (rows : Array TraceRow) : String :=
  "\n━━━ Execution ━━━\n" ++ String.join (rows.toList.map TraceRow.render)

/-- The report of a run. -/
def report (o : Outcome) (limit : Nat) : String :=
  executionText o.rows
    ++ "\n━━━ Result ━━━\nExecuted: " ++ toString o.executed
    ++ "\nState: " ++ o.machine.state.label
    ++ "\nP: " ++ octal o.machine.bank.p
    ++ "\n" ++ o.machine.bank.dump.inline ++ "\n"
    ++ lampLine (lampHistory o.recorder)
    ++ (if o.machine.isRunning then limitNote limit else "")

end Run
end Kenbak1
