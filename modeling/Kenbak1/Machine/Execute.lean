/-
  Kenbak1.Machine.Execute

  Execution: one instruction, one burst of cycles, and bursts up to a number of
  instructions. Every instruction costs the same number of cycles, and a burst goes on until
  its cycles are used up; it attempts at least one instruction.

  The budget and the count of instructions are kept in counters of 64 bits. `tryStep` breaks
  off where one of them overflows; `step` is the same instruction with counters that have no
  end. A loop such as `runBy` takes the way of executing an instruction as a parameter, so
  `run` and `tryRun` are one loop.
-/
import Kenbak1.Instruction.Action
import Kenbak1.Machine

namespace Kenbak1
namespace Machine

variable {β σ : Type} [Bus β] [Observer σ]

/-! ## One instruction -/

/-- Reads the byte at P after moving P on by one. -/
def fetch (m : Machine β) : UInt8 × Machine β :=
  { m with bank := m.bank.advance }.readByte m.bank.p

/-- A register gets a function of itself and an operand. -/
def combine (m : Machine β) (f : Combination) (r : Register) (mode : Mode) (operand : UInt8) :
    Machine β :=
  let value := m.readOperand mode operand
  value.2.set r (f.apply (value.2.get r) value.1)

/-- A jump that is taken. A marking jump stores P at its target and goes on behind it. -/
def take (m : Machine β) (mode : Mode) (mark : Bool) (operand : UInt8) : Machine β :=
  let target := m.jumpTarget mode operand
  if mark then
    (target.2.writeByte target.1 target.2.bank.p).jumpTo (target.1 + 1)
  else target.2.jumpTo target.1

/-- Skips two bytes, whatever stands there, if a bit of a cell is as wanted. -/
def skip (m : Machine β) (bit : Fin 8) (wanted : Bool) (operand : UInt8) : Machine β :=
  let cell := m.readByte operand
  if (cell.1 &&& bitMask bit != 0) = wanted then cell.2.jumpTo (cell.2.bank.p + 2) else cell.2

/-- Sets or clears a bit of a cell. -/
def assign (m : Machine β) (bit : Fin 8) (value : Bool) (operand : UInt8) : Machine β :=
  let cell := m.readByte operand
  cell.2.writeByte operand
    (if value then cell.1 ||| bitMask bit else cell.1 &&& ~~~(bitMask bit))

/-- Carries out an action whose operand byte has been fetched. -/
def perform (m : Machine β) (action : Action) (operand : UInt8) : Machine β :=
  match action with
  | .combine f r mode => m.combine f r mode operand
  | .store r mode => m.writeOperand mode operand (m.get r)
  | .jump none mode mark => m.take mode mark operand
  | .jump (some (condition, r)) mode mark =>
    if condition.holds (m.get r) then m.take mode mark operand else m
  | .skip bit wanted => m.skip bit wanted operand
  | .assign bit value => m.assign bit value operand
  | .shift shift r places => m.set r (shift.apply (m.get r) places)
  | .noop => m
  | .halt => { m.note (.halted (m.bank.p - 1)) with state := .halted }

/-- Carries out an instruction whose operand byte has been fetched. An instruction that no
    opcode stands for stops the machine with a fault. -/
def execute (m : Machine β) (instruction : Instruction) (operand : UInt8) : Machine β :=
  match instruction.action with
  | .ok action => m.perform action operand
  | .error f => { m.note (.fault f) with state := .halted }

/-- Fetches and executes the instruction at P. -/
def executeNext (m : Machine β) : Instruction × Machine β :=
  let opcode := m.fetch
  let instruction := decode opcode.1
  let operand := if instruction.hasOperand then opcode.2.fetch else (0, opcode.2)
  let noted := operand.2.note (.executed m.bank.p instruction operand.1)
  (instruction, noted.execute instruction operand.1)

/-- Executes one instruction and then sends the output register and the halt flag. A machine
    that stands executes nothing, sends nothing and gives up its cycles. -/
def step (m : Machine β) (observer : σ) : Turn (Option Instruction) β σ :=
  match m.state with
  | .halted => { value := none, machine := { m with budget := 0 }, observer }
  | .running =>
    let done := m.executeNext
    let after := { done.2 with
      budget := done.2.budget - done.2.cost
      executed := done.2.executed + 1
      last := some done.1 }
    let shown := Observer.notify observer (.out after.bank.out)
    { value := some done.1
      machine := after
      observer := Observer.notify shown (.halt after.isHalted) }

/-! ## Counters that overflow -/

/-- The smallest number of a 64-bit signed counter. -/
def minBudget : Int := -0x8000000000000000

/-- The largest number of a 64-bit signed counter; budgets end there. -/
def maxBudget : Int := 0x7fffffffffffffff

/-- The counter that an instruction overflows. -/
inductive Overflow where
  /-- The budget, from which the cost of the instruction is taken. -/
  | budget
  /-- The number of instructions executed. -/
  | count
  deriving DecidableEq

/-- The report of an overflow. -/
def Overflow.message : Overflow → String
  | .budget => "attempt to subtract with overflow"
  | .count => "attempt to add with overflow"

/-- The overflow in the next step. The cost is taken from the budget before the instruction
    is counted. -/
def overflow? (m : Machine β) : Option Overflow :=
  if m.isHalted then none
  else if m.budget - m.cost < minBudget then some .budget
  else if UInt64.size ≤ m.executed + 1 then some .count
  else none

/-- An operation that broke off, with the machine and the observer as they were then. -/
structure Failure (β σ : Type) where
  overflow : Overflow
  machine : Machine β
  observer : σ

/-- The failure of a step. The instruction was executed, but it is not counted, and nothing is
    sent. -/
def failure (m : Machine β) (observer : σ) (overflow : Overflow) : Failure β σ :=
  let done := m.executeNext
  { overflow
    machine := match overflow with
      | .budget => done.2
      | .count => { done.2 with budget := done.2.budget - done.2.cost }
    observer }

/-- Executes one instruction as `step` does, and breaks off where a counter overflows. -/
def tryStep (m : Machine β) (observer : σ) :
    Except (Failure β σ) (Turn (Option Instruction) β σ) :=
  match m.overflow? with
  | none => .ok (m.step observer)
  | some overflow => .error (m.failure observer overflow)

/-! ## One burst -/

/-- A bound on the steps of a burst: the number of instructions its budget pays for, but at
    least one. Instructions that cost nothing are bounded by the range of the count of
    executed instructions alone. -/
def stepBound (cost : Nat) (budget : Int) : Nat :=
  if cost = 0 then UInt64.size
  else max 1 ((budget + cost - 1) / cost).toNat

section Bursts

variable {μ : Type → Type} [Monad μ]
variable (step : Machine β → σ → μ (Turn (Option Instruction) β σ))

/-- Steps until the machine stands or its budget is used up, at most `bound` times. -/
@[specialize]
def spendBy : (bound : Nat) → Machine β → σ → μ (Machine β × σ)
  | 0, m, observer => pure (m, observer)
  | bound + 1, m, observer => do
    let turn ← step m observer
    if turn.value.isNone || turn.machine.budget ≤ 0 then pure (turn.machine, turn.observer)
    else spendBy bound turn.machine turn.observer

/-- Runs one burst and returns the number of instructions executed. -/
@[specialize]
def runBy (m : Machine β) (budget : Int) (observer : σ) : μ (Turn Nat β σ) := do
  let after ← spendBy step (stepBound m.cost budget) { m with budget } observer
  pure { value := after.1.executed - m.executed, machine := after.1, observer := after.2 }

end Bursts

/-- The steps of a burst. -/
def spend (bound : Nat) (m : Machine β) (observer : σ) : Machine β × σ :=
  spendBy (μ := Id) step bound m observer

theorem spend_succ (bound : Nat) (m : Machine β) (observer : σ) :
    spend (bound + 1) m observer =
      if (m.step observer).value.isNone || (m.step observer).machine.budget ≤ 0 then
        ((m.step observer).machine, (m.step observer).observer)
      else spend bound (m.step observer).machine (m.step observer).observer := rfl

/-- Runs one burst and returns the number of instructions executed. -/
def run (m : Machine β) (budget : Int) (observer : σ) : Turn Nat β σ :=
  runBy (μ := Id) step m budget observer

theorem run_eq_spend (m : Machine β) (budget : Int) (observer : σ) :
    m.run budget observer =
      { value :=
          (spend (stepBound m.cost budget) { m with budget } observer).1.executed - m.executed
        machine := (spend (stepBound m.cost budget) { m with budget } observer).1
        observer := (spend (stepBound m.cost budget) { m with budget } observer).2 } := rfl

/-- Runs one burst, and breaks off where a counter overflows. -/
def tryRun (m : Machine β) (budget : Int) (observer : σ) :
    Except (Failure β σ) (Turn Nat β σ) :=
  runBy tryStep m budget observer

/-! ## Bursts up to a limit -/

/-- The budget of the next burst when `remaining` instructions are allowed: a burst is cut
    short so that the limit is not overshot. -/
def nextBudget (cost : Nat) (burst : Int) (remaining : Nat) : Int :=
  min burst (min maxBudget (min maxBudget remaining * max cost 1))

section Limit

variable {μ : Type → Type} [Monad μ]
variable (step : Machine β → σ → μ (Turn (Option Instruction) β σ))

/-- Runs bursts while the machine runs and fewer than `limit` instructions have been
    executed, `executed` being those so far; every burst executes at least one. -/
@[specialize]
def burstsBy (burst : Int) (limit : Nat) :
    (rounds executed : Nat) → Machine β → σ → μ (Turn Nat β σ)
  | 0, executed, m, observer => pure { value := executed, machine := m, observer }
  | rounds + 1, executed, m, observer =>
    if m.isRunning && executed < limit then do
      let turn ← runBy step m (nextBudget m.cost burst (limit - executed)) observer
      burstsBy burst limit rounds (executed + turn.value) turn.machine turn.observer
    else pure { value := executed, machine := m, observer }

end Limit

/-- The bursts of a run that has executed some instructions. -/
def bursts (burst : Int) (limit rounds executed : Nat) (m : Machine β) (observer : σ) :
    Turn Nat β σ :=
  burstsBy (μ := Id) step burst limit rounds executed m observer

theorem bursts_succ (burst : Int) (limit rounds executed : Nat) (m : Machine β) (observer : σ) :
    bursts burst limit (rounds + 1) executed m observer =
      if m.isRunning && executed < limit then
        let turn := m.run (nextBudget m.cost burst (limit - executed)) observer
        bursts burst limit rounds (executed + turn.value) turn.machine turn.observer
      else { value := executed, machine := m, observer } := rfl

/-- Runs bursts until the machine stands or `limit` instructions have been executed, and
    returns their number. -/
def runBursts (m : Machine β) (burst : Int) (limit : Nat) (observer : σ) : Turn Nat β σ :=
  bursts burst limit limit 0 m observer

/-- Runs bursts up to a limit, and breaks off where a counter overflows. -/
def tryRunBursts (m : Machine β) (burst : Int) (limit : Nat) (observer : σ) :
    Except (Failure β σ) (Turn Nat β σ) :=
  burstsBy tryStep burst limit limit 0 m observer

/-- Runs at most `limit` instructions with the largest burst. -/
def runLimited (m : Machine β) (limit : Nat) (observer : σ) : Turn Nat β σ :=
  m.runBursts maxBudget limit observer

/-- Runs at most `limit` instructions, and breaks off where a counter overflows. -/
def tryRunLimited (m : Machine β) (limit : Nat) (observer : σ) :
    Except (Failure β σ) (Turn Nat β σ) :=
  m.tryRunBursts maxBudget limit observer

/-! ## Stopping and starting -/

/-- Stops or starts the machine from outside, and sends the halt flag. -/
def setHalt (m : Machine β) (halt : Bool) (observer : σ) : Machine β × σ :=
  ({ m.note (.haltSet halt) with state := if halt then .halted else .running },
    Observer.notify observer (.halt halt))

end Machine
end Kenbak1
