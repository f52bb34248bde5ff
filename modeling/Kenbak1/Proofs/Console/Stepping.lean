/-
  Kenbak1.Proofs.Console.Stepping

  Stepping and running. `Console.step` starts the machine, executes one instruction and stops the
  machine again; without the panel around it, that is `Machine.single`. `iterate_single_eq_after`
  says that single steps one after another come to `Machine.after`, a machine that is started once
  and runs, as long as none of their instructions but the last is a halt, and `agrees_stepMany` says
  so of the panels (`FrontPanel.Agrees`).
-/
import Kenbak1.Proofs.Coherence
import Kenbak1.Proofs.Console.Burst
import Kenbak1.Proofs.Console.Session
import Kenbak1.Proofs.Machine.Bursts
import Kenbak1.Proofs.Machine.Quiet

namespace Kenbak1

/-! ## Machines that are started again and again -/

namespace Machine

variable {β : Type}

/-- The machine set running. -/
def started (m : Machine β) : Machine β :=
  { m with state := .running }

/-- What starting and stopping leave alone: the machine without run state and journal. -/
def core (m : Machine β) : Machine β :=
  { m with state := .halted, journal := .off }

theorem started_of_running {m : Machine β} (h : m.state = .running) : m.started = m := by
  unfold started
  rw [← h]

theorem core_of_quiet {m k : Machine β} (h : m.quiet = k.quiet) : m.core = k.core := by
  show m.quiet.core = k.quiet.core
  rw [h]

variable [Bus β] (m : Machine β)

/-- The machine after one instruction, whether it ran or stood. -/
def single : Machine β :=
  m.started.next

theorem core_single {m k : Machine β} (h : m.core = k.core) : m.single.core = k.single.core := by
  -- Set running and without journals, the two are the same machine.
  have hstarted : m.started.quiet = k.started.quiet := congrArg started h
  have hnext := congrArg next hstarted
  rw [next_quiet, next_quiet] at hnext
  exact core_of_quiet hnext

theorem executed_iterate_single (k : Nat) : (single^[k] m).executed = m.executed + k := by
  induction k with
  | zero => rfl
  | succ k ih =>
    rw [Function.iterate_succ_apply', single, executed_next_of_running rfl]
    show (single^[k] m).executed + 1 = _
    omega

/-- A machine goes on behind `single` exactly if the instruction was not a halt. -/
theorem state_single :
    m.single.state = .running ↔ ∀ instruction ∈ m.single.last, instruction.operation ≠ .halt := by
  have hlast : m.single.last = some m.started.executeNext.1 := by
    rw [single, next_of_running rfl]
    rfl
  rw [hlast, single, state_next_of_running rfl]
  simp

/-- Where no instruction but the last one is a halt, starting the machine again before each of them
    (`single`) is of no consequence. -/
theorem iterate_single_eq_after {k : Nat} (hk : 0 < k)
    (hruns : ∀ i, 0 < i → i < k → (single^[i] m).state = .running) :
    single^[k] m = m.started.after k := by
  -- The induction is on the instructions; starting a machine that still runs does nothing.
  induction k, hk using Nat.le_induction with
  | base => rfl
  | succ k hk ih =>
    have hbefore := ih fun i hi hik => hruns i hi (Nat.lt_succ_of_lt hik)
    have hstill := hruns k hk (Nat.lt_succ_self k)
    rw [Function.iterate_succ_apply', single, started_of_running hstill, hbefore,
      after_succ_eq_next]

theorem core_iterate_single {k : Nat}
    (hruns : ∀ i, 0 < i → i < k → (single^[i] m).state = .running) :
    (single^[k] m).core = (m.started.after k).core := by
  rcases Nat.eq_zero_or_pos k with rfl | hk
  · rfl
  · rw [iterate_single_eq_after m hk hruns]

theorem after_quiet (k : Nat) : m.quiet.after k = (m.after k).quiet := by
  induction k with
  | zero => rfl
  | succ k ih => rw [after_succ_eq_next, ih, next_quiet, after_succ_eq_next]

end Machine

/-! ## Panels -/

namespace FrontPanel

/-- Two panels have the same bytes in registers and memory and have executed the same number of
    instructions, and their data lamps show the same. -/
structure Agrees (panel other : FrontPanel Memory) : Prop where
  bank : panel.machine.bank = other.machine.bank
  bus : panel.machine.bus = other.machine.bus
  executed : panel.machine.executed = other.machine.executed
  data : panel.lamps.word.toUInt8 = other.lamps.word.toUInt8

theorem Agrees.of_core {panel other : FrontPanel Memory}
    (hcore : panel.machine.core = other.machine.core)
    (hdata : panel.lamps.data = other.lamps.data) : panel.Agrees other where
  bank := congrArg (·.bank) hcore
  bus := congrArg (·.bus) hcore
  executed := congrArg (·.executed) hcore
  data := by rw [Lamps.toUInt8_word, Lamps.toUInt8_word, hdata]

variable {β : Type} [Bus β]

/-- Behind an instruction the data lamps show the output. -/
theorem data_step {panel : FrontPanel β} (h : panel.machine.state = .running) :
    panel.step.2.lamps.data = panel.step.2.machine.bank.out := by
  unfold step
  rw [Machine.step_of_running h]
  rfl

theorem stepMany_succ_eq_step (panel : FrontPanel β) (k : Nat) :
    panel.stepMany (k + 1) = (panel.stepMany k).step.2 :=
  Function.iterate_succ_apply' _ k panel

end FrontPanel

/-! ## Consoles -/

namespace Console

variable {c : Console}

/-- A single step of a machine that stands. -/
theorem core_step (h : c.panel.machine.state = .halted) :
    c.step.panel.machine.core = c.panel.machine.single.core := by
  have hready : c.ready = c.panel.setHalt false := if_pos (decide_eq_true h)
  -- The start before the step and the stop behind it do not show in the core.
  have hcore : c.ready.machine.core = c.panel.machine.core := by
    rw [hready]
    rfl
  have hstepped : c.ready.step.2.machine.core = c.panel.machine.single.core := by
    rw [FrontPanel.machine_step, ← Machine.core_single hcore, Machine.single,
      Machine.started_of_running c.state_ready]
  rw [panel_step]
  split <;> exact hstepped

theorem data_step (c : Console) : c.step.panel.lamps.data = c.step.panel.machine.bank.out := by
  have hdata := FrontPanel.data_step c.state_ready
  rw [panel_step]
  split <;> exact hdata

section Steps

variable (h : c.panel.machine.state = .halted) (k : Nat)

include h

theorem state_iterate_step : (step^[k] c).panel.machine.state = .halted := by
  induction k with
  | zero => exact h
  | succ k ih =>
    rw [Function.iterate_succ_apply']
    exact (step^[k] c).state_step.mpr (.inl ih)

theorem core_iterate_step :
    (step^[k] c).panel.machine.core = (Machine.single^[k] c.panel.machine).core := by
  induction k with
  | zero => rfl
  | succ k ih =>
    rw [Function.iterate_succ_apply', Function.iterate_succ_apply',
      core_step (state_iterate_step h k)]
    exact Machine.core_single ih

end Steps

/-- A single step does not look at the breakpoints. -/
theorem iterate_step_breakpoints (c : Console) (b : Breakpoints) (k : Nat) :
    step^[k] { c with breakpoints := b } = { step^[k] c with breakpoints := b } := by
  induction k generalizing c with
  | zero => rfl
  | succ k ih =>
    rw [Function.iterate_succ_apply, Function.iterate_succ_apply]
    exact ih c.step

theorem inStep_iterate_step (h : c.panel.InStep) (k : Nat) : (step^[k] c).panel.InStep := by
  induction k with
  | zero => exact h
  | succ k ih =>
    rw [Function.iterate_succ_apply']
    exact inStep_step ih

/-! ## Stepping and running -/

/-- A console after a number of single steps. -/
structure Stepped (c : Console) (k : Nat) (after : Console) : Prop where
  state : after.panel.machine.state = .halted
  run : ¬ after.panel.lamps.isLit Lamps.runMask
  executed : after.panel.machine.executed = c.panel.machine.executed + k
  bank : after.panel.machine.bank = (Machine.single^[k] c.panel.machine).bank
  bus : after.panel.machine.bus = (Machine.single^[k] c.panel.machine).bus
  last : after.panel.machine.last = (Machine.single^[k] c.panel.machine).last
  /-- Breakpoints stay, and other breakpoints would have made no difference. -/
  breakpoints : after.breakpoints = c.breakpoints
  ignored : ∀ b, (step^[k] { c with breakpoints := b }).panel = after.panel

theorem stepped (hlamps : c.panel.InStep) (h : c.panel.machine.state = .halted) (k : Nat) :
    Stepped c k (step^[k] c) := by
  have hcore := core_iterate_step h k
  have hstate := state_iterate_step h k
  have hcount : (step^[k] c).panel.machine.executed = _ := congrArg (·.executed) hcore
  exact
    { state := hstate
      run := by
        rw [Lamps.isLit_run, (inStep_iterate_step hlamps k).run, Machine.isRunning, hstate]
        decide
      executed := hcount.trans (c.panel.machine.executed_iterate_single k)
      bank := congrArg (·.bank) hcore
      bus := congrArg (·.bus) hcore
      last := congrArg (·.last) hcore
      breakpoints := congrArg (·.breakpoints) (iterate_step_breakpoints c c.breakpoints k)
      ignored := fun b => congrArg (·.panel) (iterate_step_breakpoints c b k) }

/-- The machine that is started once and then runs. -/
theorem quiet_stepMany (c : Console) (k : Nat) :
    ((c.press .start).panel.stepMany k).machine.quiet = (c.panel.machine.started.after k).quiet := by
  have hstart : (c.press .start).panel.machine.quiet = c.panel.machine.started.quiet := rfl
  rw [FrontPanel.machine_stepMany, ← Machine.after_quiet, hstart, Machine.after_quiet]

/-- Single steps come to as many instructions of a machine that is started once (`stepMany`), where
    none of them but the last is a halt. -/
theorem agrees_stepMany (h : c.panel.machine.state = .halted) {k : Nat}
    (hruns : ∀ i, 0 < i → i < k → (Machine.single^[i] c.panel.machine).state = .running) :
    (step^[k] c).panel.Agrees ((c.press .start).panel.stepMany k) := by
  have hcore : (step^[k] c).panel.machine.core =
      ((c.press .start).panel.stepMany k).machine.core := by
    rw [core_iterate_step h, Machine.core_iterate_single _ hruns]
    exact Machine.core_of_quiet (quiet_stepMany c k).symm
  refine .of_core hcore ?_
  cases k with
  | zero => rfl
  | succ j =>
    -- Both have just executed an instruction, whose output the lamps show.
    have hbefore : ((c.press .start).panel.stepMany j).machine.state = .running := by
      have hquiet : ((c.press .start).panel.stepMany j).machine.state = _ :=
        congrArg (·.state) (quiet_stepMany c j)
      rw [hquiet]
      rcases Nat.eq_zero_or_pos j with rfl | hj
      · rfl
      · have hlast := hruns j hj (Nat.lt_succ_self j)
        rw [Machine.iterate_single_eq_after _ hj fun i hi hij =>
          hruns i hi (Nat.lt_succ_of_lt hij)] at hlast
        exact hlast
    rw [Function.iterate_succ_apply', data_step, FrontPanel.stepMany_succ_eq_step,
      FrontPanel.data_step hbefore, ← FrontPanel.stepMany_succ_eq_step,
      ← Function.iterate_succ_apply' step]
    exact congrArg (·.bank.out) hcore

/-- Running for a number of instructions in bursts comes to as many steps (`runBursts_eq_steps`). -/
theorem agrees_runBursts {panel other : FrontPanel Memory} {k : Nat}
    (h : other.Agrees (panel.stepMany k)) (hcost : 1 ≤ panel.machine.cost) (burst : Int) :
    other.Agrees
      { machine := (panel.machine.runBursts burst k panel.lamps).machine
        lamps := (panel.machine.runBursts burst k panel.lamps).observer } := by
  have hruns := Machine.runBursts_eq_steps burst (.inl hcost) k panel.lamps
  have hlamps : (panel.machine.runBursts burst k panel.lamps).observer = _ :=
    congrArg (·.observer) hruns
  rw [FrontPanel.stepMany_eq] at h
  exact
    { bank := h.bank.trans (congrArg (·.machine.bank) hruns).symm
      bus := h.bus.trans (congrArg (·.machine.bus) hruns).symm
      executed := h.executed.trans (congrArg (·.machine.executed) hruns).symm
      data := by
        rw [h.data, hlamps] }

/-! ## Room in the counters -/

theorem counters_step (c : Console) :
    c.step.panel.machine.budget = c.panel.machine.budget - c.panel.machine.cost ∧
      c.step.panel.machine.executed = c.panel.machine.executed + 1 := by
  have hbudget : c.ready.step.2.machine.budget = c.panel.machine.budget - c.panel.machine.cost := by
    rw [FrontPanel.machine_step, Machine.budget_next_of_running c.state_ready, cost_ready,
      budget_ready]
  have hexecuted : c.ready.step.2.machine.executed = c.panel.machine.executed + 1 := by
    rw [FrontPanel.machine_step, Machine.executed_next_of_running c.state_ready, executed_ready]
  rw [panel_step]
  split
  · exact ⟨hbudget, hexecuted⟩
  · exact ⟨hbudget, hexecuted⟩

/-- Calls of `tryStep` take their cost from one budget, which nothing sets in between, and break off
    with no overflow exactly if all of them have room in it and in the count. -/
theorem exists_comes_attempts_tryStep (k : Nat) (c : Console) :
    ∃ overflow, Machine.Comes (Machine.attempts tryStep k c) overflow (step^[k] c) ∧
      (overflow = none ↔
        k = 0 ∨ Machine.minBudget ≤ c.panel.machine.budget - k * c.panel.machine.cost ∧
          c.panel.machine.executed + k < UInt64.size) := by
  -- The induction is on the steps; each leaves less room to those behind it.
  induction k generalizing c with
  | zero => exact ⟨none, .ok c, by simp⟩
  | succ k ih =>
    obtain ⟨hbudget, hexecuted⟩ := c.counters_step
    obtain ⟨overflow, hrest, hnone⟩ := ih c.step
    rw [hbudget, hexecuted, c.cost_step] at hnone
    have hfirst := Machine.overflow?_eq_none_iff c.state_ready
    rw [cost_ready, budget_ready, executed_ready] at hfirst
    refine ⟨c.ready.machine.overflow?.or overflow, c.comes_tryStep.bind hrest, ?_⟩
    have hpaid : (0 : Int) ≤ k * c.panel.machine.cost := by positivity
    have hsum : ((k + 1 : Nat) : Int) * c.panel.machine.cost
        = k * c.panel.machine.cost + c.panel.machine.cost := by
      push_cast
      ring
    rw [Option.or_eq_none_iff, hfirst, hnone, hsum]
    rcases Nat.eq_zero_or_pos k with rfl | hk
    · simp
    · omega

theorem tryStep_attempts_eq_ok_iff (k : Nat) (c d : Console) :
    Machine.attempts tryStep k c = .ok d ↔
      (k = 0 ∨ Machine.minBudget ≤ c.panel.machine.budget - k * c.panel.machine.cost ∧
        c.panel.machine.executed + k < UInt64.size) ∧
      d = step^[k] c := by
  obtain ⟨overflow, hcomes, hnone⟩ := exists_comes_attempts_tryStep k c
  exact (hcomes.eq_ok_iff d).trans (and_congr_left fun _ => hnone)

/-- The cost of an instruction is the one that the console was configured with. -/
theorem cost_serveAll (program : Image) (config : Config) (requests : List Request) :
    ((new program config).serveAll requests).panel.machine.cost
      = config.cyclesPerInstruction.toNat := by
  -- The configuration has to be kept too, for a reset reads it.
  suffices h : ((new program config).serveAll requests).panel.machine.cost
        = config.cyclesPerInstruction.toNat ∧
      ((new program config).serveAll requests).config = config from h.1
  have hnew : (new program config).panel.machine.cost = config.cyclesPerInstruction.toNat ∧
      (new program config).config = config := ⟨cost_resetPanel program config .off, rfl⟩
  refine List.foldlRecOn (motive := fun c => c.panel.machine.cost
    = config.cyclesPerInstruction.toNat ∧ c.config = config) requests serve hnew ?_
  rintro c ⟨hcost, hconfig⟩ request -
  cases request with
  | press button => exact ⟨(FrontPanel.cost_press c.panel button).trans hcost, hconfig⟩
  | step => exact ⟨c.cost_step.trans hcost, hconfig⟩
  | tick => exact ⟨c.cost_tick.trans hcost, c.config_tick.trans hconfig⟩
  | toggleBreakpoint =>
    exact ⟨(congrArg (·.machine.cost) c.panel_toggleBreakpoint).trans hcost,
      c.config_toggleBreakpoint.trans hconfig⟩
  | reset =>
    refine ⟨(cost_resetPanel c.program c.config c.panel.machine.journal).trans ?_, hconfig⟩
    rw [hconfig]
  | window lines =>
    rw [serve, window_eq]
    exact ⟨hcost, hconfig⟩

/-- On a console that has been used in any way (`serveAll`) and whose machine stands, calls of
    `step` leave the machine standing with a dark run lamp. They have executed one instruction each,
    whatever breakpoints there are, and have left what the machine leaves that is set running before
    each instruction (`Stepped`). If no instruction but the last one is a halt, this is what a
    machine has reached (`Agrees`) that is started once and runs for as many instructions, be it in
    steps (`stepMany`) or in bursts (`runBursts`).

    In counters of 64 bits, as many calls of `tryStep` come to `step^[k] c` exactly if the budget
    has room for the cost of them all, and the count for their number; `tryRunBursts` comes to
    `runBursts` exactly if the budget of a burst has room for one instruction, and the count for
    those that are executed. -/
theorem steps_equal_run (program : Image) (config : Config) (requests : List Request) (k : Nat)
    (h : ((new program config).serveAll requests).panel.machine.state = .halted) :
    let c := (new program config).serveAll requests
    let started := (c.press .start).panel
    Stepped c k (step^[k] c) ∧
      ((∀ i, 0 < i → i < k → ∀ instruction ∈ (Machine.single^[i] c.panel.machine).last,
          instruction.operation ≠ .halt) →
        (step^[k] c).panel.Agrees (started.stepMany k) ∧
          (1 ≤ started.machine.cost → ∀ burst,
            (step^[k] c).panel.Agrees
              { machine := (started.machine.runBursts burst k started.lamps).machine
                lamps := (started.machine.runBursts burst k started.lamps).observer })) ∧
      (∀ d, Machine.attempts tryStep k c = .ok d ↔
        (k = 0 ∨ Machine.minBudget ≤ c.panel.machine.budget - k * c.panel.machine.cost ∧
          c.panel.machine.executed + k < UInt64.size) ∧
        d = step^[k] c) ∧
      (1 ≤ started.machine.cost → ∀ burst t,
        started.machine.tryRunBursts burst k started.lamps = .ok t ↔
          (0 < k → Machine.minBudget ≤ burst - started.machine.cost ∧
            (started.machine.runBursts burst k started.lamps).machine.executed < UInt64.size) ∧
          t = started.machine.runBursts burst k started.lamps) := by
  intro c started
  have hlamps : c.panel.InStep := inStep_serveAll (inStep_resetPanel program config .off) requests
  refine ⟨stepped hlamps h k, fun hfree => ?_, tryStep_attempts_eq_ok_iff k c,
    fun hcost burst t => ?_⟩
  -- An instruction that is not a halt leaves the machine running.
  · have hruns : ∀ i, 0 < i → i < k → (Machine.single^[i] c.panel.machine).state = .running := by
      intro i hi hik
      obtain ⟨j, rfl⟩ := Nat.exists_eq_succ_of_ne_zero hi.ne'
      have hlast := hfree (j + 1) hi hik
      rw [Function.iterate_succ_apply'] at hlast ⊢
      exact (Machine.state_single _).mpr hlast
    have hagrees := agrees_stepMany h hruns
    exact ⟨hagrees, agrees_runBursts hagrees⟩
  · have hsize : started.machine.cost < UInt32.size := by
      rw [show started.machine.cost = c.panel.machine.cost from FrontPanel.cost_press _ _,
        cost_serveAll]
      exact config.cyclesPerInstruction.toNat_lt
    have hruns : started.machine.state = .running := rfl
    rw [Machine.tryRunBursts_eq_ok_iff hcost hsize]
    simp only [hruns, true_and]

/-- Three instructions, the last a halt, with a breakpoint at the first. -/
theorem steps_equal_run_up_to_halt :
    let c := (new { cells := [(4, 0o023), (5, 7), (6, 0o034), (7, 0o200), (8, 0)] } {}).serveAll
      [.toggleBreakpoint]
    c.panel.machine.state = .halted ∧
      (∀ i, 0 < i → i < 3 → ∀ instruction ∈ (Machine.single^[i] c.panel.machine).last,
        instruction.operation ≠ .halt) ∧
      Stepped c 3 (step^[3] c) ∧
      (step^[3] c).panel.Agrees ((c.press .start).panel.stepMany 3) := by
  intro c
  have hstands : c.panel.machine.state = .halted := by decide +kernel
  have hfree : ∀ i, 0 < i → i < 3 → ∀ instruction ∈ (Machine.single^[i] c.panel.machine).last,
      instruction.operation ≠ .halt := by
    intro i hi hi3
    obtain rfl | rfl : i = 1 ∨ i = 2 := by omega
    · decide +kernel
    · decide +kernel
  obtain ⟨hstepped, hagrees, -⟩ := steps_equal_run _ _ [.toggleBreakpoint] 3 hstands
  exact ⟨hstands, hfree, hstepped, (hagrees hfree).1⟩

/-- A tick that is overdrawn from the start leaves a budget that has no room for a `tryStep`. -/
theorem single_step_breaks_off :
    let c := (new { cells := [(0o004, 0o344), (0o005, 0o004)] }
      { cyclesPerInstruction := 0xffffffff, burstCycles := -9223372030412324865 }).serveAll
      [.press .start, .tick, .press .stop]
    c.panel.machine.state = .halted ∧
      ∃ failure, Machine.attempts tryStep 1 c = .error failure ∧ failure.overflow = .budget := by
  intro c
  have hstands : c.panel.machine.state = .halted := by decide +kernel
  have hfull : c.ready.machine.overflow? = some .budget := by decide +kernel
  refine ⟨hstands, ((c.comes_tryStep.bind (.ok c.step)).eq_error_iff .budget).mpr ?_⟩
  rw [hfull]
  rfl

end Console
end Kenbak1
