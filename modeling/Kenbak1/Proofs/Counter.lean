/-
  Kenbak1.Proofs.Counter

  The budget where nothing sets it anew. A burst sets it and bare steps only take from it, and
  neither the rows of `Run.tryTraced` nor the rounds of `Console.tryTick` past breakpoints begin a
  burst (`exists_comes_attempts_tryTick`). What they take from a budget that began at zero is the
  cost of all instructions since: it holds as long as this cost is at most 2 ^ 63, and no longer
  (`overflowWithin_attempts_eq_budget_iff`).
-/
import Kenbak1.Proofs.Command.Operated
import Kenbak1.Proofs.Command.Overflow
import Kenbak1.Proofs.Machine.Calls

namespace Kenbak1

open Machine (Comes overflowWithin attempts)

/-! ## Steps -/

namespace Machine

variable {β : Type} [Bus β] {m : Machine β}

/-- From zero on, steps break off in the budget (`Overflow.budget`) exactly if the instructions
    among them cost more than it holds. -/
theorem overflowWithin_attempts_eq_budget_iff (hm : m.state = .running) (hzero : m.budget = 0)
    (hnone : m.executed = 0) (n : Nat) :
    overflowWithin n m = some .budget ↔ 2 ^ 63 < (m.after n).executed * m.cost := by
  obtain ⟨k, -, -, hruns, hcount, hsteps⟩ := exists_overflowWithin_eq hm n
  rw [hsteps, overflowWithin_eq_budget_iff hruns hzero hnone, hcount, hnone, Nat.zero_add]

/-- A running machine whose next instruction changes nothing but the `Ledger` executes that
    instruction forever. -/
theorem after_of_next {l : Ledger} (hm : m.state = .running)
    (hnext : m.next.withLedger l = m.withLedger l) (n : Nat) :
    (m.after n).withLedger l = m.withLedger l := by
  induction n with
  | zero => rfl
  | succ n ih =>
    -- Behind `n` instructions the machine differs from the first one in its ledger alone.
    have hsame : m.after n = m.withLedger (m.after n).ledger :=
      congrArg (fun k => k.withLedger (m.after n).ledger) ih
    have hruns : (m.withLedger (m.after n).ledger).state = .running := hm
    rw [after_succ_eq_next, hsame, next_of_running hruns, executeNext_withLedger]
    rw [next_of_running hm] at hnext
    exact hnext

end Machine

/-! ## Ticks past breakpoints -/

namespace Console

/-- Rounds of `guarded` on a machine that never halts and never comes to a breakpoint. -/
theorem machine_guarded_endless {c : Console}
    (hruns : ∀ i, (c.panel.machine.after i).state = .running)
    (hpasses : ∀ i, c.breakpoints.contains (c.panel.machine.after i).bank.p = false)
    (rounds : Nat) (resuming : Bool) :
    (guarded rounds resuming c).panel.machine = c.panel.machine.after rounds := by
  have hloop := guarded_add (k := rounds) resuming (fun i _ => hruns i)
    (fun i _ hbreak => absurd hbreak (by simp [hpasses i])) 0
  rw [Nat.add_zero] at hloop
  rw [hloop]
  exact FrontPanel.machine_stepMany c.panel rounds

/-- A tick of such a machine takes all the `burstRounds` that its burst pays for. -/
theorem comes_tryTick_endless {c : Console} (hset : ¬ c.breakpoints.isEmpty)
    (hruns : ∀ i, (c.panel.machine.after i).state = .running)
    (hpasses : ∀ i, c.breakpoints.contains (c.panel.machine.after i).bank.p = false) :
    Comes c.tryTick
      (overflowWithin (burstRounds c.panel.machine.cost c.config.burstCycles.toInt)
        c.panel.machine) c.tick := by
  obtain ⟨k, hreaches, hcomes⟩ := exists_comes_tryTick_of_breakpoints hset
  have hcount := hreaches.executed
  rw [tick_of_breakpoints (hruns 0) hset, machine_guarded_endless hruns hpasses,
    Machine.executed_after_of_running fun i _ => hruns i] at hcount
  rwa [Nat.add_left_cancel hcount]

/-- Where a breakpoint is set, ticks are bare steps up to a halt or a stop, and they break off
    where one of these does. -/
theorem exists_comes_attempts_tryTick {c : Console} (hset : ¬ c.breakpoints.isEmpty) (n : Nat) :
    ∃ k, c.panel.machine.Reaches k (tick^[n] c).panel.machine ∧
      Comes (attempts tryTick n c) (overflowWithin k c.panel.machine) (tick^[n] c) := by
  induction n generalizing c with
  | zero => exact ⟨0, .refl _, .ok c⟩
  | succ n ih =>
    obtain ⟨k, hreaches, hfirst⟩ := exists_comes_tryTick_of_breakpoints hset
    obtain ⟨j, hlater, hrest⟩ := ih (c := c.tick) (by rwa [breakpoints_tick])
    rw [Function.iterate_succ_apply]
    -- A machine that stands stays as it is; one that runs has not been stopped yet.
    cases hm : c.tick.panel.machine.state with
    | halted =>
      have hstays : tick^[n] c.tick = c.tick := Function.iterate_fixed (tick_of_halted hm) n
      have hboth := hfirst.bind hrest
      rw [Machine.overflowWithin_of_halted hm, Option.or_none, hstays] at hboth
      rw [hstays]
      exact ⟨k, hreaches, hboth⟩
    | running =>
      rw [hreaches.eq_after hm] at hlater hrest
      refine ⟨k + j, .trans hreaches.runs hlater, ?_⟩
      rw [Machine.overflowWithin_add]
      exact hfirst.bind hrest

end Console

/-! ## The start of a program -/

namespace Run

theorem ledger_start (image : Image) (config : Config) (input : Option UInt8) :
    (start image config input).ledger =
      { Machine.fresh.ledger with cost := config.cyclesPerInstruction.toNat } := by
  have hload : (FrontPanel.fresh.load image config.loadAddress).machine.ledger
      = Machine.fresh.ledger := by
    refine Machine.view_writeAll Machine.ledger (fun m a v => ?_) Machine.fresh image.cells
    rw [Machine.writeByte_eq]
    rfl
  rw [← hload]
  cases input <;> rfl

theorem state_start (image : Image) (config : Config) (input : Option UInt8) :
    (start image config input).state = .running := by
  have hload : (FrontPanel.fresh.load image config.loadAddress).machine.state = .running :=
    FrontPanel.state_load FrontPanel.fresh image config.loadAddress
  cases input <;> exact hload

theorem journal_start (image : Image) (config : Config) (input : Option UInt8) :
    (start image config input).journal = .off := by
  have hfresh : FrontPanel.fresh.machine.journal = .off := rfl
  have hload := Machine.invariant_off.load hfresh image config.loadAddress
  cases input <;> exact hload

theorem budget_start (image : Image) (config : Config) (input : Option UInt8) :
    (start image config input).budget = 0 := by
  have hbudget := congrArg Ledger.budget (ledger_start image config input)
  exact hbudget

theorem executed_start (image : Image) (config : Config) (input : Option UInt8) :
    (start image config input).executed = 0 := by
  have hexecuted := congrArg Ledger.executed (ledger_start image config input)
  exact hexecuted

end Run

/-! ## The room there is -/

/-- The budget overflows exactly if the instructions executed since it was zero cost more than
    2 ^ 63 cycles: on any bus under bare steps from the reset state (`Machine.trySteps`), on the
    command line under the rows of a trace (`Run.tryTraced`), and on the console under ticks
    (`Console.tryTick`), if a breakpoint is set. -/
theorem counter_in_range_iff {β σ : Type} [Bus β] [Observer σ] (bank : Bank) (bus : β)
    (image : Image) (config : Config) (input : Option UInt8) (b : Breakpoints) (a : UInt8) (n : Nat)
    (o : σ) :
    let cost := config.cyclesPerInstruction.toNat
    let reset : Machine β := { bank, bus, cost }
    let loaded := Run.start image config input
    let c : Console := { (Console.new image config).press .start with breakpoints := b.insert a }
    ((∃ failure, reset.trySteps n o = .error failure ∧ failure.overflow = .budget) ↔
      2 ^ 63 < (reset.after n).executed * cost) ∧
    ((∃ failure, Run.tryTraced loaded n = .error failure ∧ failure.overflow = .budget) ↔
      2 ^ 63 < (Run.traced loaded n).executed * cost) ∧
    ((∃ failure, attempts Console.tryTick n c = .error failure ∧ failure.overflow = .budget) ↔
      2 ^ 63 < (Console.tick^[n] c).panel.machine.executed * cost) := by
  intro cost reset loaded c
  have hcost : ∀ input, (Run.start image config input).cost = cost :=
    Run.cost_start image config
  -- Bare steps, a trace and ticks are all instructions from a budget of zero on.
  refine ⟨?_, ?_, ?_⟩
  · rw [(Machine.comes_trySteps n reset o).eq_error_iff]
    exact Machine.overflowWithin_attempts_eq_budget_iff (m := reset) rfl rfl rfl n
  · rw [(Run.comes_tryTraced loaded n).eq_error_iff, Run.executed_traced,
      Run.executed_start image config input, Nat.sub_zero, ← hcost input]
    exact Machine.overflowWithin_attempts_eq_budget_iff (Run.state_start image config input)
      (Run.budget_start image config input) (Run.executed_start image config input) n
  · have hm : c.panel.machine = Run.start image config none :=
      Console.machine_start_new image config
    have hset : ¬ c.breakpoints.isEmpty := by
      intro hnone
      have hinserted := c.breakpoints.contains_of_isEmpty hnone a
      rw [Breakpoints.contains_insert] at hinserted
      simp at hinserted
    obtain ⟨k, hreaches, hcomes⟩ := Console.exists_comes_attempts_tryTick hset n
    rw [hcomes.eq_error_iff, hreaches.executed]
    rw [hm] at hreaches ⊢
    rw [Run.executed_start, Nat.zero_add, ← hcost none]
    exact Machine.overflowWithin_eq_budget_iff hreaches.runs (Run.budget_start image config none)
      (Run.executed_start image config none)

/-- A program that jumps to itself does so forever. -/
theorem Run.after_self_jump (k : Nat) :
    let m := start { cells := [(0o004, 0o344), (0o005, 0o004)] }
      { cyclesPerInstruction := 0xffffffff, burstCycles := Int64.maxValue } none
    (m.after k).state = .running ∧ (m.after k).bank.p = 4 := by
  intro m
  have hrunning : m.state = .running := state_start _ _ none
  have hoff : m.journal = .off := journal_start _ _ none
  obtain ⟨hopcode, hoperand, hp, hbank, hstate⟩ : m.fetch.1 = 0o344 ∧ m.fetchAll.1 = 0o004 ∧
      m.bank.p = 0o004 ∧ m.next.bank = m.bank ∧ m.next.state = m.state := by
    decide +kernel
  have hjumps : m.Jumps .jpd 0o004 :=
    { running := hrunning
      operation := by rw [hopcode]; rfl
      operand := hoperand
      taken := fun c r hc => by rw [hopcode] at hc; cases hc }
  have hbus : m.next.bus = m.bus :=
    (hjumps.next_eq_take (by decide)).2.trans (hjumps.fetched (by decide)).2
  have hjournal : m.next.journal = m.journal := (Machine.invariant_off.step hoff ()).trans hoff.symm
  -- The jump leaves registers, memory, run state and journal as they are.
  have hnext : m.next.withLedger m.ledger = m.withLedger m.ledger := by
    unfold Machine.withLedger
    rw [hbank, hbus, hstate, hjournal]
  have hsame := Machine.after_of_next hrunning hnext k
  have hruns := congrArg Machine.state hsame
  have hstays := congrArg (fun l => l.bank.p) hsame
  exact ⟨hruns.trans hrunning, hstays.trans hp⟩

/-- A program that jumps to itself, at the highest cost there is. `Run.tryTraced` breaks off in
    instruction 2 ^ 31 + 1, and so does a single `tryTick` with a breakpoint set behind the program.
    A burst that is overdrawn from the start leaves the budget where the instructions before leave
    it. -/
theorem counter_leaves_range_self_jump :
    let image : Image := { cells := [(0o004, 0o344), (0o005, 0o004)] }
    let config : Config := { cyclesPerInstruction := 0xffffffff, burstCycles := Int64.maxValue }
    let m := Run.start image config none
    let c : Console :=
      { (Console.new image config).press .start with breakpoints := Breakpoints.empty.insert 0o010 }
    (∃ failure, Run.tryTraced m (2 ^ 31 + 1) = .error failure ∧ failure.overflow = .budget) ∧
      (∃ failure, c.tryTick = .error failure ∧ failure.overflow = .budget) ∧
      (m.run (-9223372030412324865) ()).machine.budget = (m.after (2 ^ 31)).budget ∧
      ¬ ∀ (image : Image) (config : Config) (input : Option UInt8) (n : Nat) (failure),
        Run.tryTraced (Run.start image config input) n = .error failure →
          failure.overflow ≠ .budget := by
  intro image config m c
  have hruns : ∀ k, (m.after k).state = .running := fun k => (Run.after_self_jump k).1
  have hcost : m.cost = 0xffffffff := Run.cost_start image config none
  have hzero : m.budget = 0 := Run.budget_start image config none
  have hlast : overflowWithin (2 ^ 31 + 1) m = some .budget := by
    rw [Machine.overflowWithin_eq_budget_iff (fun k _ => hruns k) hzero
      (Run.executed_start image config none), hcost]
    decide
  have htraced := ((Run.comes_tryTraced m (2 ^ 31 + 1)).eq_error_iff .budget).mpr hlast
  refine ⟨htraced, ?_, ?_, fun h => ?_⟩
  · -- The burst of the tick pays for one instruction more than there is room for.
    have hm : c.panel.machine = m := Console.machine_start_new image config
    have hset : ¬ c.breakpoints.isEmpty := by decide
    have hrounds : Console.burstRounds c.panel.machine.cost c.config.burstCycles.toInt
        = 2 ^ 31 + 1 := by
      rw [hm, hcost]
      decide
    have hgoes : ∀ i, (c.panel.machine.after i).state = .running := by
      intro i
      rw [hm]
      exact hruns i
    have hpasses : ∀ i, c.breakpoints.contains (c.panel.machine.after i).bank.p = false := by
      intro i
      rw [hm, (Run.after_self_jump i).2]
      decide
    have hcomes := Console.comes_tryTick_endless hset hgoes hpasses
    rw [hrounds] at hcomes
    rw [hcomes.eq_error_iff, hm]
    exact hlast
  · have hpaid := Machine.budget_after_of_running (k := 2 ^ 31) (fun k _ => hruns k)
    have hone : Machine.payable m.cost (-9223372030412324865) = 1 := by
      apply Machine.payable_of_le
      rw [hcost]
      decide
    have hoverdrawn := Machine.budget_next_of_running
      (m := m.withBudget (-9223372030412324865)) (hruns 0)
    rw [Machine.cost_withBudget, hcost] at hoverdrawn
    rw [Machine.run_eq_steps (.inr (by decide)), hone, hpaid, hzero, hcost]
    exact hoverdrawn
  · obtain ⟨failure, hfailure, hcause⟩ := htraced
    exact h image config none (2 ^ 31 + 1) failure hfailure hcause

end Kenbak1
