/-
  Kenbak1.Proofs.Command.Operated

  A program on the console and from the command line. `Console.tick` runs a burst of the whole
  budget, and none once the machine stands; `Run.plain` runs bursts up to a limit, and the last one
  is cut short. Where an instruction costs something, both come to `Machine.steps`: `machine_tick`
  takes as many of them as a budget pays for (`Machine.payable`), so ticks (`machine_iterate_tick`)
  come to the run whose limit is that number for each of them.
-/
import Kenbak1.Proofs.Command.Paths
import Kenbak1.Proofs.Console.Reset
import Kenbak1.Proofs.Console.Stepping
import Kenbak1.Proofs.Machine.Writes

namespace Kenbak1

/-! ## The start -/

namespace Machine

section Transparent

variable {β γ : Type} [Bus β] [Bus γ] {f : Machine β → Machine γ} (hf : Transparent f)

include hf

theorem Transparent.writeAll (m : Machine β) (cells : List (UInt8 × UInt8)) :
    (f m).writeAll cells = f (m.writeAll cells) := by
  induction cells generalizing m with
  | nil => rfl
  | cons cell rest ih =>
    show ((f m).writeByte cell.1 cell.2).writeAll rest = f ((m.writeByte cell.1 cell.2).writeAll rest)
    rw [hf.writeByte, ih]

/-- A program can be loaded before the change or behind it. -/
theorem Transparent.load (m : Machine β) (image : Image) (fallback : UInt8) :
    ((FrontPanel.ofMachine (f m)).load image fallback).machine =
      f ((FrontPanel.ofMachine m).load image fallback).machine := by
  have hstart : FrontPanel.startOf image fallback ((f m).writeAll image.cells).bank.p =
      FrontPanel.startOf image fallback (m.writeAll image.cells).bank.p := by
    rw [hf.writeAll, hf.bank]
  show (((f m).writeAll image.cells).jumpTo
    (FrontPanel.startOf image fallback ((f m).writeAll image.cells).bank.p)).note
      (.loaded image.size (FrontPanel.startOf image fallback ((f m).writeAll image.cells).bank.p)) = _
  rw [hstart, hf.writeAll, hf.jumpTo, hf.note]
  rfl

end Transparent

/-- No access notices what an instruction costs. -/
theorem transparent_withCost {β : Type} [Bus β] (cost : Nat) :
    Transparent (fun m : Machine β => { m with cost }) where
  bank _ := rfl
  setBank _ _ := rfl
  setState _ _ := rfl
  note _ _ := rfl
  readByte m a := by
    unfold readByte
    cases Register.ofAddress? a <;> rfl
  writeByte m a v := by
    unfold writeByte
    cases Register.ofAddress? a <;> rfl

end Machine

namespace FrontPanel

/-- Stopping and starting notes nothing where the journal is switched off. -/
theorem machine_stop_start {panel : FrontPanel Memory} (h : panel.machine.journal = .off) :
    ((panel.press .stop).press .start).machine = panel.machine.started := by
  obtain ⟨⟨⟩, lamps⟩ := panel
  cases h
  rfl

end FrontPanel

namespace Console

/-- The machine of a new console, once it is started, is the one of `Run.start`. There an
    instruction gets its cost behind the loading, and here before it. -/
theorem machine_start_new (image : Image) (config : Config) :
    ((new image config).press .start).panel.machine = Run.start image config none := by
  let priced : Machine Memory := { Machine.fresh with cost := config.cyclesPerInstruction.toNat }
  let loaded := (FrontPanel.ofMachine priced).load image config.loadAddress
  have hoff : loaded.machine.journal = .off := Machine.invariant_off.load rfl image _
  have hruns : loaded.machine.state = .running := FrontPanel.state_load _ image _
  calc ((new image config).press .start).panel.machine
      = loaded.machine.started := FrontPanel.machine_stop_start hoff
    _ = loaded.machine := Machine.started_of_running hruns
    _ = Run.start image config none :=
        (Machine.transparent_withCost config.cyclesPerInstruction.toNat).load Machine.fresh image _

/-! ## Ticks -/

theorem config_iterate_tick (c : Console) (k : Nat) : (tick^[k] c).config = c.config := by
  induction k with
  | zero => rfl
  | succ k ih => rw [Function.iterate_succ_apply', config_tick, ih]

theorem breakpoints_iterate_tick (c : Console) (k : Nat) :
    (tick^[k] c).breakpoints = c.breakpoints := by
  induction k with
  | zero => rfl
  | succ k ih => rw [Function.iterate_succ_apply', breakpoints_tick, ih]

section Ticks

variable {c : Console} (hempty : c.breakpoints.isEmpty)

include hempty

/-- Without breakpoints a tick is a burst, if the machine runs. -/
theorem tick_of_isEmpty :
    c.tick =
      if c.panel.machine.isHalted then c
      else settle { c with panel := (c.panel.runBurst c.config.burstCycles.toInt).2 } := by
  simp [tick_eq, hempty]

variable (hc : 1 ≤ c.panel.machine.cost)

include hc

/-- The burst of a tick ends. -/
theorem spends_tick (hm : c.panel.machine.state = .running) :
    Machine.Spends (c.panel.machine.withBudget c.config.burstCycles.toInt) c.panel.lamps
      c.tick.panel.machine c.tick.panel.lamps := by
  rw [tick_of_isEmpty hempty, Machine.isHalted_of_running hm]
  exact Machine.spends_run (.inl hc) c.panel.lamps

/-- A tick comes to the `steps` that its budget pays for (`payable`), the cycles left apart. If the
    machine stands, before them or on the way, there is nothing to do in the steps that are left. -/
theorem machine_tick :
    c.tick.panel.machine.withBudget 0 =
      (c.panel.machine.after
        (Machine.payable c.panel.machine.cost c.config.burstCycles.toInt)).withBudget 0 := by
  cases hm : c.panel.machine.state with
  | halted =>
    rw [tick_of_halted hm]
    exact (Machine.steps_quiet_of_halted hm _ ()).1.symm
  | running =>
    have hburst : c.tick.panel.machine
        = (c.panel.machine.run c.config.burstCycles.toInt c.panel.lamps).machine := by
      rw [tick_of_isEmpty hempty, Machine.isHalted_of_running hm]
      rfl
    rw [hburst, Machine.run_eq_steps (.inl hc)]
    exact (Machine.steps_withBudget _ _ _ ()).1

/-- Ticks come to `steps`, as many for each of them as its budget pays for (`payable`). -/
theorem machine_iterate_tick (k : Nat) :
    (tick^[k] c).panel.machine.withBudget 0 =
      (c.panel.machine.after
        (k * Machine.payable c.panel.machine.cost c.config.burstCycles.toInt)).withBudget 0 := by
  -- The induction is on the ticks; those behind the first begin with the cycles that it has left.
  induction k generalizing c with
  | zero =>
    rw [Nat.zero_mul]
    rfl
  | succ k ih =>
    have hcost := c.cost_tick
    have hfree : c.tick.breakpoints.isEmpty := by rwa [breakpoints_tick]
    have hothers := ih hfree (by rwa [hcost])
    rw [Function.iterate_succ_apply, hothers, hcost, config_tick,
      Machine.eq_withBudget_of_eq (machine_tick hempty hc), (Machine.steps_withBudget _ _ _ ()).1,
      ← Machine.after_add, Nat.succ_mul, Nat.add_comm]

theorem cost_iterate_tick (k : Nat) : (tick^[k] c).panel.machine.cost = c.panel.machine.cost :=
  (congrArg (·.cost) (machine_iterate_tick hempty hc k)).trans (Machine.cost_after _ _)

end Ticks

/-! ## The console and the command line -/

/-- A program that is started on a new console and makes `k` ticks, and the same program run from
    the command line (`Run.plain`) with a limit of as many instructions for each tick as a burst
    pays for, at least one. Where an instruction costs something, both end (`Run.PlainEnds`), every
    burst on the way included (`Machine.Spends`), and their machines differ in nothing but the
    cycles left: registers, memory, run state, the number of instructions and the last of them are
    the same. -/
theorem ticks_equal_run (image : Image) (config : Config)
    (hc : 1 ≤ config.cyclesPerInstruction.toNat) (k : Nat) :
    let burst := config.burstCycles.toInt
    let paid : Nat := max 1 ⌈(burst : ℚ) / config.cyclesPerInstruction.toNat⌉.toNat
    let m := Run.start image config none
    let ran := Run.plain m burst (k * paid)
    let started := (new image config).press .start
    let ticked := tick^[k] started
    ticked.panel.machine.withBudget 0 = ran.machine.withBudget 0 ∧
      ran.executed = ticked.panel.machine.executed ∧
      Run.PlainEnds m burst (k * paid) ran ∧
      ∀ i < k, (tick^[i] started).panel.machine.state = .running →
        Machine.Spends ((tick^[i] started).panel.machine.withBudget burst)
          (tick^[i] started).panel.lamps (tick^[i + 1] started).panel.machine
          (tick^[i + 1] started).panel.lamps := by
  intro burst paid m ran started ticked
  have hm : started.panel.machine = m := machine_start_new image config
  have hempty : started.breakpoints.isEmpty := rfl
  have hcost : m.cost = config.cyclesPerInstruction.toNat := Run.cost_start image config none
  have hpaid : 1 ≤ started.panel.machine.cost := by rwa [hm, hcost]
  have hticks : ticked.panel.machine.withBudget 0 = (m.after (k * paid)).withBudget 0 := by
    have hsteps := machine_iterate_tick hempty hpaid k
    rw [hm, hcost] at hsteps
    exact hsteps
  have hbound : 1 ≤ m.cost ∨ burst ≤ 0 := .inl (by rwa [hcost])
  have hruns := Machine.runBursts_eq_steps burst hbound (k * paid) ({} : Recorder)
  have hran : ran.machine.withBudget 0 = (m.after (k * paid)).withBudget 0 :=
    congrArg Turn.machine hruns
  refine ⟨hticks.trans hran.symm, ?_, ⟨rfl, Machine.bursts_runBursts burst hbound _ _⟩, ?_⟩
  · -- The count of the machine began with the program.
    have hnone : m.executed = 0 := FrontPanel.executed_load FrontPanel.fresh image config.loadAddress
    have hcount : ran.executed = (m.after (k * paid)).executed - m.executed :=
      congrArg Turn.value hruns
    rw [hcount, hnone, Machine.executed_eq_of_withBudget hticks, Nat.sub_zero]
  · intro i _ hstate
    have hburst := spends_tick (c := tick^[i] started)
      (by rwa [breakpoints_iterate_tick]) (by rwa [cost_iterate_tick hempty hpaid]) hstate
    rw [config_iterate_tick, ← Function.iterate_succ_apply' tick] at hburst
    exact hburst

/-- Three instructions, the last a halt, in ticks that pay for two each. -/
theorem ticks_equal_run_halt_within_tick :
    let image : Image := { cells := [(0o004, 0o200), (0o005, 0o200), (0o006, 0)] }
    let config : Config := { burstCycles := 3000 }
    let ticked := tick^[2] ((new image config).press .start)
    1 ≤ config.cyclesPerInstruction.toNat ∧
      ticked.panel.machine.withBudget 0 =
        (Run.plain (Run.start image config none) 3000 (2 * 2)).machine.withBudget 0 ∧
      ticked.panel.machine.executed = 3 ∧ ticked.panel.machine.state = .halted := by
  intro image config
  have hpaid : max 1 ⌈(config.burstCycles.toInt : ℚ) / config.cyclesPerInstruction.toNat⌉.toNat = 2 := by
    rw [Machine.ceil_div_eq (by decide)]
    decide
  have hburst : config.burstCycles.toInt = 3000 := by decide
  obtain ⟨hsame, -⟩ := ticks_equal_run image config (by decide) 2
  rw [hpaid, hburst] at hsame
  exact ⟨by decide, hsame, by decide +kernel, by decide +kernel⟩

end Console
end Kenbak1
