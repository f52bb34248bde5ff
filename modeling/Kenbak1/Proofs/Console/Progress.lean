/-
  Kenbak1.Proofs.Console.Progress

  Progress of a running machine. A burst executes at least one instruction, whatever its budget is
  (`exists_executes_run`, and `Spends.executed_lt` for the loop with no bound). A tick with
  breakpoints counts its rounds in a loop of its own, which has no such first round: there a budget
  that is not positive executes nothing, in this tick (`tick_stalled`) and in every one that follows
  (`panel_iterate_tick_stalled`).
-/
import Kenbak1.Proofs.Console.Tick
import Kenbak1.Proofs.Machine.Notices

namespace Kenbak1

/-! ## Bursts -/

namespace Machine

variable {β σ : Type} [Bus β] [Observer σ] {m m' : Machine β} {o o' : σ}

theorem executed_step_of_running (hm : m.state = .running) (o : σ) :
    (m.step o).machine.executed = m.executed + 1 := by
  rw [(step_unwatched m o).2]
  exact executed_next_of_running hm

theorem executed_le_step (m : Machine β) (o : σ) : m.executed ≤ (m.step o).machine.executed := by
  rw [(step_unwatched m o).2]
  exact executed_le_after m 1

/-- A bounded burst of a running machine executes at least one instruction, if its bound allows
    for one. -/
theorem executed_lt_spend (hm : m.state = .running) {bound : Nat} (hbound : 1 ≤ bound) (o : σ) :
    m.executed < (spend bound m o).1.executed := by
  obtain ⟨rest, rfl⟩ := Nat.exists_eq_add_of_le' hbound
  have hfirst := executed_step_of_running hm o
  rw [spend_succ]
  split
  · show m.executed < (m.step o).machine.executed
    omega
  · obtain ⟨count, hreports⟩ := exists_reports_spend rest (m.step o).machine (m.step o).observer
    have hcount := hreports.count
    omega

theorem stepBound_pos (cost : Nat) (budget : Int) : 1 ≤ stepBound cost budget := by
  unfold stepBound
  split
  · decide
  · exact le_max_left _ _

/-- A burst (`run`) of a running machine executes at least one instruction, whatever its budget is
    and whatever an instruction costs. -/
theorem exists_executes_run (hm : m.state = .running) (budget : Int) (o : σ) :
    ∃ n, 1 ≤ n ∧ m.Executes (m.run budget o).machine n := by
  have hexecutes := (reports_run m budget o).executes
  have hlt := executed_lt_spend (m := m.withBudget budget) hm (stepBound_pos m.cost budget) o
  have hcount := hexecutes.count
  have hmachine : (m.run budget o).machine
      = (spend (stepBound m.cost budget) (m.withBudget budget) o).1 := rfl
  rw [hmachine] at hcount
  rw [executed_withBudget] at hlt
  exact ⟨_, by omega, hexecutes⟩

theorem Spends.executed_le (h : Spends m o m' o') : m.executed ≤ m'.executed := by
  induction h with
  | @stop m o => exact executed_le_step m o
  | @more m _ o _ _ _ ih => exact (executed_le_step m o).trans ih

/-- The loop `Spends` of a burst, which is not bounded: if it ends, it has executed an
    instruction. -/
theorem Spends.executed_lt (h : Spends m o m' o') (hm : m.state = .running) :
    m.executed < m'.executed := by
  have hfirst := executed_step_of_running hm o
  cases h with
  | stop => omega
  | more _ rest =>
    have hrest := rest.executed_le
    omega

end Machine

namespace Console

variable {c : Console}

/-! ## Ticks -/

/-- A tick of a running machine that is not held up at P pays for an instruction or ends as it
    began. -/
theorem Ticks.one_le {b : Breakpoints} {m : Machine Memory} {after : FrontPanel Memory}
    {started : Prop} {rounds n : Nat} (h : Ticks b m after started rounds n)
    (hm : m.state = .running) (hp : b.contains m.bank.p = true → started) (hrounds : 1 ≤ rounds) :
    1 ≤ n := by
  by_contra hnone
  obtain rfl : n = 0 := by omega
  -- None of the ways to end is open to a tick that has not executed anything.
  cases h.ends with
  | halted stands => rw [Machine.after_zero, hm] at stands; cases stands
  | spent all => omega
  | held _ _ breakpoint other => exact other ⟨rfl, hp breakpoint⟩

theorem one_le_burstRounds_iff (cost : Nat) (burst : Int) :
    1 ≤ burstRounds cost burst ↔ 0 < burst := by
  have hcost : (0 : Int) < max (cost : Int) 1 := lt_max_of_lt_right Int.one_pos
  have hround : 1 ≤ (burst + max (cost : Int) 1 - 1) / max (cost : Int) 1 ↔ 0 < burst := by
    rw [Int.le_ediv_iff_mul_le hcost]
    omega
  unfold burstRounds
  push_cast
  omega

/-- With breakpoints and a budget that is not positive a `tick` does not touch the machine. -/
theorem tick_stalled (hm : c.panel.machine.state = .running) (hset : ¬ c.breakpoints.isEmpty)
    (hburst : ¬ 0 < c.config.burstCycles.toInt) : c.tick = { c with resuming := false } := by
  have hhalted := Machine.isHalted_of_running hm
  have hrounds : burstRounds c.panel.machine.cost c.config.burstCycles.toInt = 0 := by
    have hnone := mt (one_le_burstRounds_iff c.panel.machine.cost _).mp hburst
    omega
  simp [tick_eq, hhalted, hset, hrounds, guarded, settle]

/-- Nor do the ticks that follow. -/
theorem panel_iterate_tick_stalled (hm : c.panel.machine.state = .running)
    (hset : ¬ c.breakpoints.isEmpty) (hburst : ¬ 0 < c.config.burstCycles.toInt) (n : Nat) :
    (tick^[n] c).panel = c.panel := by
  -- The induction is on the ticks; each starts from a console as stalled as the first.
  induction n generalizing c with
  | zero => rfl
  | succ n ih =>
    rw [Function.iterate_succ_apply, tick_stalled hm hset hburst]
    exact ih (c := { c with resuming := false }) hm hset hburst

/-- A `tick` of a running machine that is not held up at P executes at least one instruction, if
    there are no breakpoints or the budget is positive. -/
theorem exists_executes_tick (hm : c.panel.machine.state = .running)
    (hp : c.breakpoints.contains c.panel.machine.bank.p = true → c.resuming = true)
    (hpaid : c.breakpoints.isEmpty ∨ 0 < c.config.burstCycles.toInt) :
    ∃ n, 1 ≤ n ∧ c.panel.machine.Executes c.tick.panel.machine n := by
  have hhalted := Machine.isHalted_of_running hm
  by_cases hempty : c.breakpoints.isEmpty
  · -- Without breakpoints the tick is a burst.
    have htick : c.tick.panel.machine
        = (c.panel.machine.run c.config.burstCycles.toInt c.panel.lamps).machine := by
      simp [tick_eq, hhalted, hempty, settle, FrontPanel.runBurst, FrontPanel.ofTurn]
    rw [htick]
    exact Machine.exists_executes_run hm _ _
  · -- With them it is a loop, whose rounds the budget pays for.
    have htick : c.tick = guarded (burstRounds c.panel.machine.cost c.config.burstCycles.toInt)
        c.resuming c := by
      simp [tick_eq, hhalted, hempty]
    have hburst := hpaid.resolve_left hempty
    obtain ⟨n, hticks⟩ := guarded_ticks
      (burstRounds c.panel.machine.cost c.config.burstCycles.toInt) c.resuming c
    rw [htick]
    exact ⟨n, hticks.one_le hm hp ((one_le_burstRounds_iff _ _).mpr hburst), hticks.executes⟩

/-- A `tick` of a running machine with no breakpoint at P, or just started, executes at least one
    instruction (`Executes`) exactly if there are no breakpoints or the budget is positive. Without
    breakpoints it is a burst, and a burst that ends (`Machine.Spends`) has executed an instruction,
    whatever its budget is and whatever an instruction costs. With breakpoints and a budget that is
    not positive the machine goes on running and executes nothing, however many ticks follow. -/
theorem tick_progress_iff (c : Console) (hm : c.panel.machine.state = .running)
    (hp : c.breakpoints.contains c.panel.machine.bank.p = false ∨ c.resuming = true) :
    ((∃ n, 1 ≤ n ∧ c.panel.machine.Executes c.tick.panel.machine n) ↔
      c.breakpoints.isEmpty ∨ 0 < c.config.burstCycles.toInt) ∧
    (∀ machine lamps,
      Machine.Spends (c.panel.machine.withBudget c.config.burstCycles.toInt) c.panel.lamps
        machine lamps → c.panel.machine.executed < machine.executed) ∧
    (¬ (c.breakpoints.isEmpty ∨ 0 < c.config.burstCycles.toInt) →
      ∀ n, (tick^[n] c).panel = c.panel) ∧
    (∀ d : Console, (d.press .start).panel.machine.state = .running ∧
      (d.press .start).resuming = true) := by
  have hheld : c.breakpoints.contains c.panel.machine.bank.p = true → c.resuming = true := by
    intro hbreak
    rcases hp with hfree | hresuming
    · rw [hbreak] at hfree
      cases hfree
    · exact hresuming
  have hstalled : ¬ (c.breakpoints.isEmpty ∨ 0 < c.config.burstCycles.toInt) →
      ∀ n, (tick^[n] c).panel = c.panel := by
    intro hnone n
    obtain ⟨hset, hburst⟩ := not_or.mp hnone
    exact panel_iterate_tick_stalled hm hset hburst n
  refine ⟨⟨?_, exists_executes_tick hm hheld⟩, fun _ _ hspends => hspends.executed_lt hm, hstalled,
    fun d => ⟨FrontPanel.state_press d.panel .start, rfl⟩⟩
  -- A tick that leaves the panel as it was has counted nothing.
  rintro ⟨n, hn, hexecutes⟩
  by_contra hnone
  have hcount := hexecutes.count
  have hpanel : c.tick.panel = c.panel := hstalled hnone 1
  rw [hpanel] at hcount
  omega

/-- A program that jumps to itself, with a breakpoint elsewhere and a budget of one cycle: each
    tick executes the jump. -/
theorem tick_progress_iff_self_jump :
    let c : Console :=
      { panel :=
          { machine :=
              { Machine.fresh with
                bank := { p := 4 }, bus := (Memory.zero.write 4 0o344).write 5 4 }
            lamps := {} }
        program := {}, config := { burstCycles := 1 }, breakpoints := Breakpoints.empty.insert 6 }
    c.panel.machine.state = .running ∧
      c.breakpoints.contains c.panel.machine.bank.p = false ∧
      ∃ n, 1 ≤ n ∧ c.panel.machine.Executes c.tick.panel.machine n := by
  intro c
  have hp : c.breakpoints.contains c.panel.machine.bank.p = false := by decide
  have hburst : 0 < c.config.burstCycles.toInt := by decide
  exact ⟨rfl, hp, (tick_progress_iff c rfl (.inl hp)).1.mpr (.inr hburst)⟩

/-- A machine that was just started, with a breakpoint ahead of P and a budget of no cycles: the
    tick executes nothing. -/
theorem tick_idle_behind_breakpoint :
    let c : Console :=
      { (new { cells := [(4, 0o200), (5, 0o200), (6, 0)] } { burstCycles := 0 }).press .start with
        breakpoints := Breakpoints.empty.insert 6 }
    c.panel.machine.bank.p = 4 ∧ c.tick.panel.machine.executed = 0 ∧
      c.tick.panel.machine.state = .running ∧
      ¬ ∀ c : Console, c.panel.machine.state = .running →
        (c.breakpoints.contains c.panel.machine.bank.p = false ∨ c.resuming = true) →
        ∃ n, 1 ≤ n ∧ c.panel.machine.Executes c.tick.panel.machine n := by
  intro c
  have hset : ¬ c.breakpoints.isEmpty := by decide
  have hburst : ¬ 0 < c.config.burstCycles.toInt := by decide
  have hrunning : c.panel.machine.state = .running := FrontPanel.state_press _ .start
  have hpanel : c.tick.panel = c.panel := by rw [tick_stalled hrunning hset hburst]
  have hfirst : c.panel.machine.executed = 0 := by decide +kernel
  refine ⟨by decide +kernel, by rw [hpanel, hfirst], by rw [hpanel, hrunning], fun h => ?_⟩
  obtain ⟨n, hn, hexecutes⟩ := h c hrunning (.inr rfl)
  have hcount := hexecutes.count
  rw [hpanel] at hcount
  omega

end Console
end Kenbak1
