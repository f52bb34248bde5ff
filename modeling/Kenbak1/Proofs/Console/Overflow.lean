/-
  Kenbak1.Proofs.Console.Overflow

  The console with counters of 64 bits. What the keyboard sets off are `tryStep`, `tryTick` and
  what is built on them; here they are set against `step` and `tick`:

    * `comes_tryStep` — a single step overflows where the instruction does that it executes.
    * `exists_comes_tryTick_of_breakpoints` — past breakpoints no burst sets the budget, and a
      tick takes the instructions that it executes (`Machine.Reaches`) from what is left of it.
    * `tryPlay_eq_session` — what has been played to its end is a session.
-/
import Kenbak1.Proofs.Console.Session
import Kenbak1.Proofs.Machine.Overflow

namespace Kenbak1

open Machine (Comes overflowWithin)

/-! ## Panels -/

namespace FrontPanel

variable {β : Type} [Bus β]

theorem comes_tryStep (panel : FrontPanel β) :
    Comes panel.tryStep panel.machine.overflow? panel.step :=
  (Machine.comes_tryStep panel.machine panel.lamps).map ofTurn

theorem comes_tryRunBurst {panel : FrontPanel β} {budget : Int}
    (h : 1 ≤ panel.machine.cost ∨ budget ≤ 0) :
    Comes (panel.tryRunBurst budget)
      (overflowWithin (Machine.payable panel.machine.cost budget) (panel.machine.withBudget budget))
      (panel.runBurst budget) :=
  (Machine.comes_tryRun h panel.lamps).map ofTurn

theorem exists_comes_tryRunBurst (panel : FrontPanel β) (budget : Int) :
    ∃ overflow, Comes (panel.tryRunBurst budget) overflow (panel.runBurst budget) := by
  obtain ⟨overflow, hrun⟩ := Machine.exists_comes_tryRun panel.machine budget panel.lamps
  exact ⟨overflow, hrun.map ofTurn⟩

end FrontPanel

/-! ## Instructions past breakpoints -/

/-- A machine comes from another by `k` instructions, each a bare step, and the stop button may
    have been pressed behind them. -/
inductive Machine.Reaches (m : Machine Memory) (k : Nat) : Machine Memory → Prop
  | stepped (runs : ∀ i < k, (m.after i).state = .running) : m.Reaches k (m.after k)
  | stopped (runs : ∀ i < k, (m.after i).state = .running) (lamps : Lamps) :
    m.Reaches k (FrontPanel.press { machine := m.after k, lamps } .stop).machine

namespace Machine.Reaches

variable {m l : Machine Memory} {k : Nat}

theorem refl (m : Machine Memory) : m.Reaches 0 m :=
  .stepped fun i hi => absurd hi (Nat.not_lt_zero i)

theorem runs (h : m.Reaches k l) : ∀ i < k, (m.after i).state = .running := by
  cases h with
  | stepped runs => exact runs
  | stopped runs => exact runs

theorem executed (h : m.Reaches k l) : l.executed = m.executed + k := by
  have hcount := executed_after_of_running h.runs
  cases h with
  | stepped => exact hcount
  | stopped _ lamps => rw [FrontPanel.executed_press, hcount]

/-- A machine that still runs has not been stopped. -/
theorem eq_after (h : m.Reaches k l) (hl : l.state = .running) : l = m.after k := by
  cases h with
  | stepped => rfl
  | stopped _ lamps =>
    rw [FrontPanel.state_press] at hl
    cases hl

/-- Instructions behind instructions. -/
theorem trans (hruns : ∀ i < k, (m.after i).state = .running) {j : Nat}
    (h : (m.after k).Reaches j l) : m.Reaches (k + j) l := by
  have hall : ∀ i < k + j, (m.after i).state = .running := by
    intro i hi
    by_cases hik : i < k
    · exact hruns i hik
    · obtain ⟨d, rfl⟩ := Nat.exists_eq_add_of_le (Nat.le_of_not_lt hik)
      rw [after_add]
      exact h.runs d (by omega)
  cases h with
  | stepped =>
    rw [← after_add]
    exact .stepped hall
  | stopped _ lamps =>
    rw [← after_add]
    exact .stopped hall lamps

end Machine.Reaches

namespace Console

/-! ## Single steps -/

theorem comes_tryStep (c : Console) : Comes c.tryStep c.ready.machine.overflow? c.step :=
  (FrontPanel.comes_tryStep c.ready).bind_pure _

/-! ## Ticks -/

/-- The rounds of `spendBy` are bare steps (`Machine.Reaches`), and they break off where one of
    these does (`overflowWithin`). -/
theorem exists_comes_spendBy (price bound : Nat) (budget : Int) (resuming : Bool) (c : Console) :
    ∃ k, c.panel.machine.Reaches k (spend price bound budget resuming c).panel.machine ∧
      Comes (spendBy FrontPanel.tryStep price bound budget resuming c)
        (overflowWithin k c.panel.machine) (spend price bound budget resuming c) := by
  induction bound generalizing budget resuming c with
  | zero => exact ⟨0, .refl _, .ok _⟩
  | succ bound ih =>
    rw [spendBy, spend_succ]
    split
    · next hgoes =>
      have hm : c.panel.machine.state = .running := by
        simpa [Machine.isRunning] using (Bool.and_eq_true_iff.mp hgoes).2
      split
      · exact ⟨0, .stopped (fun i hi => absurd hi (Nat.not_lt_zero i)) c.panel.lamps, .ok _⟩
      · -- One bare step, and the rounds that are left behind it.
        obtain ⟨k, hreaches, hrest⟩ :=
          ih (budget - price) false { c with panel := c.panel.step.2 }
        rw [FrontPanel.machine_step] at hreaches hrest
        have hone : ∀ i < 1, (c.panel.machine.after i).state = .running := by
          intro i hi
          obtain rfl : i = 0 := by omega
          exact hm
        refine ⟨1 + k, .trans hone hreaches, ?_⟩
        rw [Machine.overflowWithin_add, Machine.overflowWithin_one]
        exact (FrontPanel.comes_tryStep c.panel).bind hrest
    · exact ⟨0, .refl _, .ok _⟩

/-- Where a breakpoint is set, a tick takes the cost of the instructions that it executes from
    what is left of the budget, and breaks off where that is not enough. -/
theorem exists_comes_tryTick_of_breakpoints {c : Console} (hset : ¬ c.breakpoints.isEmpty) :
    ∃ k, c.panel.machine.Reaches k c.tick.panel.machine ∧
      Comes c.tryTick (overflowWithin k c.panel.machine) c.tick := by
  unfold tryTick tick tickBy
  dsimp only
  split
  · exact ⟨0, .refl _, .ok _⟩
  · exact exists_comes_spendBy _ _ _ c.resuming c

/-- Without breakpoints a tick is a burst, which sets the budget. -/
theorem comes_tryTick_of_isEmpty {c : Console} (hm : c.panel.machine.state = .running)
    (hc : 1 ≤ c.panel.machine.cost) (hempty : c.breakpoints.isEmpty) :
    Comes c.tryTick
      (overflowWithin (Machine.payable c.panel.machine.cost c.config.burstCycles.toInt)
        (c.panel.machine.withBudget c.config.burstCycles.toInt)) c.tick := by
  unfold tryTick tick tickBy
  dsimp only
  rw [Machine.isHalted_of_running hm, if_neg Bool.false_ne_true, if_neg Bool.false_ne_true,
    if_pos hempty, if_pos hempty]
  exact (FrontPanel.comes_tryRunBurst (.inl hc)).bind_pure _

/-- What `tryTick` comes to, if it does not break off, is what `tick` comes to. -/
theorem exists_comes_tryTick (c : Console) : ∃ overflow, Comes c.tryTick overflow c.tick := by
  by_cases hempty : c.breakpoints.isEmpty
  · obtain ⟨overflow, hrun⟩ := c.panel.exists_comes_tryRunBurst c.config.burstCycles.toInt
    unfold tryTick tick tickBy
    dsimp only
    split
    · exact ⟨none, .ok _⟩
    · exact ⟨overflow, hrun.bind_pure _⟩
  · obtain ⟨k, -, hcomes⟩ := exists_comes_tryTick_of_breakpoints hempty
    exact ⟨_, hcomes⟩

/-! ## Sessions -/

/-- A turn that does not break off does what `handle` and `tick` do. -/
theorem exists_comes_tryTurn (c : Console) (stroke : Stroke) :
    ∃ overflow, Comes (c.tryTurn stroke) overflow (c.turn stroke) := by
  cases stroke with
  | none => exact c.exists_comes_tryTick
  | some key =>
    have hkey : ∃ overflow, Comes (handleBy tryStep c key) overflow (c.handle key) := by
      cases key with
      | step => exact ⟨_, c.comes_tryStep⟩
      | press | breakpoint | reset | up | down | quit => exact ⟨none, .ok _⟩
    obtain ⟨first, hfirst⟩ := hkey
    obtain ⟨next, hnext⟩ := (c.handle key).exists_comes_tryTick
    exact ⟨_, hfirst.bind hnext⟩

/-- What `tryPlay` has played to its end is a `session` up to the key that quits. -/
theorem tryPlay_eq_session {c d : Console} {strokes : List Stroke}
    (h : c.tryPlay strokes = .ok d) : d = c.session (strokes.takeWhile (· ≠ some .quit)) := by
  suffices hcomes : ∀ c : Console, ∃ overflow, Comes (c.tryPlay strokes) overflow
      (c.session (strokes.takeWhile (· ≠ some .quit))) by
    obtain ⟨overflow, hplay⟩ := hcomes c
    exact ((hplay.eq_ok_iff d).mp h).2
  clear h
  intro c
  induction strokes generalizing c with
  | nil => exact ⟨none, .ok _⟩
  | cons stroke rest ih =>
    by_cases hquit : stroke = some .quit
    · rw [hquit]
      exact ⟨none, .ok _⟩
    · obtain ⟨first, hturn⟩ := c.exists_comes_tryTurn stroke
      obtain ⟨next, hrest⟩ := ih (c.turn stroke)
      rw [List.takeWhile_cons_of_pos (by simpa using hquit), tryPlay, playBy]
      · exact ⟨_, hturn.bind hrest⟩
      · exact hquit

end Console
end Kenbak1
