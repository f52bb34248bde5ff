/-
  Kenbak1.Proofs.Machine.Free

  Bursts of instructions that cost nothing. Such a burst never uses up the cycles it starts with, so
  only a halt ends it, however many instructions that takes (`spends_of_free`): the shorter budget
  of `nextBudget` does not keep it below a limit (`runBursts_of_free`, `Bursts.overshoots`).
-/
import Kenbak1.Proofs.Machine.Bursts

namespace Kenbak1
namespace Machine

variable {β σ : Type} [Bus β] [Observer σ]

/-! ## One burst -/

/-- With cycles left and instructions that cost nothing, only a halt ends a burst. -/
theorem step_last_iff_of_free {m : Machine β} (hc : m.cost = 0) (hb : 0 < m.budget) (o : σ) :
    ((m.step o).value.isNone ∨ (m.step o).machine.budget ≤ 0) ↔ m.state = .halted := by
  rw [step_last_iff, hc]
  constructor
  · rintro (h | h)
    · exact h
    · exact absurd hb (not_lt.mpr (by exact_mod_cast h))
  · exact .inl

theorem budget_next_of_free {m : Machine β} (hm : m.state ≠ .halted) (hc : m.cost = 0) :
    m.next.budget = m.budget := by
  rw [budget_next_of_running (running_of_not_halted hm), hc, Nat.cast_zero, sub_zero]

/-- A burst that ends leaves a machine that stands. -/
theorem Spends.halted_of_free {m m' : Machine β} {o o' : σ} (h : Spends m o m' o')
    (hc : m.cost = 0) (hb : 0 < m.budget) : m'.state = .halted ∧ ∃ n, m' = m.after n := by
  induction h with
  | @stop m o last =>
    have hm := (step_last_iff_of_free hc hb o).mp last
    rw [step_of_halted hm]
    exact ⟨hm, 1, (next_of_halted hm).symm⟩
  | @more m _ o _ goes rest ih =>
    have hm := mt (step_last_iff_of_free hc hb o).mpr goes
    have hmachine : (m.step o).machine = m.next := (step_unwatched m o).2
    rw [hmachine] at ih
    obtain ⟨hhalted, n, hn⟩ := ih (by rw [cost_next, hc]) (by rwa [budget_next_of_free hm hc])
    exact ⟨hhalted, n + 1, by rw [hn, after_succ]⟩

/-- A burst that meets a halt ends behind it. -/
theorem spends_of_free {m : Machine β} (hc : m.cost = 0) (hb : 0 < m.budget) {n : Nat}
    (hn : (m.after n).state = .halted) (o : σ) :
    Spends m o (m.after (n + 1)) (m.steps (n + 1) o).2 := by
  induction n generalizing m o with
  | zero =>
    have hstop := Spends.stop ((step_last_iff_of_free hc hb o).mpr hn)
    rwa [(step_unwatched m o).2] at hstop
  | succ n ih =>
    -- The machine may stand before the step that is known to halt; the burst ends there.
    by_cases hlast : m.state = .halted
    · have hstop := Spends.stop ((step_last_iff_of_free hc hb o).mpr hlast)
      rw [step_of_halted hlast] at hstop
      rwa [after_of_halted hlast, steps_of_halted hlast]
    · refine .more (mt (step_last_iff_of_free hc hb o).mp hlast) ?_
      have hmachine : (m.step o).machine = m.next := (step_unwatched m o).2
      rw [after_succ, steps, hmachine]
      exact ih (by rw [cost_next, hc]) (by rwa [budget_next_of_free hlast hc]) hn _

/-- `spend` attempts as many steps as its bound allows. -/
theorem spend_of_free {m : Machine β} (hc : m.cost = 0) (hb : 0 < m.budget) (bound : Nat)
    (o : σ) : spend bound m o = m.steps bound o := by
  induction bound generalizing m o with
  | zero => rfl
  | succ bound ih =>
    by_cases hlast : m.state = .halted
    · rw [spend_succ, if_pos (by simp [step_of_halted hlast]), steps_of_halted hlast,
        step_of_halted hlast]
    · have hmachine : (m.step o).machine = m.next := (step_unwatched m o).2
      rw [spend_succ, if_neg (by simpa using mt (step_last_iff_of_free hc hb o).mp hlast), steps,
        hmachine]
      exact ih (by rw [cost_next, hc]) (by rwa [budget_next_of_free hlast hc]) _

/-- A burst of a program that halts runs up to the halt. -/
theorem run_of_free {m : Machine β} {b : Int} {n : Nat} (hc : m.cost = 0) (hb : 0 < b)
    (hn : (m.after n).state = .halted) (hsize : n < UInt64.size) (o : σ) :
    Spends (m.withBudget b) o (m.run b o).machine (m.run b o).observer ∧
      (m.run b o).withBudget 0 =
        { value := (m.after n).executed - m.executed
          machine := (m.after n).withBudget 0
          observer := (m.steps n o).2 } := by
  -- The bound of the machine is one step more than there are numbers for a halt to have.
  obtain ⟨last, hlast⟩ : ∃ last, UInt64.size = last + 1 := ⟨_, rfl⟩
  rw [hlast] at hsize
  obtain ⟨hmachine, hobserver⟩ := steps_withBudget m b (last + 1) o
  obtain ⟨hsame, hsays⟩ := steps_eq_of_halted hn hsize.le o
  have hcount := executed_eq_of_withBudget (hmachine.trans hsame)
  have hbound : stepBound m.cost b = last + 1 := by rw [stepBound, if_pos hc, hlast]
  have hrun : m.run b o =
      { value := (m.after n).executed - m.executed
        machine := (m.withBudget b).after (last + 1)
        observer := ((m.withBudget b).steps (last + 1) o).2 } := by
    have hspend := spend_of_free (m := m.withBudget b) hc hb (stepBound m.cost b) o
    have hturn : m.run b o =
        { value := (spend (stepBound m.cost b) (m.withBudget b) o).1.executed - m.executed
          machine := (spend (stepBound m.cost b) (m.withBudget b) o).1
          observer := (spend (stepBound m.cost b) (m.withBudget b) o).2 } := rfl
    rw [hturn, hspend, fst_steps, hbound, hcount]
  have hbefore : ((m.withBudget b).after last).state = .halted := by
    rw [state_eq_of_withBudget (steps_withBudget m b last o).1]
    exact state_after_of_le hn (Nat.lt_succ_iff.mp hsize)
  rw [hrun]
  refine ⟨spends_of_free (m := m.withBudget b) hc hb hbefore o, ?_⟩
  rw [Turn.withBudget, hmachine, hobserver, hsame, hsays]

/-! ## Bursts up to a limit -/

theorem nextBudget_pos (cost : Nat) {burst : Int} {remaining : Nat} (hb : 0 < burst)
    (hr : remaining ≠ 0) : 0 < nextBudget cost burst remaining := by
  have hmax : (0 : Int) < maxBudget := by decide
  have hremaining : (0 : Int) < remaining := by omega
  have hcost : (0 : Int) < (max cost 1 : Nat) := by exact_mod_cast lt_max_of_lt_right Nat.one_pos
  exact lt_min hb (lt_min hmax (Int.mul_pos (lt_min hmax hremaining) hcost))

/-- Bursts of a program that halts, whatever the limit is: they run up to the halt. -/
theorem runBursts_of_free {m : Machine β} {burst : Int} {limit n : Nat} (hc : m.cost = 0)
    (hb : 0 < burst) (hl : limit ≠ 0) (hn : (m.after n).state = .halted)
    (hsize : n < UInt64.size) (o : σ) :
    Bursts burst limit 0 m o (m.runBursts burst limit o) ∧
      (m.runBursts burst limit o).withBudget 0 =
        { value := (m.after n).executed - m.executed
          machine := (m.after n).withBudget 0
          observer := (m.steps n o).2 } := by
  cases hm : m.state with
  | halted =>
    have hquiet := steps_quiet_of_halted hm n o
    have hcount := executed_eq_of_withBudget hquiet.1
    rw [runBursts_idle (.inl hm), hquiet.1, hquiet.2, hcount, Nat.sub_self]
    exact ⟨.done (by simp [hm]), rfl⟩
  | running =>
    have hbudget := nextBudget_pos m.cost hb hl
    obtain ⟨hspends, hrun⟩ := run_of_free hc hbudget hn hsize o
    have hstands := congrArg (fun t => t.machine.state) hrun
    simp only [Turn.withBudget, state_withBudget, hn] at hstands
    have hvalue : (m.run (nextBudget m.cost burst limit) o).value
        = (m.run (nextBudget m.cost burst limit) o).machine.executed - m.executed := rfl
    -- The first burst is the only one: it leaves a machine that stands.
    have hbursts : m.runBursts burst limit o = m.run (nextBudget m.cost burst limit) o := by
      obtain ⟨rounds, rfl⟩ := Nat.exists_eq_succ_of_ne_zero hl
      rw [runBursts, bursts_succ, if_pos (by simp [isRunning, hm])]
      simp only [Nat.sub_zero, Nat.zero_add]
      cases rounds with
      | zero => rfl
      | succ rounds => rw [bursts_succ, if_neg (by simp [isRunning, hstands])]
    rw [hbursts]
    refine ⟨.burst ⟨hm, Nat.pos_of_ne_zero hl⟩ hspends ?_, hrun⟩
    rw [Nat.zero_add, ← hvalue]
    exact .done (by simp [hstands])

/-- Bursts that end execute one burst, up to a halt. -/
theorem Bursts.halted_of_free {m : Machine β} {burst : Int} {limit : Nat} {o : σ}
    {turn : Turn Nat β σ} (h : Bursts burst limit 0 m o turn) (hm : m.state = .running)
    (hc : m.cost = 0) (hb : 0 < burst) (hl : limit ≠ 0) :
    ∃ n, (m.after n).state = .halted ∧ turn.value = (m.after n).executed - m.executed := by
  cases h with
  | done stop => exact absurd ⟨hm, Nat.pos_of_ne_zero hl⟩ stop
  | @burst _ _ m' _ o' _ goes first rest =>
    obtain ⟨hstands, n, hn⟩ := first.halted_of_free hc (nextBudget_pos m.cost hb hl)
    have hvalue : turn.value = m'.executed - m.executed := by
      cases rest with
      | done stop => exact Nat.zero_add _
      | burst goes' => rw [hstands] at goes'; cases goes'.1
    have hmachine := (steps_withBudget m (nextBudget m.cost burst (limit - 0)) n o).1
    rw [← hn] at hmachine
    refine ⟨n, (state_eq_of_withBudget hmachine).symm.trans hstands, ?_⟩
    rw [hvalue, executed_eq_of_withBudget hmachine]

/-- `Bursts` end exactly if the program halts at some time. -/
theorem exists_bursts_iff_of_free {m : Machine β} {burst : Int} {limit : Nat}
    (hm : m.state = .running) (hc : m.cost = 0) (hb : 0 < burst) (hl : limit ≠ 0) (o : σ) :
    (∃ turn, Bursts burst limit 0 m o turn) ↔ ∃ n, (m.after n).state = .halted := by
  constructor
  · rintro ⟨turn, hturn⟩
    obtain ⟨n, hn, -⟩ := hturn.halted_of_free hm hc hb hl
    exact ⟨n, hn⟩
  · rintro ⟨n, hn⟩
    have hbudget := nextBudget_pos m.cost hb hl
    generalize hx : nextBudget m.cost burst limit = x at hbudget
    -- The halt is reached whatever the counter of the burst holds.
    have hpriced : ∀ k, n ≤ k → ((m.withBudget x).after k).state = .halted := by
      intro k hk
      rw [state_eq_of_withBudget (steps_withBudget m x k o).1]
      exact state_after_of_le hn hk
    have hspends :=
      spends_of_free (m := m.withBudget x) hc hbudget (hpriced n (Nat.le_refl n)) o
    subst hx
    refine ⟨_, .burst ⟨hm, Nat.pos_of_ne_zero hl⟩ hspends (.done ?_)⟩
    rw [hpriced (n + 1) (Nat.le_succ n)]
    rintro ⟨hrunning, -⟩
    cases hrunning

/-- `Bursts` of a program that runs longer than the limit overshoot it, if they end at all. -/
theorem Bursts.overshoots {m : Machine β} {burst : Int} {limit : Nat} {o : σ}
    {turn : Turn Nat β σ} (h : Bursts burst limit 0 m o turn) (hc : m.cost = 0)
    (hb : 0 < burst) (hl : limit ≠ 0) (hlong : (m.after limit).state = .running) :
    limit < turn.value := by
  have hm := running_of_after hlong
  obtain ⟨n, hn, hvalue⟩ := h.halted_of_free hm hc hb hl
  obtain ⟨k, hk⟩ := exists_eq_min n m.haltIndex
  -- The halt that ends the burst lies behind the limit, so the count goes up to it.
  have hbehind : (limit : ℕ∞) < k := by
    rw [hk, min_eq_right ((state_after_eq_halted_iff hm n).mp hn)]
    exact (state_after_iff hm limit).mp hlong
  rw [hvalue, executed_after_eq hm hk, Nat.add_sub_cancel_left]
  exact_mod_cast hbehind

end Machine
end Kenbak1
