/-
  Kenbak1.Proofs.Machine.Burst

  The loop of a burst. `Spends` is the loop with no bound on its length: it steps until the machine
  stands or its cycles are used up. What it comes to is `payable` bare steps, the number its budget
  pays for (`spends_run`), and `Machine.run` computes it within `stepBound` steps (`run_eq_steps`).
-/
import Kenbak1.Proofs.Machine.Halt
import Mathlib.Data.Rat.Floor

namespace Kenbak1
namespace Machine

variable {β σ : Type} [Bus β] [Observer σ]

/-! ## The loop -/

/-- A burst from a machine and its observer ends with a machine and its observer: it steps
    once, and goes on if an instruction was executed and cycles are left. -/
inductive Spends : Machine β → σ → Machine β → σ → Prop
  | stop {m : Machine β} {o : σ}
      (last : (m.step o).value.isNone ∨ (m.step o).machine.budget ≤ 0) :
      Spends m o (m.step o).machine (m.step o).observer
  | more {m m' : Machine β} {o o' : σ}
      (goes : ¬ ((m.step o).value.isNone ∨ (m.step o).machine.budget ≤ 0))
      (rest : Spends (m.step o).machine (m.step o).observer m' o') :
      Spends m o m' o'

/-- A burst ends in one way at most. -/
theorem Spends.unique {m m₁ m₂ : Machine β} {o o₁ o₂ : σ} (h₁ : Spends m o m₁ o₁)
    (h₂ : Spends m o m₂ o₂) : m₁ = m₂ ∧ o₁ = o₂ := by
  induction h₁ with
  | stop last =>
    cases h₂ with
    | stop => exact ⟨rfl, rfl⟩
    | more goes => exact absurd last goes
  | more goes _ ih =>
    cases h₂ with
    | stop last => exact absurd last goes
    | more _ rest => exact ih rest

/-- Nobody decides by looking how a burst goes on. -/
theorem spend_unwatched (bound : Nat) (m : Machine β) (o : σ) :
    (spend bound m o).1 = (spend bound m ()).1 := by
  induction bound generalizing m o with
  | zero => rfl
  | succ bound ih =>
    obtain ⟨hvalue, hmachine⟩ := step_unwatched m o
    rw [spend_succ, spend_succ, hvalue, hmachine]
    split
    · rfl
    · exact ih _ _

theorem run_unwatched (m : Machine β) (budget : Int) (o : σ) :
    (m.run budget o).value = (m.run budget ()).value ∧
      (m.run budget o).machine = (m.run budget ()).machine := by
  have hspend := spend_unwatched (stepBound m.cost budget) { m with budget } o
  exact ⟨congrArg (fun k : Machine β => k.executed - m.executed) hspend, hspend⟩

theorem cost_spend (bound : Nat) (m : Machine β) (o : σ) : (spend bound m o).1.cost = m.cost := by
  induction bound generalizing m o with
  | zero => rfl
  | succ bound ih =>
    have hstep : (m.step o).machine.cost = m.cost := by
      rw [(step_unwatched m o).2]
      exact cost_next m
    rw [spend_succ]
    split
    · exact hstep
    · rw [ih, hstep]

/-- No burst changes what an instruction costs. -/
theorem cost_run (m : Machine β) (budget : Int) (o : σ) : (m.run budget o).machine.cost = m.cost :=
  cost_spend (stepBound m.cost budget) { m with budget } o

/-- A step is the last of its burst if the machine stands or the cycles left pay for no
    further one. -/
theorem step_last_iff (m : Machine β) (o : σ) :
    ((m.step o).value.isNone ∨ (m.step o).machine.budget ≤ 0) ↔
      (m.state = .halted ∨ m.budget ≤ m.cost) := by
  rw [(step_unwatched m o).1, (step_unwatched m o).2]
  cases h : m.state with
  | halted => simp [step_of_halted h]
  | running =>
    have hbudget : (m.step ()).machine.budget = m.budget - m.cost := budget_next_of_running h
    rw [hbudget, step_of_running h]
    simp

/-! ## The instructions a budget pays for -/

/-- The number of instructions a budget pays for, at least one. -/
def payable (cost : Nat) (budget : Int) : Nat :=
  max 1 ⌈(budget : ℚ) / cost⌉.toNat

theorem payable_of_le {cost : Nat} {budget : Int} (h : budget ≤ cost) :
    payable cost budget = 1 := by
  have hceil : ⌈(budget : ℚ) / cost⌉ ≤ 1 := by
    rw [Int.ceil_le]
    have hq : (budget : ℚ) ≤ cost := by exact_mod_cast h
    have hcost : (0 : ℚ) ≤ cost := Nat.cast_nonneg cost
    simpa using div_le_one_of_le₀ hq hcost
  unfold payable
  omega

theorem payable_of_lt {cost : Nat} {budget : Int} (hc : 1 ≤ cost) (h : cost < budget) :
    payable cost budget = payable cost (budget - cost) + 1 := by
  have hcost : (0 : ℚ) < cost := by exact_mod_cast hc
  have hsub : ((budget - cost : Int) : ℚ) / cost = (budget : ℚ) / cost - 1 := by
    push_cast
    rw [sub_div, div_self hcost.ne']
  have hceil : 1 < ⌈(budget : ℚ) / cost⌉ := by
    rw [Int.lt_ceil, Int.cast_one, one_lt_div hcost]
    exact_mod_cast h
  unfold payable
  rw [hsub, Int.ceil_sub_one]
  omega

theorem payable_pos (cost : Nat) (budget : Int) : 1 ≤ payable cost budget :=
  le_max_left _ _

/-- Rounding up without fractions. -/
theorem ceil_div_eq {cost : Nat} (hc : 1 ≤ cost) (budget : Int) :
    ⌈(budget : ℚ) / cost⌉ = (budget + cost - 1) / cost := by
  have hc' : (0 : Int) < cost := by exact_mod_cast hc
  rw [Rat.ceil_intCast_div_natCast]
  have hlow := Int.ediv_mul_le (budget + cost - 1) hc'.ne'
  have hhigh := Int.lt_ediv_add_one_mul_self (budget + cost - 1) hc'
  generalize (budget + cost - 1) / (cost : Int) = q at hlow hhigh ⊢
  have hdiv : -budget / (cost : Int) = -q := by
    rw [Int.ediv_eq_iff_of_pos hc']
    constructor
    · linarith
    · linarith
  rw [hdiv, neg_neg]

/-- The bound on the steps of a burst is the number its budget pays for, where an instruction
    costs something. -/
theorem stepBound_eq_payable {cost : Nat} (hc : 1 ≤ cost) (budget : Int) :
    stepBound cost budget = payable cost budget := by
  unfold stepBound payable
  rw [if_neg (by omega), ceil_div_eq hc]

/-- What the instructions paid for cost: the whole budget, overdrawn by less than one
    instruction. -/
theorem payable_mul_bounds {cost : Nat} {budget : Int} (hc : 1 ≤ cost) (hb : 0 < budget) :
    budget ≤ payable cost budget * cost ∧ (payable cost budget * cost : Int) < budget + cost := by
  have hcost : (0 : ℚ) < cost := by exact_mod_cast hc
  have hpos : 0 < ⌈(budget : ℚ) / cost⌉ :=
    Int.ceil_pos.mpr (div_pos (by exact_mod_cast hb) hcost)
  have hpayable : (payable cost budget : Int) = ⌈(budget : ℚ) / cost⌉ := by
    unfold payable
    omega
  have hlow : (budget : ℚ) ≤ (⌈(budget : ℚ) / cost⌉ : ℚ) * cost :=
    (div_le_iff₀ hcost).mp (Int.le_ceil _)
  have hhigh : (⌈(budget : ℚ) / cost⌉ : ℚ) * cost < budget + cost := by
    have h := Int.ceil_lt_add_one ((budget : ℚ) / cost)
    rw [← div_self hcost.ne', ← add_div] at h
    exact (lt_div_iff₀ hcost).mp h
  rw [hpayable]
  exact ⟨by exact_mod_cast hlow, by exact_mod_cast hhigh⟩

/-- As long as an instruction behind the first is paid for, cycles are left. -/
theorem mul_lt_of_lt_payable {cost j : Nat} {budget : Int} (hc : 1 ≤ cost) (hj : 1 ≤ j)
    (h : j < payable cost budget) : (j : Int) * cost < budget := by
  have hcost : (0 : ℚ) < cost := by exact_mod_cast hc
  have hceil : (j : Int) < ⌈(budget : ℚ) / cost⌉ := by
    unfold payable at h
    omega
  rw [Int.lt_ceil, lt_div_iff₀ hcost] at hceil
  exact_mod_cast hceil

/-! ## The burst as a number of steps -/

/-- A burst attempts the `steps` its budget pays for (`payable`), whether instructions cost
    something or the budget is empty from the start. -/
theorem spend_eq_steps {m : Machine β} (h : 1 ≤ m.cost ∨ m.budget ≤ 0) {bound : Nat}
    (hbound : payable m.cost m.budget ≤ bound) (o : σ) :
    spend bound m o = m.steps (payable m.cost m.budget) o ∧
      Spends m o (m.after (payable m.cost m.budget)) (m.steps (payable m.cost m.budget) o).2 := by
  have hpos := payable_pos m.cost m.budget
  generalize hn : payable m.cost m.budget = n at hbound hpos ⊢
  -- The induction is on the steps paid for; the cycles left shrink with them.
  induction n generalizing m bound o with
  | zero => omega
  | succ n ih =>
    obtain ⟨bound, rfl⟩ : ∃ k, bound = k + 1 := ⟨bound - 1, by omega⟩
    by_cases hlast : (m.step o).value.isNone ∨ (m.step o).machine.budget ≤ 0
    -- The last step: the machine stands and every further step is quiet, or one is paid for.
    · have hone : spend (bound + 1) m o = ((m.step o).machine, (m.step o).observer) := by
        rw [spend_succ, if_pos (by simpa using hlast)]
      have hstop := Spends.stop hlast
      rcases (step_last_iff m o).mp hlast with hhalted | hle
      · rw [hone, after_of_halted hhalted, steps_of_halted hhalted]
        rw [step_of_halted hhalted] at hstop ⊢
        exact ⟨rfl, hstop⟩
      · rw [payable_of_le hle] at hn
        obtain rfl : n = 0 := by omega
        rw [hone, ← fst_steps m (0 + 1) o]
        exact ⟨rfl, hstop⟩
    -- Another step follows: an instruction costs something, and this one was paid for.
    · have hgoes := mt (step_last_iff m o).mpr hlast
      have hrunning : m.state = .running :=
        running_of_not_halted fun hhalted => hgoes (.inl hhalted)
      have hlt : m.cost < m.budget := not_le.mp fun hle => hgoes (.inr hle)
      have hc : 1 ≤ m.cost := by
        rcases h with h | h
        · exact h
        · omega
      have hmachine : (m.step o).machine = m.next := (step_unwatched m o).2
      have hbudget := budget_next_of_running hrunning
      have hnext : payable m.next.cost m.next.budget = n := by
        rw [cost_next, hbudget]
        rw [payable_of_lt hc hlt] at hn
        omega
      have hfewer : n ≤ bound := by omega
      obtain ⟨hspend, hrest⟩ := ih (m := m.next) (.inl (by simpa using hc)) (m.step o).observer
        hnext hfewer (hnext ▸ payable_pos _ _)
      constructor
      · rw [spend_succ, if_neg (by simpa using hlast), steps, hmachine]
        exact hspend
      · refine Spends.more hlast ?_
        rw [after_succ, steps, hmachine]
        exact hrest

/-- `stepBound` is never the reason why a burst ends. -/
theorem payable_le_stepBound {cost : Nat} {budget : Int} (h : 1 ≤ cost ∨ budget ≤ 0) :
    payable cost budget ≤ stepBound cost budget := by
  by_cases hc : 1 ≤ cost
  · exact (stepBound_eq_payable hc budget).ge
  · obtain rfl : cost = 0 := by omega
    rw [payable_of_le (by simpa using h), stepBound, if_pos rfl]
    decide

theorem run_eq_steps {m : Machine β} {b : Int} (h : 1 ≤ m.cost ∨ b ≤ 0) (o : σ) :
    m.run b o =
      { value := ((m.withBudget b).after (payable m.cost b)).executed - m.executed
        machine := (m.withBudget b).after (payable m.cost b)
        observer := (m.steps (payable m.cost b) o).2 } := by
  have hspend := (spend_eq_steps (m := m.withBudget b) h (payable_le_stepBound h) o).1
  rw [cost_withBudget, budget_withBudget] at hspend
  have hrun : m.run b o = _ := run_eq_spend m b o
  rw [← withBudget, hspend, fst_steps] at hrun
  rw [hrun]
  exact congrArg _ (steps_withBudget m b _ o).2

theorem spends_run {m : Machine β} {b : Int} (h : 1 ≤ m.cost ∨ b ≤ 0) (o : σ) :
    Spends (m.withBudget b) o (m.run b o).machine (m.run b o).observer := by
  rw [run_eq_steps h]
  have hspends := (spend_eq_steps (m := m.withBudget b) h (payable_le_stepBound h) o).2
  rwa [(steps_withBudget m b _ o).2] at hspends

/-- A burst of a running machine: the instructions its budget pays for (`payable`), up to the first
    halt (`haltIndex`). -/
theorem run_of_running {m : Machine β} (hm : m.state = .running) {b : Int}
    (h : 1 ≤ m.cost ∨ b ≤ 0) {k : Nat} (hk : (k : ℕ∞) = min (payable m.cost b : ℕ∞) m.haltIndex)
    (o : σ) :
    m.run b o =
      { value := k
        machine := (m.after k).withBudget
          (if m.haltIndex < payable m.cost b then 0 else b - payable m.cost b * m.cost)
        observer := (m.steps k o).2 } := by
  -- Where the halt comes first, the step behind it has given up the cycles left.
  have hindex := haltIndex_withBudget m b
  have hbudget : ((m.withBudget b).after (payable m.cost b)).budget
      = if m.haltIndex < payable m.cost b then 0 else b - payable m.cost b * m.cost := by
    split
    · next hlt => exact budget_after_of_lt (m := m.withBudget b) hm (hindex ▸ hlt)
    · next hle => exact budget_after_of_le (m := m.withBudget b) hm (hindex ▸ not_lt.mp hle)
  have hexecuted := executed_after_eq (m := m.withBudget b) hm (hindex ▸ hk)
  obtain ⟨hmachine, hobserver⟩ := steps_eq_of_min hm hk o
  have hsame := (steps_withBudget m b (payable m.cost b) o).1.trans hmachine
  rw [run_eq_steps h, hexecuted, eq_withBudget_of_eq hsame, hbudget, hobserver]
  simp

/-- A burst of a running machine executes at least one instruction, and no more than its
    budget pays for. -/
theorem exists_run_eq {m : Machine β} (hm : m.state = .running) {b : Int}
    (h : 1 ≤ m.cost ∨ b ≤ 0) (o : σ) :
    ∃ (k : Nat) (x : Int), 1 ≤ k ∧ k ≤ payable m.cost b ∧
      (m.after k).executed = m.executed + k ∧
      m.run b o =
        { value := k, machine := (m.after k).withBudget x, observer := (m.steps k o).2 } := by
  obtain ⟨k, hk⟩ := exists_eq_min (payable m.cost b) m.haltIndex
  have hpos : ((0 : ℕ) : ℕ∞) < k := by
    have hhalt : ((0 : ℕ) : ℕ∞) < m.haltIndex := (lt_haltIndex_iff m 0).mpr fun _ => HaltsAt.pos
    exact hk ▸ lt_min (by exact_mod_cast payable_pos m.cost b) hhalt
  have hpayable : (k : ℕ∞) ≤ payable m.cost b := hk ▸ min_le_left _ _
  exact ⟨k, _, by exact_mod_cast hpos, by exact_mod_cast hpayable,
    executed_after_eq hm (min_eq_left (hk ▸ min_le_right _ _)).symm, run_of_running hm h hk o⟩

/-! ## The closed form -/

/-- No instruction of a burst draws the budget out of the range of its counter, `minBudget` to
    `maxBudget`. -/
theorem budget_in_range {m : Machine β} {b : Int} (hm : m.state = .running) (hc : 1 ≤ m.cost)
    (hsize : m.cost < UInt32.size) (hlow : minBudget ≤ b - m.cost) (hhigh : b ≤ maxBudget)
    {j : Nat} (hj : j < payable m.cost b) (hle : (j : ℕ∞) ≤ m.haltIndex) :
    minBudget ≤ ((m.withBudget b).after j).budget - m.cost ∧
      ((m.withBudget b).after j).budget - m.cost ≤ maxBudget := by
  have hbudget := budget_after_of_le (m := m.withBudget b) hm (n := j)
    (by rwa [haltIndex_withBudget])
  rw [budget_withBudget, cost_withBudget] at hbudget
  rw [hbudget]
  have hpaid : (0 : Int) ≤ j * m.cost := by positivity
  have hsize' : (m.cost : Int) < UInt32.size := by exact_mod_cast hsize
  unfold minBudget maxBudget UInt32.size at *
  -- Only the first instruction can start from a budget that is not positive.
  rcases Nat.eq_zero_or_pos j with rfl | hpos
  · simp only [Nat.cast_zero, zero_mul, sub_zero]
    omega
  · have hleft := mul_lt_of_lt_payable hc hpos hj
    omega

/-- The closed form of a burst. It ends (`Spends`); a machine that stands only gives up its cycles;
    and a running machine executes `k` instructions, as many as its budget pays for (`payable`) or
    up to its first halt (`haltIndex`), as bare `steps` would. Behind a halt that comes early the
    cycles left are given up, otherwise they are what the instructions have left of the budget. No
    subtraction on the way leaves the range of a 64-bit counter, from `minBudget` to `maxBudget`. -/
theorem run_closed_form (m : Machine β) (b : Int) (o : σ) (hc : 1 ≤ m.cost) :
    Spends (m.withBudget b) o (m.run b o).machine (m.run b o).observer ∧
    (m.state = .halted →
      m.run b o = { value := 0, machine := m.withBudget 0, observer := o }) ∧
    (m.state = .running → ∃ k : Nat,
      (k : ℕ∞) = min (payable m.cost b : ℕ∞) m.haltIndex ∧
      m.run b o =
        { value := k
          machine := (m.steps k o).1.withBudget
            (if m.haltIndex < payable m.cost b then 0 else b - payable m.cost b * m.cost)
          observer := (m.steps k o).2 } ∧
      (m.run b o).machine.executed = m.executed + k ∧
      (0 < b → -(m.cost : Int) < b - payable m.cost b * m.cost ∧
        b - payable m.cost b * m.cost ≤ 0) ∧
      (m.cost < UInt32.size → minBudget ≤ b - m.cost → b ≤ maxBudget → ∀ j < k,
        minBudget ≤ ((m.withBudget b).after j).budget - m.cost ∧
          ((m.withBudget b).after j).budget - m.cost ≤ maxBudget)) := by
  have hrun := run_eq_steps (b := b) (.inl hc) o
  refine ⟨spends_run (.inl hc) o, fun hm => ?_, fun hm => ?_⟩
  · obtain ⟨n, hn⟩ := Nat.exists_eq_add_of_le' (payable_pos m.cost b)
    rw [hrun, hn, steps_of_halted hm, after_of_halted (m := m.withBudget b) hm]
    simp
  · obtain ⟨k, hk⟩ := exists_eq_min (payable m.cost b) m.haltIndex
    have hclosed := run_of_running hm (.inl hc) hk o
    refine ⟨k, hk, by rw [hclosed, fst_steps], ?_, fun hb => ?_, ?_⟩
    · rw [hclosed, executed_withBudget]
      exact executed_after_eq hm (min_eq_left (hk ▸ min_le_right _ _)).symm
    · obtain ⟨hlow, hhigh⟩ := payable_mul_bounds hc hb
      constructor <;> linarith
    · intro hsize hlow hhigh j hj
      have hjk : (j : ℕ∞) < min (payable m.cost b : ℕ∞) m.haltIndex := hk ▸ by exact_mod_cast hj
      obtain ⟨hpaid, hhalt⟩ := lt_min_iff.mp hjk
      exact budget_in_range hm hc hsize hlow hhigh (by exact_mod_cast hpaid) hhalt.le

/-- A burst of 5000 cycles on a program that jumps to itself. -/
theorem run_closed_form_endless_jump :
    let m : Machine Memory :=
      { Machine.fresh with bank := { p := 4 }, bus := (Memory.zero.write 4 0o344).write 5 4 }
    1 ≤ m.cost ∧ m.state = .running ∧ ∃ k : Nat,
      (k : ℕ∞) = min (payable m.cost 5000 : ℕ∞) m.haltIndex ∧
      (m.run 5000 ()).value = k ∧ (m.run 5000 ()).machine.executed = m.executed + k := by
  intro m
  obtain ⟨k, hk, hrun, hexecuted, -⟩ := (run_closed_form m 5000 () (by decide)).2.2 rfl
  exact ⟨by decide, rfl, k, hk, congrArg Turn.value hrun, hexecuted⟩

example :
    let m : Machine Memory :=
      { Machine.fresh with bank := { p := 4 }, bus := (Memory.zero.write 4 0o344).write 5 4 }
    (m.run 5000 ()).value = 3 ∧ (m.run 5000 ()).machine.budget = -1000 := by
  decide +kernel

end Machine
end Kenbak1
