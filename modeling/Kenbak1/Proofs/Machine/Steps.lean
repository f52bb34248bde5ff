/-
  Kenbak1.Proofs.Machine.Steps

  Bare steps, one after another: `after` is the machine behind them and `steps` has the observer
  too. The number of cycles left decides nothing about a step: two machines that differ in it alone
  take the same steps (`steps_withBudget`). A running machine executes one instruction a step up to
  the first halt, and none from then on (`next_of_running`, `after_of_halted`).
-/
import Kenbak1.Proofs.Machine.Frame
import Mathlib.Data.ENat.Lattice

namespace Kenbak1
namespace Machine

variable {β σ : Type}

/-! ## Cycles left -/

/-- The machine with a number of cycles left. -/
def withBudget (m : Machine β) (budget : Int) : Machine β :=
  { m with budget }

@[simp] theorem budget_withBudget (m : Machine β) (b : Int) : (m.withBudget b).budget = b := rfl

@[simp] theorem state_withBudget (m : Machine β) (b : Int) :
    (m.withBudget b).state = m.state := rfl

@[simp] theorem cost_withBudget (m : Machine β) (b : Int) : (m.withBudget b).cost = m.cost := rfl

@[simp] theorem executed_withBudget (m : Machine β) (b : Int) :
    (m.withBudget b).executed = m.executed := rfl

@[simp] theorem withBudget_withBudget (m : Machine β) (b c : Int) :
    (m.withBudget b).withBudget c = m.withBudget c := rfl

@[simp] theorem withBudget_budget (m : Machine β) : m.withBudget m.budget = m := rfl

/-- Machines that differ in the cycles left alone. -/
theorem eq_withBudget_of_eq {m k : Machine β} (h : m.withBudget 0 = k.withBudget 0) :
    m = k.withBudget m.budget := by
  have h' := congrArg (fun x => x.withBudget m.budget) h
  simpa using h'

theorem executed_eq_of_withBudget {m k : Machine β} (h : m.withBudget 0 = k.withBudget 0) :
    m.executed = k.executed := by
  have hexecuted := congrArg Machine.executed h
  exact hexecuted

theorem state_eq_of_withBudget {m k : Machine β} (h : m.withBudget 0 = k.withBudget 0) :
    m.state = k.state := by
  have hstate := congrArg Machine.state h
  exact hstate

theorem running_of_not_halted {m : Machine β} (h : m.state ≠ .halted) : m.state = .running := by
  cases hs : m.state with
  | halted => exact absurd hs h
  | running => rfl

theorem isHalted_of_running {m : Machine β} (h : m.state = .running) : m.isHalted = false := by
  rw [isHalted, h]
  rfl

variable [Bus β] [Observer σ]

/-! ## One step -/

theorem step_of_halted {m : Machine β} (h : m.state = .halted) (o : σ) :
    m.step o = { value := none, machine := m.withBudget 0, observer := o } := by
  unfold step
  split
  · rfl
  · rename_i hrunning
    rw [h] at hrunning
    cases hrunning

/-- A step of a running machine: the instruction at P, and the entries of the ledger that
    follow it. -/
theorem step_of_running {m : Machine β} (h : m.state = .running) (o : σ) :
    m.step o =
      { value := some m.executeNext.1
        machine := m.executeNext.2.withLedger
          { m.ledger with
            executed := m.executed + 1
            budget := m.budget - m.cost
            last := some m.executeNext.1 }
        observer := Observer.notify
          (Observer.notify o (.out m.executeNext.2.bank.out)) (.halt m.executeNext.2.isHalted) } := by
  -- The step reads count, budget and cost behind the instruction, which has left them alone.
  have hledger := ledger_executeNext m
  unfold step
  rw [h]
  simp only [ledger, Ledger.mk.injEq] at hledger
  obtain ⟨hexecuted, hbudget, hcost, hlatch, -⟩ := hledger
  simp only [withLedger, ledger, isHalted, hexecuted, hbudget, hcost, ← hlatch]

theorem executeNext_withBudget (m : Machine β) (b : Int) :
    (m.withBudget b).executeNext = (m.executeNext.1, m.executeNext.2.withBudget b) := by
  -- The budget is an entry of the ledger.
  have h : m.executeNext.2.withBudget b
      = m.executeNext.2.withLedger { m.executeNext.2.ledger with budget := b } := rfl
  rw [h, ledger_executeNext]
  exact executeNext_withLedger m { m.ledger with budget := b }

/-- What a `step` does and says does not depend on the cycles left, only the cycles left do. -/
theorem step_withBudget (m : Machine β) (b : Int) (o : σ) :
    (m.withBudget b).step o =
      { value := (m.step o).value
        machine := (m.step o).machine.withBudget (if m.state = .halted then 0 else b - m.cost)
        observer := (m.step o).observer } := by
  cases h : m.state with
  | halted => rw [step_of_halted h, step_of_halted (m := m.withBudget b) h]; rfl
  | running =>
    rw [step_of_running h, step_of_running (m := m.withBudget b) h, executeNext_withBudget]
    rfl

/-- What a step does to the machine does not depend on who watches. -/
theorem step_unwatched (m : Machine β) (o : σ) :
    (m.step o).value = (m.step ()).value ∧ (m.step o).machine = (m.step ()).machine := by
  cases h : m.state with
  | halted => rw [step_of_halted h, step_of_halted h]; exact ⟨rfl, rfl⟩
  | running => rw [step_of_running h, step_of_running h]; exact ⟨rfl, rfl⟩

/-! ## Many steps -/

/-- Attempts a number of steps. -/
def steps : (n : Nat) → Machine β → σ → Machine β × σ
  | 0, m, observer => (m, observer)
  | n + 1, m, observer => steps n (m.step observer).machine (m.step observer).observer

/-- The machine after a step that nobody watches. -/
def next (m : Machine β) : Machine β :=
  (m.step ()).machine

/-- The machine after a number of attempted steps. -/
def after (m : Machine β) (n : Nat) : Machine β :=
  next^[n] m

@[simp] theorem after_zero (m : Machine β) : m.after 0 = m := rfl

theorem after_succ (m : Machine β) (n : Nat) : m.after (n + 1) = m.next.after n := rfl

theorem after_succ_eq_next (m : Machine β) (n : Nat) : m.after (n + 1) = (m.after n).next :=
  Function.iterate_succ_apply' next n m

theorem after_add (m : Machine β) (n k : Nat) : m.after (n + k) = (m.after n).after k := by
  unfold after
  rw [Nat.add_comm, Function.iterate_add_apply]

/-- The machine after a number of steps, whoever watches. -/
theorem fst_steps (m : Machine β) (n : Nat) (o : σ) : (m.steps n o).1 = m.after n := by
  induction n generalizing m o with
  | zero => rfl
  | succ n ih => rw [steps, ih, (step_unwatched m o).2, after_succ, next]

theorem steps_add (m : Machine β) (n k : Nat) (o : σ) :
    m.steps (n + k) o = (m.steps n o).1.steps k (m.steps n o).2 := by
  induction n generalizing m o with
  | zero => rw [Nat.zero_add, steps]
  | succ n ih => rw [Nat.add_right_comm, steps, ih, steps]

/-- The cycles left decide neither what many steps do nor what they say. -/
theorem steps_withBudget (m : Machine β) (b : Int) (n : Nat) (o : σ) :
    ((m.withBudget b).after n).withBudget 0 = (m.after n).withBudget 0 ∧
      ((m.withBudget b).steps n o).2 = (m.steps n o).2 := by
  -- The cycles left differ after each step, so the induction is over all of them.
  induction n generalizing m b o with
  | zero => exact ⟨rfl, rfl⟩
  | succ n ih =>
    have hnext : (m.withBudget b).next
        = m.next.withBudget (if m.state = .halted then 0 else b - m.cost) :=
      congrArg Turn.machine (step_withBudget m b ())
    rw [after_succ, after_succ, hnext, steps, steps, step_withBudget]
    exact ⟨(ih m.next _ o).1, (ih (m.step o).machine _ _).2⟩

/-- Steps taken up again with other cycles left go on as if nothing had happened. -/
theorem steps_resume (m : Machine β) (x : Int) {k n : Nat} (hkn : k ≤ n) (o : σ) :
    (((m.after k).withBudget x).after (n - k)).withBudget 0 = (m.after n).withBudget 0 ∧
      (((m.after k).withBudget x).steps (n - k) (m.steps k o).2).2 = (m.steps n o).2 := by
  have hsplit : k + (n - k) = n := by omega
  obtain ⟨hmachine, hobserver⟩ :=
    steps_withBudget (m.after k) x (n - k) (m.steps k o).2
  rw [← after_add, hsplit] at hmachine
  rw [← fst_steps m k o, ← steps_add, hsplit, fst_steps] at hobserver
  exact ⟨hmachine, hobserver⟩

/-! ## Standing machines -/

theorem next_of_halted {m : Machine β} (h : m.state = .halted) : m.next = m.withBudget 0 := by
  rw [next, step_of_halted h]

/-- A machine that stands gives up its cycles at the first step and stays as it is. -/
theorem steps_of_halted {m : Machine β} (h : m.state = .halted) (n : Nat) (o : σ) :
    m.steps (n + 1) o = (m.withBudget 0, o) := by
  induction n generalizing m with
  | zero => rw [steps, step_of_halted h, steps]
  | succ n ih =>
    rw [steps, step_of_halted h]
    exact ih h

theorem after_of_halted {m : Machine β} (h : m.state = .halted) (n : Nat) :
    m.after (n + 1) = m.withBudget 0 := by
  rw [← fst_steps m (n + 1) (), steps_of_halted h]

/-- Steps from a machine that stands change nothing but the cycles left, and say nothing. -/
theorem steps_quiet_of_halted {m : Machine β} (h : m.state = .halted) (n : Nat) (o : σ) :
    (m.after n).withBudget 0 = m.withBudget 0 ∧ (m.steps n o).2 = o := by
  cases n with
  | zero => exact ⟨rfl, rfl⟩
  | succ n => rw [after_of_halted h, steps_of_halted h]; exact ⟨rfl, rfl⟩

/-- Once a machine stands, further steps change nothing but the cycles left, and say nothing. -/
theorem steps_eq_of_halted {m : Machine β} {n k : Nat} (h : (m.after n).state = .halted)
    (hnk : n ≤ k) (o : σ) :
    (m.after k).withBudget 0 = (m.after n).withBudget 0 ∧ (m.steps k o).2 = (m.steps n o).2 := by
  obtain ⟨d, rfl⟩ := Nat.exists_eq_add_of_le hnk
  rw [after_add, steps_add, fst_steps]
  exact steps_quiet_of_halted h d _

theorem state_after_of_le {m : Machine β} {n k : Nat} (h : (m.after n).state = .halted)
    (hnk : n ≤ k) : (m.after k).state = .halted :=
  (state_eq_of_withBudget (steps_eq_of_halted h hnk ()).1).trans h

/-! ## Running machines -/

/-- A machine that runs after some steps has run all the time. -/
theorem running_of_after {m : Machine β} {n : Nat} (h : (m.after n).state = .running) :
    m.state = .running := by
  refine running_of_not_halted fun hhalted => ?_
  have hlater := state_after_of_le (m := m) (n := 0) hhalted (Nat.zero_le n)
  rw [h] at hlater
  cases hlater

theorem next_of_running {m : Machine β} (h : m.state = .running) :
    m.next = m.executeNext.2.withLedger
      { m.ledger with
        executed := m.executed + 1
        budget := m.budget - m.cost
        last := some m.executeNext.1 } := by
  rw [next, step_of_running h]

theorem executed_next_of_running {m : Machine β} (h : m.state = .running) :
    m.next.executed = m.executed + 1 := by
  rw [next_of_running h]; rfl

theorem budget_next_of_running {m : Machine β} (h : m.state = .running) :
    m.next.budget = m.budget - m.cost := by
  rw [next_of_running h]; rfl

@[simp] theorem cost_next (m : Machine β) : m.next.cost = m.cost := by
  cases h : m.state with
  | halted => rw [next_of_halted h]; rfl
  | running => rw [next_of_running h]; rfl

@[simp] theorem cost_after (m : Machine β) (n : Nat) : (m.after n).cost = m.cost := by
  induction n with
  | zero => rfl
  | succ n ih => rw [after_succ_eq_next, cost_next, ih]

/-- A running machine stands after a step exactly if the step executed a halt. -/
theorem state_next_of_running {m : Machine β} (h : m.state = .running) :
    m.next.state = .running ↔ m.executeNext.1.operation ≠ .halt := by
  rw [next_of_running h, state_withLedger, state_executeNext, h]
  split <;> simp_all

theorem executed_le_after (m : Machine β) (n : Nat) : m.executed ≤ (m.after n).executed := by
  induction n with
  | zero => exact Nat.le_refl _
  | succ n ih =>
    rw [after_succ_eq_next]
    cases h : (m.after n).state with
    | halted => rwa [next_of_halted h]
    | running => rw [executed_next_of_running h]; omega

theorem executed_after_le (m : Machine β) (n : Nat) : (m.after n).executed ≤ m.executed + n := by
  induction n with
  | zero => exact Nat.le_refl _
  | succ n ih =>
    rw [after_succ_eq_next]
    cases h : (m.after n).state with
    | halted => rw [next_of_halted h, executed_withBudget]; omega
    | running => rw [executed_next_of_running h]; omega

end Machine
end Kenbak1
