/-
  Kenbak1.Proofs.Console.Loop

  The loop of a tick past breakpoints. `spendBy` takes the price of each instruction from a
  budget of its own, in a bounded number of rounds. `Spends` is that loop with no bound, and
  `guarded` is the loop that counts rounds in place of cycles: the `burstRounds` that a budget
  pays for.
-/
import Kenbak1.Proofs.Console.Panel
import Kenbak1.Proofs.Machine.Steps

namespace Kenbak1
namespace Console

/-! ## The loop -/

/-- The loop of a tick with counters that have no end. -/
def spend (price bound : Nat) (budget : Int) (resuming : Bool) (c : Console) : Console :=
  spendBy (μ := Id) FrontPanel.step price bound budget resuming c

theorem spend_succ (price bound : Nat) (budget : Int) (resuming : Bool) (c : Console) :
    spend price (bound + 1) budget resuming c =
      if 0 < budget && c.panel.machine.isRunning then
        if c.breakpoints.contains c.panel.machine.bank.p && !resuming then
          { c with
            panel := c.panel.press .stop
            status := .stoppedAt c.panel.machine.bank.p
            resuming := false }
        else spend price bound (budget - price) false { c with panel := c.panel.step.2 }
      else c.settle := rfl

/-- The loop of a tick, with a budget from which each instruction takes a price, ends with a
    console. It tests the budget and the run state, then the breakpoint at P, and steps; `spendBy`
    is the same loop with a bound. -/
inductive Spends (price : Nat) : Int → Bool → Console → Console → Prop
  | settled {budget : Int} {resuming : Bool} {c : Console}
      (stop : ¬ (0 < budget ∧ c.panel.machine.state = .running)) :
      Spends price budget resuming c c.settle
  | held {budget : Int} {c : Console} (goes : 0 < budget ∧ c.panel.machine.state = .running)
      (breakpoint : c.breakpoints.contains c.panel.machine.bank.p) :
      Spends price budget false c
        { c with
          panel := c.panel.press .stop
          status := .stoppedAt c.panel.machine.bank.p
          resuming := false }
  | more {budget : Int} {resuming : Bool} {c after : Console}
      (goes : 0 < budget ∧ c.panel.machine.state = .running)
      (passes : c.breakpoints.contains c.panel.machine.bank.p → resuming = true)
      (rest : Spends price (budget - price) false { c with panel := c.panel.step.2 } after) :
      Spends price budget resuming c after

/-- The loop ends in one way at most. -/
theorem Spends.unique {price : Nat} {budget : Int} {resuming : Bool} {c d e : Console}
    (h : Spends price budget resuming c d) (h' : Spends price budget resuming c e) : d = e := by
  induction h with
  | settled stop =>
    cases h' with
    | settled => rfl
    | held goes => exact absurd goes stop
    | more goes => exact absurd goes stop
  | held goes breakpoint =>
    cases h' with
    | settled stop => exact absurd goes stop
    | held => rfl
    | more _ passes => cases passes breakpoint
  | more goes passes _ ih =>
    cases h' with
    | settled stop => exact absurd goes stop
    | held _ breakpoint => cases passes breakpoint
    | more _ _ rest => exact ih rest

/-! ## Rounds -/

/-- Steps until the machine stands or reaches a breakpoint, at most `rounds` times. A
    breakpoint at P does not count while `resuming`. -/
def guarded : (rounds : Nat) → (resuming : Bool) → Console → Console
  | 0, _, c => c.settle
  | rounds + 1, resuming, c =>
    let p := c.panel.machine.bank.p
    if c.panel.machine.isHalted then c.settle
    else if c.breakpoints.contains p && !resuming then
      { c with panel := c.panel.press .stop, status := .stoppedAt p, resuming := false }
    else guarded rounds false { c with panel := c.panel.step.2 }

/-- What `step`, a stop and `settle` keep is kept by `guarded`. -/
theorem guarded_keeps {P : Console → Prop} (settle : ∀ c, P c → P c.settle)
    (stop : ∀ c status, P c →
      P { c with panel := c.panel.press .stop, status, resuming := false })
    (step : ∀ c, P c → P { c with panel := c.panel.step.2 }) (rounds : Nat) (resuming : Bool)
    {c : Console} (h : P c) : P (guarded rounds resuming c) := by
  -- The induction is on the rounds: each ends the tick, stops the machine or steps it.
  induction rounds generalizing c resuming with
  | zero => exact settle c h
  | succ rounds ih =>
    unfold guarded
    dsimp only
    split
    · exact settle c h
    · split
      · exact stop c _ h
      · exact ih false (step c h)

theorem burstRounds_of_nonpos (cost : Nat) {budget : Int} (h : budget ≤ 0) :
    burstRounds cost budget = 0 := by
  have hprice : (0 : Int) < (max cost 1 : Nat) := by omega
  have hquotient : (budget + (max cost 1 : Nat) - 1) / (max cost 1 : Nat) < 1 :=
    Int.ediv_lt_of_lt_mul hprice (by omega)
  unfold burstRounds
  omega

/-- The first instruction takes its price, and the rest of the budget pays for the others. -/
theorem burstRounds_of_pos (cost : Nat) {budget : Int} (h : 0 < budget) :
    burstRounds cost budget = burstRounds cost (budget - (max cost 1 : Nat)) + 1 := by
  have hprice : (0 : Int) < (max cost 1 : Nat) := by omega
  have hnonneg : 0 ≤ (budget - 1) / (max cost 1 : Nat) := Int.ediv_nonneg (by omega) hprice.le
  have hquotient : (budget + (max cost 1 : Nat) - 1) / (max cost 1 : Nat)
      = (budget - 1) / (max cost 1 : Nat) + 1 := by
    rw [← Int.add_mul_ediv_right _ _ hprice.ne', one_mul]
    congr 1
    omega
  have hrest : budget - (max cost 1 : Nat) + (max cost 1 : Nat) - 1 = budget - 1 := by omega
  unfold burstRounds
  rw [hquotient, hrest]
  omega

/-- The loop makes the `burstRounds` that its budget pays for, whatever larger bound it is given; so
    it is the loop with no bound. -/
theorem spend_eq_guarded (cost : Nat) {bound : Nat} {budget : Int}
    (hbound : burstRounds cost budget ≤ bound) (resuming : Bool) (c : Console) :
    spend (max cost 1) bound budget resuming c = guarded (burstRounds cost budget) resuming c ∧
      Spends (max cost 1) budget resuming c (guarded (burstRounds cost budget) resuming c) := by
  -- The induction is on the bound; each round takes the price of an instruction.
  induction bound generalizing budget resuming c with
  | zero =>
    have hnone : burstRounds cost budget = 0 := Nat.le_zero.mp hbound
    have hover : ¬ 0 < budget := by
      intro hpos
      rw [burstRounds_of_pos cost hpos] at hnone
      cases hnone
    rw [hnone]
    exact ⟨rfl, .settled fun goes => hover goes.1⟩
  | succ bound ih =>
    by_cases hpos : 0 < budget
    · have hrounds := burstRounds_of_pos cost hpos
      rw [hrounds] at hbound ⊢
      rw [spend_succ, guarded]
      cases hm : c.panel.machine.state with
      | halted =>
        have hhalted : c.panel.machine.isHalted = true := by simp [Machine.isHalted, hm]
        have hruns : c.panel.machine.isRunning = false := by simp [Machine.isRunning, hm]
        rw [hhalted, hruns, Bool.and_false, if_neg Bool.false_ne_true, if_pos rfl]
        exact ⟨rfl, .settled fun goes => by rw [hm] at goes; cases goes.2⟩
      | running =>
        have hhalted := Machine.isHalted_of_running hm
        have hruns : c.panel.machine.isRunning = true := by simp [Machine.isRunning, hm]
        rw [hhalted, hruns, decide_eq_true hpos, Bool.and_true, if_pos rfl,
          if_neg Bool.false_ne_true]
        split
        · next hheld =>
          obtain ⟨hbreak, hresuming⟩ := Bool.and_eq_true_iff.mp hheld
          obtain rfl : resuming = false := by simpa using hresuming
          exact ⟨rfl, .held ⟨hpos, hm⟩ hbreak⟩
        · next hpasses =>
          obtain ⟨hloop, hrest⟩ := ih (Nat.le_of_succ_le_succ hbound) false
            { c with panel := c.panel.step.2 }
          refine ⟨hloop, .more ⟨hpos, hm⟩ (fun hbreak => ?_) hrest⟩
          by_contra hnot
          exact hpasses (by simp [hbreak, hnot])
    · have hnone := burstRounds_of_nonpos cost (not_lt.mp hpos)
      rw [hnone, spend_succ, decide_eq_false hpos, Bool.false_and, if_neg Bool.false_ne_true]
      exact ⟨rfl, .settled fun goes => hpos goes.1⟩

/-! ## The tick -/

/-- A `tick` with breakpoints makes the `burstRounds` that its burst pays for. -/
theorem tick_eq (c : Console) :
    c.tick =
      if c.panel.machine.isHalted then c
      else if c.breakpoints.isEmpty then
        settle { c with panel := (c.panel.runBurst c.config.burstCycles.toInt).2 }
      else
        guarded (burstRounds c.panel.machine.cost c.config.burstCycles.toInt) c.resuming c := by
  have hloop := (spend_eq_guarded c.panel.machine.cost
    (Nat.le_refl (burstRounds c.panel.machine.cost c.config.burstCycles.toInt)) c.resuming c).1
  rw [← hloop]
  rfl

end Console
end Kenbak1
