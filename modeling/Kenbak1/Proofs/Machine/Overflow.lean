/-
  Kenbak1.Proofs.Machine.Overflow

  Counters of 64 bits. What is built on `tryStep` breaks off in the first step in which `overflow?`
  finds a counter to overflow; where there is none it comes to what is built on `step` (`Comes`). So
  what is known of `run` and `runBursts` holds for `tryRun` and `tryRunBursts`, in the range that
  `tryRun_eq_ok_iff` and `tryRunBursts_eq_ok_iff` state.
-/
import Kenbak1.Proofs.Machine.Bursts
import Kenbak1.Proofs.Machine.Counts

namespace Kenbak1
namespace Machine

/-! ## Operations that may break off -/

section Comes

variable {α γ β σ : Type}

/-- A computation comes to a value, or it breaks off with an `Overflow` and comes to none. -/
inductive Comes : Except (Failure β σ) α → Option Overflow → α → Prop
  | ok (value : α) : Comes (.ok value) none value
  | error (failure : Failure β σ) (value : α) : Comes (.error failure) (some failure.overflow) value

namespace Comes

variable {x : Except (Failure β σ) α} {overflow : Option Overflow} {value : α}

/-- Two computations one after the other break off with the first overflow. -/
theorem bind (h : Comes x overflow value) {f : α → Except (Failure β σ) γ} {next : Option Overflow}
    {last : γ} (hf : Comes (f value) next last) : Comes (x >>= f) (overflow.or next) last := by
  cases h with
  | ok => exact hf
  | error failure => exact .error failure last

theorem map (h : Comes x overflow value) (f : α → γ) : Comes (f <$> x) overflow (f value) := by
  cases h with
  | ok => exact .ok (f value)
  | error failure => exact .error failure (f value)

/-- A computation behind which nothing can overflow. -/
theorem bind_pure (h : Comes x overflow value) (f : α → γ) :
    Comes (x >>= fun a => pure (f a)) overflow (f value) := by
  have hlast := h.bind (f := fun a => pure (f a)) (.ok (f value))
  rwa [Option.or_none] at hlast

theorem eq_ok_iff (h : Comes x overflow value) (t : α) :
    x = .ok t ↔ overflow = none ∧ t = value := by
  cases h with
  | ok => simp [eq_comm]
  | error => simp

theorem eq_error_iff (h : Comes x overflow value) (cause : Overflow) :
    (∃ failure, x = .error failure ∧ failure.overflow = cause) ↔ overflow = some cause := by
  cases h with
  | ok => simp
  | error failure => simp

end Comes

/-- How an operation breaks off is found by carrying it out. -/
instance decidableBreaksOff (x : Except (Failure β σ) α) (p : Failure β σ → Prop)
    [DecidablePred p] : Decidable (∃ failure, x = .error failure ∧ p failure) :=
  match x with
  | .ok _ => isFalse fun ⟨_, h, _⟩ => nomatch h
  | .error failure =>
    decidable_of_iff (p failure)
      ⟨fun h => ⟨failure, rfl, h⟩, fun ⟨_, h, hp⟩ => (Except.error.inj h) ▸ hp⟩

/-- Repeats an operation that may break off. -/
def attempts (f : α → Except (Failure β σ) α) : (n : Nat) → α → Except (Failure β σ) α
  | 0, a => .ok a
  | n + 1, a => do attempts f n (← f a)

end Comes

variable {β σ : Type}

/-! ## Steps -/

theorem overflow?_of_halted {m : Machine β} (h : m.state = .halted) : m.overflow? = none := by
  simp [overflow?, isHalted, h]

/-- A running machine needs room in both counters. -/
theorem overflow?_eq_none_iff {m : Machine β} (h : m.state = .running) :
    m.overflow? = none ↔ minBudget ≤ m.budget - m.cost ∧ m.executed + 1 < UInt64.size := by
  rw [overflow?, isHalted_of_running h, if_neg Bool.false_ne_true]
  by_cases hlow : m.budget - m.cost < minBudget
  · simp [hlow]
  · by_cases hfull : UInt64.size ≤ m.executed + 1
    · simp [hlow, hfull]
    · simp [hlow, hfull, not_lt.mp hlow, not_le.mp hfull]

/-- The budget is the first of the two. -/
theorem overflow?_eq_budget_iff {m : Machine β} (h : m.state = .running) :
    m.overflow? = some .budget ↔ m.budget - m.cost < minBudget := by
  rw [overflow?, isHalted_of_running h, if_neg Bool.false_ne_true]
  by_cases hlow : m.budget - m.cost < minBudget
  · simp [hlow]
  · by_cases hfull : UInt64.size ≤ m.executed + 1 <;> simp [hlow, hfull]

variable [Bus β]

theorem comes_tryStep [Observer σ] (m : Machine β) (o : σ) :
    Comes (m.tryStep o) m.overflow? (m.step o) := by
  unfold tryStep
  cases m.overflow? with
  | none => exact .ok _
  | some overflow => exact .error (m.failure o overflow) _

/-- The first overflow in a number of steps. -/
def overflowWithin : (n : Nat) → Machine β → Option Overflow
  | 0, _ => none
  | n + 1, m => m.overflow?.or (overflowWithin n m.next)

variable {m : Machine β}

@[simp] theorem overflowWithin_zero (m : Machine β) : overflowWithin 0 m = none := rfl

theorem overflowWithin_one (m : Machine β) : overflowWithin 1 m = m.overflow? :=
  Option.or_none

theorem overflowWithin_add (m : Machine β) (k n : Nat) :
    overflowWithin (k + n) m = (overflowWithin k m).or (overflowWithin n (m.after k)) := by
  induction k generalizing m with
  | zero =>
    rw [Nat.zero_add]
    rfl
  | succ k ih =>
    rw [Nat.add_right_comm, overflowWithin, overflowWithin, ih, after_succ, Option.or_assoc]

/-- A machine that stands executes nothing that could overflow. -/
theorem overflowWithin_of_halted (h : m.state = .halted) (n : Nat) : overflowWithin n m = none := by
  induction n generalizing m with
  | zero => rfl
  | succ n ih =>
    rw [overflowWithin, overflow?_of_halted h, next_of_halted h]
    exact ih h

/-- Steps behind a halt overflow nothing. -/
theorem overflowWithin_eq_of_halted {k n : Nat} (hk : k ≤ n) (h : (m.after k).state = .halted) :
    overflowWithin n m = overflowWithin k m := by
  obtain ⟨d, rfl⟩ := Nat.exists_eq_add_of_le hk
  rw [overflowWithin_add, overflowWithin_of_halted h, Option.or_none]

theorem overflowWithin_eq_none_iff (m : Machine β) (n : Nat) :
    overflowWithin n m = none ↔ ∀ i < n, (m.after i).overflow? = none := by
  induction n with
  | zero => simp
  | succ n ih =>
    rw [overflowWithin_add, overflowWithin_one, Option.or_eq_none_iff, ih,
      Nat.forall_lt_succ_right]

/-- The first step that overflows decides. -/
theorem overflowWithin_eq_some {i n : Nat} (hi : i < n)
    (hbefore : ∀ j < i, (m.after j).overflow? = none) {cause : Overflow}
    (h : (m.after i).overflow? = some cause) : overflowWithin n m = some cause := by
  obtain ⟨d, rfl⟩ : ∃ d, n = i + 1 + d := Nat.exists_eq_add_of_le hi
  rw [overflowWithin_add, overflowWithin_add, overflowWithin_one,
    (overflowWithin_eq_none_iff m i).mpr hbefore, h]
  rfl

theorem exists_of_overflowWithin {n : Nat} {cause : Overflow}
    (h : overflowWithin n m = some cause) : ∃ i < n, (m.after i).overflow? = some cause := by
  induction n with
  | zero => cases h
  | succ n ih =>
    rw [overflowWithin_add, overflowWithin_one, Option.or_eq_some_iff] at h
    rcases h with hbefore | ⟨-, hlast⟩
    · obtain ⟨i, hi, hcause⟩ := ih hbefore
      exact ⟨i, Nat.lt_succ_of_lt hi, hcause⟩
    · exact ⟨n, Nat.lt_succ_self n, hlast⟩

/-! ## Instructions one after another -/

section Running

variable {k : Nat} (hruns : ∀ i < k, (m.after i).state = .running)

include hruns

theorem budget_after_of_running : (m.after k).budget = m.budget - k * m.cost := by
  induction k with
  | zero => simp
  | succ k ih =>
    rw [Nat.forall_lt_succ_right] at hruns
    rw [after_succ_eq_next, budget_next_of_running hruns.2, ih hruns.1, cost_after]
    push_cast
    ring

/-- Instructions one after another have room exactly if the last of them has. -/
theorem overflowWithin_eq_none_iff_of_running :
    overflowWithin k m = none ↔
      k = 0 ∨ minBudget ≤ m.budget - k * m.cost ∧ m.executed + k < UInt64.size := by
  rw [overflowWithin_eq_none_iff]
  have hstep : ∀ i < k, ((m.after i).overflow? = none ↔
      minBudget ≤ m.budget - i * m.cost - m.cost ∧ m.executed + i + 1 < UInt64.size) := by
    intro i hi
    have hbefore : ∀ j < i, (m.after j).state = .running := fun j hj => hruns j (hj.trans hi)
    rw [overflow?_eq_none_iff (hruns i hi), cost_after, budget_after_of_running hbefore,
      executed_after_of_running hbefore]
  -- The last instruction leaves the least, so its room is the room of all.
  cases k with
  | zero => simp
  | succ k =>
    constructor
    · intro hall
      have hlast := (hstep k (Nat.lt_succ_self k)).mp (hall k (Nat.lt_succ_self k))
      refine .inr ⟨?_, hlast.2⟩
      push_cast
      linarith [hlast.1]
    · rintro (hnone | ⟨hlow, hfull⟩) i hi
      · cases hnone
      · refine (hstep i hi).mpr ⟨?_, by omega⟩
        have hpaid : ((i + 1 : Nat) : Int) * m.cost ≤ ((k + 1 : Nat) : Int) * m.cost :=
          Int.mul_le_mul_of_nonneg_right (by exact_mod_cast hi) (Int.natCast_nonneg _)
        push_cast at hpaid hlow
        linarith

/-- From zero on, the budget overflows as soon as the instructions have cost more than it
    holds. The count does not come first: an instruction that costs something costs at least
    as much as it counts. -/
theorem overflowWithin_eq_budget_iff (hzero : m.budget = 0) (hnone : m.executed = 0) :
    overflowWithin k m = some .budget ↔ 2 ^ 63 < k * m.cost := by
  have hbudget : ∀ i < k, (m.after i).budget - (m.after i).cost = -((i + 1) * m.cost : Nat) := by
    intro i hi
    rw [budget_after_of_running fun j hj => hruns j (hj.trans hi), cost_after, hzero]
    push_cast
    ring
  have hlow : ∀ i < k, ((m.after i).overflow? = some .budget ↔ 2 ^ 63 < (i + 1) * m.cost) := by
    intro i hi
    rw [overflow?_eq_budget_iff (hruns i hi), hbudget i hi, minBudget]
    omega
  constructor
  · intro h
    obtain ⟨i, hi, hcause⟩ := exists_of_overflowWithin h
    exact ((hlow i hi).mp hcause).trans_le (Nat.mul_le_mul_right m.cost hi)
  · intro h
    -- The least number of instructions that cost too much decides.
    obtain ⟨last, rfl⟩ : ∃ last, k = last + 1 := by
      refine Nat.exists_eq_succ_of_ne_zero fun hk => ?_
      rw [hk, Nat.zero_mul] at h
      exact absurd h (Nat.not_lt_zero _)
    have hsome : ∃ i, 2 ^ 63 < (i + 1) * m.cost := ⟨last, h⟩
    have hfirst : Nat.find hsome < last + 1 := Nat.lt_succ_of_le (Nat.find_min' hsome h)
    refine overflowWithin_eq_some hfirst (fun j hj => ?_)
      ((hlow _ hfirst).mpr (Nat.find_spec hsome))
    have hpaid : (j + 1) * m.cost ≤ 2 ^ 63 := not_lt.mp (Nat.find_min hsome hj)
    have hcost : 1 ≤ m.cost := by
      by_contra hfree
      rw [show m.cost = 0 by omega, Nat.mul_zero] at h
      exact absurd h (Nat.not_lt_zero _)
    have hcount := Nat.le_mul_of_pos_right (j + 1) hcost
    rw [overflow?_eq_none_iff (hruns j (hj.trans hfirst)), hbudget j (hj.trans hfirst),
      executed_after_of_running fun i hi => hruns i (hi.trans (hj.trans hfirst)), hnone,
      minBudget, UInt64.size]
    omega

end Running

/-- Steps of a running machine are instructions, and from the first halt on nothing; so
    `overflowWithin` looks at the instructions alone. -/
theorem exists_overflowWithin_eq (hm : m.state = .running) (n : Nat) :
    ∃ k ≤ n, (1 ≤ n → 1 ≤ k) ∧ (∀ i < k, (m.after i).state = .running) ∧
      (m.after n).executed = m.executed + k ∧ overflowWithin n m = overflowWithin k m := by
  obtain ⟨k, hk⟩ := exists_eq_min n m.haltIndex
  have hwithin : (k : ℕ∞) ≤ n := hk ▸ min_le_left _ _
  have hkn : k ≤ n := by exact_mod_cast hwithin
  refine ⟨k, hkn, fun hpos => ?_, running_of_le_haltIndex hm (hk ▸ min_le_right _ _),
    executed_after_eq hm hk, ?_⟩
  · have hfirst : ((0 : ℕ) : ℕ∞) < m.haltIndex := (lt_haltIndex_iff m 0).mpr fun _ => HaltsAt.pos
    have hlt : ((0 : ℕ) : ℕ∞) < k := hk ▸ lt_min (by exact_mod_cast hpos) hfirst
    exact_mod_cast hlt
  · rcases min_choice (n : ℕ∞) m.haltIndex with h | h
    · have hall : k = n := by
        rw [h] at hk
        exact_mod_cast hk
      rw [hall]
    · have hstands : (m.after k).state = .halted :=
        (state_after_eq_halted_iff hm k).mpr (h ▸ hk).ge
      exact overflowWithin_eq_of_halted hkn hstands

variable [Observer σ]

/-! ## Bare steps -/

/-- Steps one after another, broken off where a counter overflows. -/
def trySteps : (n : Nat) → Machine β → σ → Except (Failure β σ) (Machine β × σ)
  | 0, m, o => .ok (m, o)
  | n + 1, m, o => do
    let turn ← m.tryStep o
    trySteps n turn.machine turn.observer

theorem comes_trySteps (n : Nat) (m : Machine β) (o : σ) :
    Comes (trySteps n m o) (overflowWithin n m) (m.steps n o) := by
  induction n generalizing m o with
  | zero => exact .ok _
  | succ n ih =>
    have hmachine : (m.step o).machine = m.next := (step_unwatched m o).2
    rw [overflowWithin, steps, hmachine]
    refine (comes_tryStep m o).bind ?_
    rw [hmachine]
    exact ih m.next (m.step o).observer

/-! ## One burst -/

/-- A burst breaks off in the first overflow of the steps that its budget pays for (`payable`). -/
theorem comes_spendBy (h : 1 ≤ m.cost ∨ m.budget ≤ 0) {bound : Nat}
    (hbound : payable m.cost m.budget ≤ bound) (o : σ) :
    Comes (spendBy tryStep bound m o) (overflowWithin (payable m.cost m.budget) m)
      (spend bound m o) := by
  have hpos := payable_pos m.cost m.budget
  generalize hn : payable m.cost m.budget = n at hbound hpos ⊢
  -- The induction is on the steps paid for, as in `spend_eq_steps`.
  induction n generalizing m bound o with
  | zero => omega
  | succ n ih =>
    obtain ⟨bound, rfl⟩ : ∃ k, bound = k + 1 := ⟨bound - 1, by omega⟩
    have hmachine : (m.step o).machine = m.next := (step_unwatched m o).2
    by_cases hlast : (m.step o).value.isNone ∨ (m.step o).machine.budget ≤ 0
    · have hone : overflowWithin (n + 1) m = m.overflow? := by
        rcases (step_last_iff m o).mp hlast with hhalted | hle
        · rw [overflowWithin_of_halted hhalted, overflow?_of_halted hhalted]
        · rw [payable_of_le hle] at hn
          obtain rfl : n = 0 := by omega
          exact overflowWithin_one m
      rw [hone, spend_succ, if_pos (by simpa using hlast), ← Option.or_none (o := m.overflow?)]
      refine (comes_tryStep m o).bind ?_
      rw [if_pos (by simpa using hlast)]
      exact .ok _
    · have hgoes := mt (step_last_iff m o).mpr hlast
      have hrunning : m.state = .running :=
        running_of_not_halted fun hhalted => hgoes (.inl hhalted)
      have hlt : m.cost < m.budget := not_le.mp fun hle => hgoes (.inr hle)
      have hc : 1 ≤ m.cost := by
        rcases h with h | h
        · exact h
        · omega
      have hnext : payable m.next.cost m.next.budget = n := by
        rw [cost_next, budget_next_of_running hrunning]
        rw [payable_of_lt hc hlt] at hn
        omega
      have hrest := ih (m := m.next) (.inl (by simpa using hc)) (m.step o).observer hnext
        (Nat.le_of_succ_le_succ hbound) (hnext ▸ payable_pos _ _)
      rw [overflowWithin, spend_succ, if_neg (by simpa using hlast), hmachine]
      refine (comes_tryStep m o).bind ?_
      rw [if_neg (by simpa using hlast), hmachine]
      exact hrest

theorem comes_tryRun {b : Int} (h : 1 ≤ m.cost ∨ b ≤ 0) (o : σ) :
    Comes (m.tryRun b o) (overflowWithin (payable m.cost b) (m.withBudget b)) (m.run b o) := by
  have hspend := comes_spendBy (m := m.withBudget b) h (payable_le_stepBound h) o
  exact hspend.bind_pure _

/-- Behind the first instruction a burst goes on while cycles are left, and these pay for the
    next one or are overdrawn by less than its cost. -/
theorem room_iff_of_le_payable {cost k : Nat} {b : Int} (hc : 1 ≤ cost) (hsize : cost < UInt32.size)
    (hpos : 1 ≤ k) (hk : k ≤ payable cost b) :
    minBudget ≤ b - k * cost ↔ minBudget ≤ b - cost := by
  have hsize' : (cost : Int) < UInt32.size := by exact_mod_cast hsize
  obtain ⟨j, rfl⟩ := Nat.exists_eq_add_of_le' hpos
  rcases Nat.eq_zero_or_pos j with rfl | hj
  · simp
  · have hleft := mul_lt_of_lt_payable hc hj hk
    have hpaid : (0 : Int) ≤ j * cost := by positivity
    have hsum : ((j + 1 : Nat) : Int) * cost = j * cost + cost := by
      push_cast
      ring
    rw [hsum]
    unfold minBudget UInt32.size at *
    omega

/-- The steps of a burst overflow nothing exactly if a running machine has room in the budget for
    the first instruction, and in the count for all that are executed. -/
theorem overflowWithin_payable_eq_none_iff (hc : 1 ≤ m.cost) (hsize : m.cost < UInt32.size)
    (b : Int) (o : σ) :
    overflowWithin (payable m.cost b) (m.withBudget b) = none ↔
      (m.state = .running →
        minBudget ≤ b - m.cost ∧ (m.run b o).machine.executed < UInt64.size) := by
  cases hm : m.state with
  | halted =>
    have hnone := overflowWithin_of_halted (m := m.withBudget b) hm (payable m.cost b)
    simp [hnone]
  | running =>
    obtain ⟨k, hpaid, hpos, hruns, hcount, hsteps⟩ :=
      exists_overflowWithin_eq (m := m.withBudget b) hm (payable m.cost b)
    have hone := hpos (payable_pos m.cost b)
    have hexecuted : (m.run b o).machine.executed = m.executed + k := by
      rw [run_eq_steps (.inl hc)]
      exact hcount
    rw [hsteps, overflowWithin_eq_none_iff_of_running hruns, hexecuted, budget_withBudget,
      cost_withBudget, executed_withBudget, room_iff_of_le_payable hc hsize hone hpaid,
      imp_iff_right rfl]
    exact or_iff_right (Nat.one_le_iff_ne_zero.mp hone)

/-- `tryRun` is carried out to its end exactly if a running machine has room in the budget for the
    first instruction, and in the count for all that are executed. Only there is the number that
    `run` returns the number of instructions. -/
theorem tryRun_eq_ok_iff (hc : 1 ≤ m.cost) (hsize : m.cost < UInt32.size) (b : Int) (o : σ)
    (t : Turn Nat β σ) :
    m.tryRun b o = .ok t ↔
      (m.state = .running →
        minBudget ≤ b - m.cost ∧ (m.run b o).machine.executed < UInt64.size) ∧
      t = m.run b o := by
  rw [(comes_tryRun (.inl hc) o).eq_ok_iff, overflowWithin_payable_eq_none_iff hc hsize b o]

/-! ## Bursts up to a limit -/

/-- A burst that `nextBudget` cuts short has room for its first instruction exactly if the whole
    burst has. -/
theorem room_nextBudget_iff {cost remaining : Nat} (hsize : cost < UInt32.size)
    (hr : remaining ≠ 0) (burst : Int) :
    minBudget ≤ nextBudget cost burst remaining - cost ↔ minBudget ≤ burst - cost := by
  have hsize' : (cost : Int) < UInt32.size := by exact_mod_cast hsize
  have hremaining : (1 : Int) ≤ min maxBudget remaining :=
    le_min (by decide) (by exact_mod_cast Nat.one_le_iff_ne_zero.mpr hr)
  have hcut : (0 : Int) ≤ min maxBudget (min maxBudget remaining * max cost 1) :=
    le_min (by decide) (by positivity)
  unfold nextBudget
  generalize min maxBudget (min maxBudget (remaining : Int) * (max cost 1 : Nat)) = limit at hcut ⊢
  unfold minBudget UInt32.size at *
  omega

theorem executed_le_bursts (burst : Int) {limit rounds executed : Nat}
    (h : 1 ≤ m.cost ∨ burst ≤ 0) (hrounds : limit - executed ≤ rounds) (o : σ) :
    m.executed ≤ (bursts burst limit rounds executed m o).machine.executed := by
  have hturn := congrArg (·.machine) (bursts_eq_steps h hrounds o).2
  rw [executed_eq_of_withBudget hturn]
  exact executed_le_after m (limit - executed)

/-- The next burst of a running machine executes at least one instruction. It breaks off with no
    overflow exactly if the whole burst has room for its first instruction, and the count for those
    that the next one executes. -/
theorem exists_comes_nextBurst (hm : m.state = .running) (hc : 1 ≤ m.cost)
    (hsize : m.cost < UInt32.size) {remaining : Nat} (hr : remaining ≠ 0) (burst : Int) (o : σ) :
    ∃ (k : Nat) (x : Int) (overflow : Option Overflow), 1 ≤ k ∧
      m.run (nextBudget m.cost burst remaining) o =
        { value := k, machine := (m.after k).withBudget x, observer := (m.steps k o).2 } ∧
      Comes (m.tryRun (nextBudget m.cost burst remaining) o) overflow
        (m.run (nextBudget m.cost burst remaining) o) ∧
      (overflow = none ↔
        minBudget ≤ burst - m.cost ∧ ((m.after k).withBudget x).executed < UInt64.size) := by
  obtain ⟨k, x, hpos, -, -, hrun⟩ :=
    exists_run_eq hm (.inl hc) (b := nextBudget m.cost burst remaining) o
  have hroom := overflowWithin_payable_eq_none_iff hc hsize (nextBudget m.cost burst remaining) o
  rw [imp_iff_right hm, room_nextBudget_iff hsize hr, hrun] at hroom
  exact ⟨k, x, _, hpos, hrun, comes_tryRun (.inl hc) o, hroom⟩

/-- One burst and those behind it have room exactly if there is room for a first instruction and
    for the count at the end, be that the count behind the one. -/
theorem or_eq_none_iff_of_room {first next : Option Overflow} {room goes : Prop} {count last : Nat}
    (hfirst : first = none ↔ room ∧ count < UInt64.size)
    (hnext : next = none ↔ (goes → room ∧ last < UInt64.size)) (hmono : count ≤ last)
    (hstops : ¬ goes → last = count) :
    first.or next = none ↔ room ∧ last < UInt64.size := by
  rw [Option.or_eq_none_iff, hfirst, hnext]
  constructor
  · rintro ⟨⟨hroom, hcount⟩, hlater⟩
    by_cases hgoes : goes
    · exact hlater hgoes
    · exact ⟨hroom, hstops hgoes ▸ hcount⟩
  · rintro ⟨hroom, hlast⟩
    exact ⟨⟨hroom, hmono.trans_lt hlast⟩, fun _ => ⟨hroom, hlast⟩⟩

/-- Bursts break off with no overflow exactly if there is room in the budget for the first
    instruction of a burst, and in the count for all instructions. The burst that is cut short asks
    for no more than the whole one (`room_nextBudget_iff`). -/
theorem exists_comes_burstsBy (burst : Int) (limit : Nat) (hc : 1 ≤ m.cost)
    (hsize : m.cost < UInt32.size) {rounds executed : Nat} (hrounds : limit - executed ≤ rounds)
    (o : σ) :
    ∃ overflow,
      Comes (burstsBy tryStep burst limit rounds executed m o) overflow
        (bursts burst limit rounds executed m o) ∧
      (overflow = none ↔
        (m.state = .running ∧ executed < limit → minBudget ≤ burst - m.cost ∧
          (bursts burst limit rounds executed m o).machine.executed < UInt64.size)) := by
  -- The induction is on the rounds; all bursts but the first begin with the same question.
  induction rounds generalizing executed m o with
  | zero =>
    refine ⟨none, .ok _, iff_of_true rfl fun goes => ?_⟩
    exact absurd goes.2 (by omega)
  | succ rounds ih =>
    by_cases hgoes : m.state = .running ∧ executed < limit
    · have hruns : (m.isRunning && decide (executed < limit)) = true := by simp [isRunning, hgoes]
      obtain ⟨k, x, first, hpos, hrun, hfirst, hroom⟩ :=
        exists_comes_nextBurst hgoes.1 hc hsize (Nat.sub_ne_zero_of_lt hgoes.2) burst o
      -- The bursts that follow start from the machine behind the first.
      generalize hl : (m.after k).withBudget x = l at hrun hroom
      have hcost : l.cost = m.cost := hl ▸ cost_after m k
      have hfewer : limit - (executed + k) ≤ rounds := by omega
      have hpaid : 1 ≤ l.cost := hcost.symm ▸ hc
      obtain ⟨next, hrest, hnext⟩ := ih hpaid (hcost.symm ▸ hsize) hfewer (m.steps k o).2
      have hmono := executed_le_bursts burst (.inl hpaid) hfewer (m.steps k o).2
      have hstops : ¬ (l.state = .running ∧ executed + k < limit) →
          (bursts burst limit rounds (executed + k) l (m.steps k o).2).machine.executed
            = l.executed :=
        fun stop => congrArg (·.machine.executed) (bursts_of_stop stop rounds (m.steps k o).2)
      rw [hcost] at hnext
      rw [hrun] at hfirst
      rw [burstsBy, bursts_succ, if_pos hruns, if_pos hruns, hrun]
      refine ⟨first.or next, hfirst.bind hrest, ?_⟩
      rw [imp_iff_right hgoes]
      exact or_eq_none_iff_of_room hroom hnext hmono hstops
    · rw [burstsBy, if_neg (by simpa [isRunning] using hgoes), bursts_of_stop hgoes]
      exact ⟨none, .ok _, iff_of_true rfl fun goes => absurd goes hgoes⟩

/-- `tryRunBursts` is carried out to its end exactly if a running machine has room in the budget for
    the first instruction of a burst, and in the count for all instructions, or nothing is to be
    executed. -/
theorem tryRunBursts_eq_ok_iff (hc : 1 ≤ m.cost) (hsize : m.cost < UInt32.size) (burst : Int)
    (limit : Nat) (o : σ) (t : Turn Nat β σ) :
    m.tryRunBursts burst limit o = .ok t ↔
      (m.state = .running ∧ 0 < limit → minBudget ≤ burst - m.cost ∧
        (m.runBursts burst limit o).machine.executed < UInt64.size) ∧
      t = m.runBursts burst limit o := by
  obtain ⟨overflow, hcomes, hnone⟩ :=
    exists_comes_burstsBy burst limit hc hsize (Nat.sub_le limit 0) o
  exact (hcomes.eq_ok_iff t).trans (and_congr_left fun _ => hnone)

/-! ## Whatever an instruction costs -/

theorem exists_comes_spendBy (bound : Nat) (m : Machine β) (o : σ) :
    ∃ overflow, Comes (spendBy tryStep bound m o) overflow (spend bound m o) := by
  induction bound generalizing m o with
  | zero => exact ⟨none, .ok _⟩
  | succ bound ih =>
    by_cases hlast : ((m.step o).value.isNone || (m.step o).machine.budget ≤ 0) = true
    · rw [spend_succ, if_pos hlast]
      refine ⟨m.overflow?.or none, (comes_tryStep m o).bind ?_⟩
      rw [if_pos hlast]
      exact .ok _
    · obtain ⟨next, hrest⟩ := ih (m.step o).machine (m.step o).observer
      rw [spend_succ, if_neg hlast]
      refine ⟨m.overflow?.or next, (comes_tryStep m o).bind ?_⟩
      rw [if_neg hlast]
      exact hrest

/-- What `tryRun` comes to, if it does not break off, is what `run` comes to. -/
theorem exists_comes_tryRun (m : Machine β) (budget : Int) (o : σ) :
    ∃ overflow, Comes (m.tryRun budget o) overflow (m.run budget o) := by
  obtain ⟨overflow, hspend⟩ := exists_comes_spendBy (stepBound m.cost budget) { m with budget } o
  exact ⟨overflow, hspend.bind_pure _⟩

theorem exists_comes_bursts (burst : Int) (limit rounds executed : Nat) (m : Machine β) (o : σ) :
    ∃ overflow, Comes (burstsBy tryStep burst limit rounds executed m o) overflow
      (bursts burst limit rounds executed m o) := by
  induction rounds generalizing executed m o with
  | zero => exact ⟨none, .ok _⟩
  | succ rounds ih =>
    rw [burstsBy, bursts_succ]
    split
    · obtain ⟨first, hfirst⟩ := exists_comes_tryRun m (nextBudget m.cost burst (limit - executed)) o
      obtain ⟨next, hrest⟩ := ih (executed + _) _ _
      exact ⟨_, hfirst.bind hrest⟩
    · exact ⟨none, .ok _⟩

/-- What `tryRunBursts` comes to, if it does not break off, is what `runBursts` comes to. -/
theorem exists_comes_tryRunBursts (m : Machine β) (burst : Int) (limit : Nat) (o : σ) :
    ∃ overflow, Comes (m.tryRunBursts burst limit o) overflow (m.runBursts burst limit o) :=
  exists_comes_bursts burst limit limit 0 m o

end Machine
end Kenbak1
