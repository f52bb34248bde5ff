/-
  Kenbak1.Proofs.Machine.Halt

  The step that halts. A running machine takes the same number of steps whether it is asked for `n`
  of them or for as many as there are up to its first halt (`haltIndex`), whichever is less; this
  number is what every count of executed instructions comes down to (`executed_after`).
-/
import Kenbak1.Proofs.Machine.Steps

namespace Kenbak1
namespace Machine

/-- A number lies before the first one with a property if it lies before each of them. -/
theorem lt_first_iff (p : Nat → Prop) (n : Nat) :
    (n : ℕ∞) < ⨅ (k : ℕ) (_ : p k), (k : ℕ∞) ↔ ∀ k, p k → n < k := by
  rw [← ENat.add_one_le_iff (ENat.natCast_ne_top n)]
  simp only [le_iInf_iff]
  refine forall₂_congr fun k _ => ?_
  norm_cast

variable {β σ : Type} [Bus β] [Observer σ]

/-- The `n`-th of the steps from a machine, counted from 1, executes a halt. -/
def HaltsAt (m : Machine β) (n : Nat) : Prop :=
  ∃ k i, n = k + 1 ∧ ((m.after k).step ()).value = some i ∧ i.operation = .halt

/-- The number of the first step that executes a halt, infinite if none does. -/
noncomputable def haltIndex (m : Machine β) : ℕ∞ :=
  ⨅ (n : ℕ) (_ : m.HaltsAt n), (n : ℕ∞)

theorem lt_haltIndex_iff (m : Machine β) (n : Nat) :
    (n : ℕ∞) < m.haltIndex ↔ ∀ k, m.HaltsAt k → n < k :=
  lt_first_iff m.HaltsAt n

theorem HaltsAt.pos {m : Machine β} {n : Nat} (h : m.HaltsAt n) : 0 < n := by
  obtain ⟨k, _, rfl, _⟩ := h
  exact Nat.succ_pos k

/-! ## The run state -/

theorem haltsAt_succ_iff {m : Machine β} {n : Nat} (h : (m.after n).state = .running) :
    m.HaltsAt (n + 1) ↔ (m.after n).executeNext.1.operation = .halt := by
  unfold HaltsAt
  constructor
  · rintro ⟨k, i, hk, hi, hhalt⟩
    cases hk
    rw [step_of_running h] at hi
    cases hi
    exact hhalt
  · intro hhalt
    exact ⟨n, _, rfl, by rw [step_of_running h], hhalt⟩

theorem state_after_succ (m : Machine β) (n : Nat) :
    (m.after (n + 1)).state = .running ↔
      (m.after n).state = .running ∧ ¬ m.HaltsAt (n + 1) := by
  rw [after_succ_eq_next]
  cases h : (m.after n).state with
  | halted => simp [next_of_halted h, h]
  | running => simp [state_next_of_running h, haltsAt_succ_iff h]

/-- A running machine runs until its first halt (`haltIndex`), and stands from then on. -/
theorem state_after_iff {m : Machine β} (hm : m.state = .running) (n : Nat) :
    (m.after n).state = .running ↔ (n : ℕ∞) < m.haltIndex := by
  rw [lt_haltIndex_iff]
  -- One step more keeps the machine running exactly if it is not itself a halt.
  induction n with
  | zero => exact ⟨fun _ _ => HaltsAt.pos, fun _ => hm⟩
  | succ n ih =>
    rw [state_after_succ, ih]
    constructor
    · rintro ⟨hbefore, hnot⟩ k hk
      have hlt := hbefore k hk
      have hne : k ≠ n + 1 := fun e => hnot (e ▸ hk)
      omega
    · intro hlater
      refine ⟨fun k hk => ?_, fun hk => absurd (hlater _ hk) (Nat.lt_irrefl _)⟩
      have hlt := hlater k hk
      omega

/-- Up to its first halt a running machine runs before every step. -/
theorem running_of_le_haltIndex {m : Machine β} (hm : m.state = .running) {k : Nat}
    (hk : (k : ℕ∞) ≤ m.haltIndex) : ∀ i < k, (m.after i).state = .running := by
  intro i hi
  have hlt : (i : ℕ∞) < k := by exact_mod_cast hi
  exact (state_after_iff hm i).mpr (hlt.trans_le hk)

theorem state_after_eq_halted_iff {m : Machine β} (hm : m.state = .running) (n : Nat) :
    (m.after n).state = .halted ↔ m.haltIndex ≤ n := by
  rw [← not_lt, ← state_after_iff hm]
  cases (m.after n).state <;> simp

/-! ## Counts -/

theorem min_succ_of_lt {n : Nat} {h : ℕ∞} (hlt : (n : ℕ∞) < h) :
    min ((n + 1 : ℕ) : ℕ∞) h = min (n : ℕ∞) h + 1 := by
  have hle : ((n + 1 : ℕ) : ℕ∞) ≤ h := by
    push_cast
    exact (ENat.add_one_le_iff (ENat.natCast_ne_top n)).mpr hlt
  rw [min_eq_left hle, min_eq_left hlt.le]
  push_cast
  rfl

theorem min_succ_of_le {n : Nat} {h : ℕ∞} (hle : h ≤ n) :
    min ((n + 1 : ℕ) : ℕ∞) h = min (n : ℕ∞) h := by
  have hle' : h ≤ ((n + 1 : ℕ) : ℕ∞) := hle.trans (by exact_mod_cast Nat.le_succ n)
  rw [min_eq_right hle', min_eq_right hle]

/-- Asked for `n` steps, a running machine executes `n` instructions or up to its first halt
    (`haltIndex`). -/
theorem executed_after {m : Machine β} (hm : m.state = .running) (n : Nat) :
    ((m.after n).executed : ℕ∞) = m.executed + min (n : ℕ∞) m.haltIndex := by
  induction n with
  | zero => simp
  | succ n ih =>
    rw [after_succ_eq_next]
    cases h : (m.after n).state with
    | running =>
      have hlt := (state_after_iff hm n).mp h
      rw [executed_next_of_running h, min_succ_of_lt hlt, ← add_assoc, ← ih]
      push_cast
      rfl
    | halted =>
      -- Behind the halt the count stays, and so does the lesser of the two numbers.
      have hle := (state_after_eq_halted_iff hm n).mp h
      rw [next_of_halted h, executed_withBudget, ih, min_succ_of_le hle]

theorem exists_eq_min (n : Nat) (h : ℕ∞) : ∃ k : Nat, (k : ℕ∞) = min (n : ℕ∞) h := by
  have hne : min (n : ℕ∞) h ≠ ⊤ := ne_top_of_le_ne_top (ENat.natCast_ne_top n) (min_le_left _ _)
  exact ENat.ne_top_iff_exists.mp hne

theorem executed_after_eq {m : Machine β} (hm : m.state = .running) {n k : Nat}
    (hk : (k : ℕ∞) = min (n : ℕ∞) m.haltIndex) : (m.after n).executed = m.executed + k := by
  have h := executed_after hm n
  rw [← hk] at h
  exact_mod_cast h

/-- Every step up to the first halt is paid for. -/
theorem budget_after_of_le {m : Machine β} (hm : m.state = .running) {n : Nat}
    (hn : (n : ℕ∞) ≤ m.haltIndex) : (m.after n).budget = m.budget - n * m.cost := by
  induction n with
  | zero => simp
  | succ n ih =>
    have hlt : (n : ℕ∞) < m.haltIndex := by
      refine lt_of_lt_of_le ?_ hn
      exact_mod_cast Nat.lt_succ_self n
    have hrunning := (state_after_iff hm n).mpr hlt
    rw [after_succ_eq_next, budget_next_of_running hrunning, ih hlt.le, cost_after]
    push_cast
    rw [Int.add_mul, Int.one_mul, Int.sub_sub]

/-- The first step behind a halt gives up the cycles left. -/
theorem budget_after_of_lt {m : Machine β} (hm : m.state = .running) {n : Nat}
    (hn : m.haltIndex < n) : (m.after n).budget = 0 := by
  cases n with
  | zero => exact absurd hn (by simp)
  | succ n =>
    have hle : m.haltIndex ≤ n :=
      (ENat.lt_add_one_iff (ENat.natCast_ne_top n)).mp (by exact_mod_cast hn)
    have hhalted := (state_after_eq_halted_iff hm n).mpr hle
    rw [after_succ_eq_next, next_of_halted hhalted, budget_withBudget]

/-- Behind the first halt nothing is said, and nothing changes but the cycles left. -/
theorem steps_eq_of_min {m : Machine β} (hm : m.state = .running) {n k : Nat}
    (hk : (k : ℕ∞) = min (n : ℕ∞) m.haltIndex) (o : σ) :
    (m.after n).withBudget 0 = (m.after k).withBudget 0 ∧
      (m.steps n o).2 = (m.steps k o).2 := by
  have hkn : k ≤ n := by
    have : (k : ℕ∞) ≤ n := hk ▸ min_le_left _ _
    exact_mod_cast this
  rcases min_choice (n : ℕ∞) m.haltIndex with h | h
  · have hsame : k = n := by
      rw [h] at hk
      exact_mod_cast hk
    rw [hsame]
    exact ⟨rfl, rfl⟩
  · have hle : m.haltIndex ≤ k := by rw [hk, h]
    exact steps_eq_of_halted ((state_after_eq_halted_iff hm k).mpr hle) hkn o

/-! ## Cycles left -/

theorem haltsAt_withBudget_iff (m : Machine β) (b : Int) (n : Nat) :
    (m.withBudget b).HaltsAt n ↔ m.HaltsAt n := by
  have hvalue : ∀ k, (((m.withBudget b).after k).step ()).value
      = ((m.after k).step ()).value := by
    intro k
    rw [eq_withBudget_of_eq (steps_withBudget m b k ()).1, step_withBudget]
  unfold HaltsAt
  simp only [hvalue]

/-- The cycles left do not decide when a machine halts. -/
@[simp] theorem haltIndex_withBudget (m : Machine β) (b : Int) :
    (m.withBudget b).haltIndex = m.haltIndex := by
  unfold haltIndex
  simp only [haltsAt_withBudget_iff]

end Machine
end Kenbak1
