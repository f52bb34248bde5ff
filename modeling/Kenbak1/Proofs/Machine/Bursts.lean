/-
  Kenbak1.Proofs.Machine.Bursts

  Bursts up to a limit. `nextBudget` cuts the last burst short so that it pays for no instruction
  behind the limit, saturating where 64 bits do not hold the product (`payable_nextBudget_le`); so
  bursts of every size come to the same steps, as many as the limit allows (`runBursts_eq_steps`).
  `Bursts` is the loop with no bound on the number of bursts.
-/
import Kenbak1.Proofs.Machine.Burst

namespace Kenbak1

/-- What an operation returned, with a number of cycles left. -/
def Turn.withBudget {α β σ : Type} (t : Turn α β σ) (budget : Int) : Turn α β σ :=
  { t with machine := t.machine.withBudget budget }

namespace Machine

variable {β σ : Type} [Bus β] [Observer σ]

/-! ## The loop -/

/-- Bursts up to a limit end with a turn, `executed` instructions having been executed before
    them: while the machine runs and the limit is not reached, one burst and then the rest. -/
inductive Bursts (burst : Int) (limit : Nat) : Nat → Machine β → σ → Turn Nat β σ → Prop
  | done {executed : Nat} {m : Machine β} {o : σ}
      (stop : ¬ (m.state = .running ∧ executed < limit)) :
      Bursts burst limit executed m o { value := executed, machine := m, observer := o }
  | burst {executed : Nat} {m m' : Machine β} {o o' : σ} {t : Turn Nat β σ}
      (goes : m.state = .running ∧ executed < limit)
      (first : Spends (m.withBudget (nextBudget m.cost burst (limit - executed))) o m' o')
      (rest : Bursts burst limit (executed + (m'.executed - m.executed)) m' o' t) :
      Bursts burst limit executed m o t

/-- Bursts end in one way at most. -/
theorem Bursts.unique {burst : Int} {limit executed : Nat} {m : Machine β} {o : σ}
    {t₁ t₂ : Turn Nat β σ} (h₁ : Bursts burst limit executed m o t₁)
    (h₂ : Bursts burst limit executed m o t₂) : t₁ = t₂ := by
  induction h₁ with
  | done stop =>
    cases h₂ with
    | done => rfl
    | burst goes => exact absurd goes stop
  | burst goes first _ ih =>
    cases h₂ with
    | done stop => exact absurd goes stop
    | burst _ first' rest =>
      obtain ⟨rfl, rfl⟩ := first.unique first'
      exact ih rest

theorem bursts_unwatched (burst : Int) (limit rounds executed : Nat) (m : Machine β) (o : σ) :
    (bursts burst limit rounds executed m o).value
        = (bursts burst limit rounds executed m ()).value ∧
      (bursts burst limit rounds executed m o).machine
        = (bursts burst limit rounds executed m ()).machine := by
  induction rounds generalizing executed m o with
  | zero => exact ⟨rfl, rfl⟩
  | succ rounds ih =>
    obtain ⟨hvalue, hmachine⟩ := run_unwatched m (nextBudget m.cost burst (limit - executed)) o
    rw [bursts_succ, bursts_succ]
    dsimp only
    rw [hvalue, hmachine]
    split
    · exact ih _ _ _
    · exact ⟨rfl, rfl⟩

/-! ## The budget of the next burst -/

theorem payable_le_of_le_mul {cost n : Nat} {budget : Int} (hn : 1 ≤ n)
    (h : budget ≤ n * cost) : payable cost budget ≤ n := by
  have hceil : ⌈(budget : ℚ) / cost⌉ ≤ n := by
    rw [Int.ceil_le]
    have hq : (budget : ℚ) ≤ n * cost := by exact_mod_cast h
    exact div_le_of_le_mul₀ (Nat.cast_nonneg cost) (by positivity) (by exact_mod_cast hq)
  unfold payable
  omega

/-- The `nextBudget` pays for no instruction behind the limit. -/
theorem payable_nextBudget_le (cost : Nat) (burst : Int) {remaining : Nat}
    (h : 1 ≤ remaining) : payable cost (nextBudget cost burst remaining) ≤ remaining := by
  -- Where an instruction costs nothing, a burst counts as paying for one.
  rcases Nat.eq_zero_or_pos cost with rfl | hc
  · simpa [payable] using h
  · refine payable_le_of_le_mul h ?_
    have hcut : nextBudget cost burst remaining ≤ min maxBudget remaining * max cost 1 :=
      (min_le_right _ _).trans (min_le_right _ _)
    rw [max_eq_left (by exact_mod_cast hc)] at hcut
    exact hcut.trans (Int.mul_le_mul_of_nonneg_right (min_le_right _ _) (Int.natCast_nonneg cost))

/-- The burst size decides only whether instructions that cost nothing come to an end. -/
theorem nextBudget_bounded {cost : Nat} {burst : Int} (h : 1 ≤ cost ∨ burst ≤ 0)
    (remaining : Nat) : 1 ≤ cost ∨ nextBudget cost burst remaining ≤ 0 :=
  h.imp_right (min_le_left _ _).trans

/-! ## Bursts as steps -/

/-- No burst follows where the machine stands or the limit is reached. -/
theorem bursts_of_stop {burst : Int} {limit executed : Nat} {m : Machine β}
    (stop : ¬ (m.state = .running ∧ executed < limit)) (rounds : Nat) (o : σ) :
    bursts burst limit rounds executed m o =
      { value := executed, machine := m, observer := o } := by
  cases rounds with
  | zero => rfl
  | succ rounds => rw [bursts_succ, if_neg (by simpa [isRunning] using stop)]

/-- `bursts` do what as many `steps` do as the limit has left, the cycles left apart. -/
theorem bursts_eq_steps {burst : Int} {limit rounds executed : Nat} {m : Machine β}
    (h : 1 ≤ m.cost ∨ burst ≤ 0) (hrounds : limit - executed ≤ rounds) (o : σ) :
    Bursts burst limit executed m o (bursts burst limit rounds executed m o) ∧
      (bursts burst limit rounds executed m o).withBudget 0 =
        { value := executed + ((m.after (limit - executed)).executed - m.executed)
          machine := (m.after (limit - executed)).withBudget 0
          observer := (m.steps (limit - executed) o).2 } := by
  -- The induction is on the rounds; a round executes at least one instruction.
  induction rounds generalizing executed m o with
  | zero =>
    have hzero : limit - executed = 0 := by omega
    rw [hzero]
    refine ⟨.done (by omega), ?_⟩
    rw [after_zero, steps, Nat.sub_self, Nat.add_zero]
    rfl
  | succ rounds ih =>
    by_cases hgoes : m.state = .running ∧ executed < limit
    · obtain ⟨hm, hlt⟩ := hgoes
      have hb := nextBudget_bounded h (limit - executed)
      have hleft : 1 ≤ limit - executed := by omega
      have hpaid := payable_nextBudget_le m.cost burst hleft
      obtain ⟨k, x, hpos, hpayable, hexecuted, hrun⟩ := exists_run_eq hm hb o
      have hfirst := spends_run hb o
      rw [hrun] at hfirst
      have hfewer : limit - (executed + k) ≤ rounds := by omega
      obtain ⟨hrest, hturn⟩ := ih (m := (m.after k).withBudget x) (by simpa using h) hfewer
        (m.steps k o).2
      have hloop : bursts burst limit (rounds + 1) executed m o
          = bursts burst limit rounds (executed + k) ((m.after k).withBudget x)
              (m.steps k o).2 := by
        rw [bursts_succ, if_pos (by simp [isRunning, hm, hlt]), hrun]
      rw [hloop]
      constructor
      · refine .burst ⟨hm, hlt⟩ hfirst ?_
        rw [executed_withBudget, hexecuted, Nat.add_sub_cancel_left]
        exact hrest
      · -- The rest begins with the cycles that the burst has left, which decide nothing.
        have hkn : k ≤ limit - executed := hpayable.trans hpaid
        obtain ⟨hmachine, hobserver⟩ := steps_resume m x hkn o
        rw [Nat.sub_sub] at hmachine hobserver
        have hcount := executed_eq_of_withBudget hmachine
        have hmono := executed_le_after (m.after k) (limit - executed - k)
        rw [← after_add, Nat.add_sub_cancel' hkn, hexecuted] at hmono
        rw [hturn, hmachine, hobserver, hcount, executed_withBudget, hexecuted]
        congr 1
        omega
    · rw [bursts_of_stop hgoes]
      refine ⟨.done hgoes, ?_⟩
      cases hs : m.state with
      | running =>
        have hreached : ¬ executed < limit := fun hlt => hgoes ⟨hs, hlt⟩
        have hzero : limit - executed = 0 := by omega
        rw [hzero]
        simp [steps, Turn.withBudget]
      | halted =>
        obtain ⟨hmachine, hobserver⟩ := steps_quiet_of_halted hs (limit - executed) o
        have hcount := executed_eq_of_withBudget hmachine
        rw [hmachine, hobserver, hcount, Nat.sub_self]
        rfl

/-! ## Exactness -/

/-- `runBursts` comes to the `steps` up to the limit, the cycles left apart. -/
theorem runBursts_eq_steps {m : Machine β} (burst : Int) (h : 1 ≤ m.cost ∨ burst ≤ 0)
    (limit : Nat) (o : σ) :
    (m.runBursts burst limit o).withBudget 0 =
      { value := (m.after limit).executed - m.executed
        machine := (m.after limit).withBudget 0
        observer := (m.steps limit o).2 } := by
  have hturn := (bursts_eq_steps h (Nat.sub_le limit 0) o).2
  rw [Nat.sub_zero, Nat.zero_add] at hturn
  exact hturn

theorem bursts_runBursts {m : Machine β} (burst : Int) (h : 1 ≤ m.cost ∨ burst ≤ 0)
    (limit : Nat) (o : σ) : Bursts burst limit 0 m o (m.runBursts burst limit o) :=
  (bursts_eq_steps h (Nat.sub_le limit 0) o).1

theorem runBursts_idle {m : Machine β} {limit : Nat} (h : m.state = .halted ∨ limit = 0)
    (burst : Int) (o : σ) :
    m.runBursts burst limit o = { value := 0, machine := m, observer := o } := by
  refine bursts_of_stop (fun goes => ?_) limit o
  rcases h with hm | hlimit
  · rw [hm] at goes
    cases goes.1
  · exact absurd goes.2 (by omega)

/-- The number of instructions that a running machine executes up to a limit. -/
theorem value_runBursts {m : Machine β} (burst : Int) (h : 1 ≤ m.cost ∨ burst ≤ 0)
    (hm : m.state = .running) (limit : Nat) (o : σ) :
    ((m.runBursts burst limit o).value : ℕ∞) = min (limit : ℕ∞) m.haltIndex := by
  obtain ⟨k, hk⟩ := exists_eq_min limit m.haltIndex
  have hvalue := congrArg Turn.value (runBursts_eq_steps burst h limit o)
  have hcount : (m.after limit).executed = m.executed + k := executed_after_eq hm hk
  rw [hcount, Nat.add_sub_cancel_left] at hvalue
  rw [← hk]
  exact_mod_cast hvalue

/-- Bursts up to a limit are exact, whatever their size. They end (`Bursts`); a machine that stands,
    or a limit of zero, leaves all as it is; a running machine executes as many instructions as the
    limit allows, up to its first halt (`haltIndex`). They leave what that many bare `steps` leave
    and say what these say, and what bursts of any other size, the largest one (`runLimited`)
    included, leave and say: only the cycles left differ. -/
theorem runBursts_exact (m : Machine β) (o : σ) (limit : Nat) (b₁ b₂ : Int) (hc : 1 ≤ m.cost) :
    Bursts b₁ limit 0 m o (m.runBursts b₁ limit o) ∧
    (m.state = .halted ∨ limit = 0 →
      m.runBursts b₁ limit o = { value := 0, machine := m, observer := o }) ∧
    (m.state = .running →
      ((m.runBursts b₁ limit o).value : ℕ∞) = min (limit : ℕ∞) m.haltIndex) ∧
    (∃ k : Nat, (m.runBursts b₁ limit o).withBudget 0 =
      { value := k
        machine := (m.steps k o).1.withBudget 0
        observer := (m.steps k o).2 }) ∧
    (m.runBursts b₁ limit o).withBudget 0 = (m.runBursts b₂ limit o).withBudget 0 ∧
    (m.runBursts b₁ limit o).withBudget 0 = (m.runLimited limit o).withBudget 0 := by
  -- The steps up to the limit do not mention the burst size.
  have hsteps := fun b => runBursts_eq_steps (m := m) b (.inl hc) limit o
  refine ⟨bursts_runBursts b₁ (.inl hc) limit o, fun h => runBursts_idle h b₁ o,
    fun hm => value_runBursts b₁ (.inl hc) hm limit o, ⟨(m.runBursts b₁ limit o).value, ?_⟩, ?_, ?_⟩
  · cases hm : m.state with
    | halted => rw [runBursts_idle (.inl hm)]; rfl
    | running =>
      have hvalue := value_runBursts b₁ (.inl hc) hm limit o
      obtain ⟨hmachine, hobserver⟩ := steps_eq_of_min hm hvalue o
      have hcount := executed_after_eq hm hvalue
      rw [hsteps b₁, hcount, Nat.add_sub_cancel_left, fst_steps, hmachine, hobserver]
  · rw [hsteps b₁, hsteps b₂]
  · rw [runLimited, hsteps b₁, hsteps maxBudget]

/-- Bursts of 3000 cycles and of none, for ten instructions of a program that jumps to
    itself. -/
theorem runBursts_exact_endless_jump :
    let m : Machine Memory :=
      { Machine.fresh with
        bank := { p := 4 }, bus := (Memory.zero.write 4 0o344).write 5 4, cost := 1000 }
    1 ≤ m.cost ∧ Bursts 3000 10 0 m () (m.runBursts 3000 10 ()) ∧
      (m.runBursts 3000 10 ()).withBudget 0 = (m.runBursts 0 10 ()).withBudget 0 := by
  intro m
  obtain ⟨hends, -, -, -, hsame, -⟩ := runBursts_exact m () 10 3000 0 (by decide)
  exact ⟨by decide, hends, hsame⟩

end Machine
end Kenbak1
