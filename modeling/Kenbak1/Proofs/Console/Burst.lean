/-
  Kenbak1.Proofs.Console.Burst

  Breakpoints and bursts. A `tick` with breakpoints counts in a loop of its own (`Spends`,
  `guarded`), a tick without them leaves the counting to `Machine.run`. Both execute the same
  instructions:

    * `guarded_free` — no breakpoint is met in time (`breakIndex`), and the loop ends as the burst
      of `tick_empty` does.
    * `guarded_held` — one is met, and the machine is stopped there.

  The counters are not treated alike. The burst sets the budget and the loop takes from what is left
  of it, so `tryTick_eq_ok_iff_of_breakpoints` asks for room that `tryTick_eq_ok_iff_of_isEmpty`
  does not.
-/
import Kenbak1.Proofs.Console.Overflow

namespace Kenbak1

/-! ## Bare steps of a panel -/

namespace FrontPanel

variable {β : Type} [Bus β] (panel : FrontPanel β)

/-- The panel after a number of single steps. -/
def stepMany (n : Nat) : FrontPanel β :=
  (fun panel => panel.step.2)^[n] panel

theorem stepMany_succ (n : Nat) : panel.stepMany (n + 1) = panel.step.2.stepMany n := rfl

/-- The steps of a panel are the `steps` of its machine, watched by its lamps. -/
theorem stepMany_eq (n : Nat) :
    panel.stepMany n =
      { machine := panel.machine.after n, lamps := (panel.machine.steps n panel.lamps).2 } := by
  induction n generalizing panel with
  | zero => rfl
  | succ n ih =>
    rw [stepMany_succ, ih, machine_step, Machine.after_succ, Machine.steps,
      (Machine.step_unwatched panel.machine panel.lamps).2]
    rfl

@[simp] theorem machine_stepMany (n : Nat) :
    (panel.stepMany n).machine = panel.machine.after n := by
  rw [stepMany_eq]

end FrontPanel

namespace Console

variable (c : Console)

/-- The machine stands before a breakpoint after `i` instructions; the one that it was started
    on does not count. -/
def BreaksAt (i : Nat) : Prop :=
  c.breakpoints.contains (c.panel.machine.after i).bank.p ∧ ¬ (i = 0 ∧ c.resuming = true)

/-- The number of instructions before the first breakpoint, infinite if none is met. -/
noncomputable def breakIndex : ℕ∞ :=
  ⨅ (i : ℕ) (_ : c.BreaksAt i), (i : ℕ∞)

/-- The console with a number of cycles left. -/
def withBudget (budget : Int) : Console :=
  { c with panel := { c.panel with machine := c.panel.machine.withBudget budget } }

variable {c}

theorem lt_breakIndex_iff (n : Nat) :
    (n : ℕ∞) < c.breakIndex ↔ ∀ i, c.BreaksAt i → n < i :=
  Machine.lt_first_iff c.BreaksAt n

/-- The first breakpoint is a breakpoint, and there is none before it. -/
theorem eq_breakIndex_iff (j : Nat) :
    (j : ℕ∞) = c.breakIndex ↔ c.BreaksAt j ∧ ∀ i < j, ¬ c.BreaksAt i := by
  constructor
  · intro h
    have hbefore : ∀ i < j, ¬ c.BreaksAt i := by
      intro i hi hbreak
      have hlt : (i : ℕ∞) < c.breakIndex := h ▸ by exact_mod_cast hi
      exact absurd ((lt_breakIndex_iff i).mp hlt i hbreak) (Nat.lt_irrefl i)
    refine ⟨by_contra fun hnone => ?_, hbefore⟩
    -- Otherwise the first breakpoint lies behind `j`.
    have hlater : (j : ℕ∞) < c.breakIndex := by
      refine (lt_breakIndex_iff j).mpr fun k hk => ?_
      by_contra hle
      rcases Nat.lt_or_eq_of_le (Nat.le_of_not_lt hle) with hlt | rfl
      · exact hbefore k hlt hk
      · exact hnone hk
    exact absurd h hlater.ne
  · rintro ⟨hbreak, hbefore⟩
    refine le_antisymm ?_ (not_lt.mp fun hlt => ?_)
    · refine le_iInf₂ fun i hi => ?_
      exact_mod_cast Nat.le_of_not_lt fun hlt => hbefore i hlt hi
    · exact Nat.lt_irrefl j ((lt_breakIndex_iff j).mp hlt j hbreak)

/-! ## The loop -/

theorem guarded_of_halted (h : c.panel.machine.state = .halted) (rounds : Nat)
    (resuming : Bool) : guarded rounds resuming c = c.settle := by
  cases rounds with
  | zero => rfl
  | succ rounds => simp [guarded, Machine.isHalted, h]

/-- Rounds of `guarded` in which the machine runs and meets no breakpoint are bare steps. -/
theorem guarded_add {k : Nat} (resuming : Bool)
    (hruns : ∀ i < k, (c.panel.machine.after i).state = .running)
    (hpasses : ∀ i < k, c.breakpoints.contains (c.panel.machine.after i).bank.p →
      i = 0 ∧ resuming = true) (rounds : Nat) :
    guarded (k + rounds) resuming c
      = guarded rounds (resuming && k = 0) { c with panel := c.panel.stepMany k } := by
  -- The induction is on the bare steps; the first of them alone may be excused.
  induction k generalizing c resuming with
  | zero =>
    rw [Nat.zero_add, decide_eq_true rfl, Bool.and_true]
    rfl
  | succ k ih =>
    have hm : c.panel.machine.state = .running := hruns 0 k.succ_pos
    have hfirst : (c.breakpoints.contains c.panel.machine.bank.p && !resuming) = false := by
      by_contra hheld
      simp only [Bool.not_eq_false, Bool.and_eq_true, Bool.not_eq_true'] at hheld
      have hexcused := (hpasses 0 k.succ_pos hheld.1).2
      rw [hheld.2] at hexcused
      cases hexcused
    have hloop : guarded (k + 1 + rounds) resuming c
        = guarded (k + rounds) false { c with panel := c.panel.step.2 } := by
      rw [Nat.add_right_comm, guarded]
      simp [Machine.isHalted, hm, hfirst]
    have hrest := ih (c := { c with panel := c.panel.step.2 }) false
      (fun i hi => by
        have h := hruns (i + 1) (Nat.succ_lt_succ hi)
        rwa [Machine.after_succ, ← FrontPanel.machine_step] at h)
      (fun i hi hbreak => by
        rw [FrontPanel.machine_step, ← Machine.after_succ] at hbreak
        exact absurd (hpasses (i + 1) (Nat.succ_lt_succ hi) hbreak).1 i.succ_ne_zero)
    rw [hloop, hrest, Bool.false_and, decide_eq_false k.succ_ne_zero, Bool.and_false]
    rfl

/-! ## The rounds of a tick -/

/-- `burstRounds` are as many as the budget pays for. -/
theorem burstRounds_eq {cost : Nat} (hc : 1 ≤ cost) (burst : Int) :
    burstRounds cost burst = ⌈(burst : ℚ) / cost⌉.toNat := by
  have hcost : max (cost : Int) 1 = cost := max_eq_left (by exact_mod_cast hc)
  rw [Machine.ceil_div_eq hc, burstRounds]
  push_cast
  rw [hcost]

theorem payable_eq {cost : Nat} (hc : 1 ≤ cost) {burst : Int} (hb : 1 ≤ burst) :
    Machine.payable cost burst = ⌈(burst : ℚ) / cost⌉.toNat := by
  have hceil : 1 ≤ ⌈(burst : ℚ) / cost⌉ := by
    rw [Int.one_le_ceil_iff]
    have hburst : (0 : ℚ) < burst := by exact_mod_cast hb
    have hcost : (0 : ℚ) < cost := by exact_mod_cast hc
    exact div_pos hburst hcost
  unfold Machine.payable
  omega

/-! ## With and without breakpoints -/

/-- Up to the first halt and the first breakpoint the rounds are bare steps. -/
theorem guarded_of_le {k : Nat} (hm : c.panel.machine.state = .running)
    (hhalt : k ≤ c.panel.machine.haltIndex) (hbreak : k ≤ c.breakIndex) (rounds : Nat) :
    guarded (k + rounds) c.resuming c
      = guarded rounds (c.resuming && k = 0) { c with panel := c.panel.stepMany k } := by
  refine guarded_add c.resuming (Machine.running_of_le_haltIndex hm hhalt) ?_ rounds
  intro i hi hcontains
  by_contra hother
  have hlt : (i : ℕ∞) < c.breakIndex := lt_of_lt_of_le (by exact_mod_cast hi) hbreak
  exact Nat.lt_irrefl i ((lt_breakIndex_iff i).mp hlt i ⟨hcontains, hother⟩)

/-- The loop meets no breakpoint in time: it ends with the cycles or at the first halt. -/
theorem guarded_free {k n : Nat} (hm : c.panel.machine.state = .running)
    (hk : (k : ℕ∞) = min (n : ℕ∞) c.panel.machine.haltIndex) (hbreak : k ≤ c.breakIndex) :
    guarded n c.resuming c = ({ c with panel := c.panel.stepMany k } : Console).settle := by
  have hwithin : k ≤ n := by
    have h : (k : ℕ∞) ≤ n := hk ▸ min_le_left _ _
    exact_mod_cast h
  obtain ⟨rest, rfl⟩ := Nat.exists_eq_add_of_le hwithin
  rw [guarded_of_le hm (hk ▸ min_le_right _ _) hbreak]
  -- Either no round is left, or the machine stands.
  rcases min_choice ((k + rest : ℕ) : ℕ∞) c.panel.machine.haltIndex with h | h
  · have hall : k = k + rest := by
      rw [h] at hk
      exact_mod_cast hk
    obtain rfl : rest = 0 := by omega
    rfl
  · have hhalted : (c.panel.machine.after k).state = .halted :=
      (Machine.state_after_eq_halted_iff hm k).mpr (h ▸ hk).ge
    exact guarded_of_halted (by rw [FrontPanel.machine_stepMany]; exact hhalted) rest _

/-- The loop meets a breakpoint in time: the machine is stopped there. -/
theorem guarded_held {j n : Nat} (hm : c.panel.machine.state = .running)
    (hj : (j : ℕ∞) = c.breakIndex) (hlt : (j : ℕ∞) < min (n : ℕ∞) c.panel.machine.haltIndex) :
    guarded n c.resuming c =
      { c with
        panel := (c.panel.stepMany j).press .stop
        status := .stoppedAt (c.panel.machine.after j).bank.p
        resuming := false } := by
  obtain ⟨hpaid, hhalt⟩ := lt_min_iff.mp hlt
  obtain ⟨⟨hcontains, hother⟩, -⟩ := (eq_breakIndex_iff j).mp hj
  obtain ⟨rest, rfl⟩ : ∃ rest, n = j + (rest + 1) := by
    have hn : j < n := by exact_mod_cast hpaid
    exact ⟨n - j - 1, by omega⟩
  have hruns := (Machine.state_after_iff hm j).mpr hhalt
  have hheld : (c.resuming && decide (j = 0)) = false := by
    by_contra hnot
    simp only [Bool.not_eq_false, Bool.and_eq_true, decide_eq_true_eq] at hnot
    exact hother ⟨hnot.2, hnot.1⟩
  rw [guarded_of_le hm hhalt.le hj.le, guarded]
  simp [Machine.isHalted, hruns, hcontains, hheld]

/-- A tick without breakpoints, in terms of bare steps. -/
theorem tick_empty {k : Nat} (hm : c.panel.machine.state = .running)
    (hc : 1 ≤ c.panel.machine.cost) (hempty : c.breakpoints.isEmpty)
    (hk : (k : ℕ∞) = min (Machine.payable c.panel.machine.cost c.config.burstCycles.toInt : ℕ∞)
      c.panel.machine.haltIndex) :
    c.tick.withBudget 0
      = ({ c with panel := c.panel.stepMany k } : Console).settle.withBudget 0 := by
  have hrun := Machine.run_of_running hm (.inl hc) hk c.panel.lamps
  have htick : c.tick
      = ({ c with panel := (c.panel.runBurst c.config.burstCycles.toInt).2 } : Console).settle := by
    simp [tick_eq, Machine.isHalted, hm, hempty]
  rw [htick, FrontPanel.runBurst, FrontPanel.ofTurn, hrun, FrontPanel.stepMany_eq]
  rfl

/-- The loop `Spends` of a tick ends, and with what the tick leaves. -/
theorem spends_tick_iff (hm : c.panel.machine.state = .running)
    (hset : ¬ c.breakpoints.isEmpty) (hc : 1 ≤ c.panel.machine.cost) (d : Console) :
    Spends c.panel.machine.cost c.config.burstCycles.toInt c.resuming c d ↔ d = c.tick := by
  have hloop := (spend_eq_guarded c.panel.machine.cost
    (Nat.le_refl (burstRounds c.panel.machine.cost c.config.burstCycles.toInt)) c.resuming c).2
  rw [← tick_of_breakpoints hm hset, max_eq_left hc] at hloop
  exact ⟨fun h => h.unique hloop, fun h => h ▸ hloop⟩

/-- Past breakpoints `tryTick` needs room in the budget for the cost of all instructions that the
    tick executes, and in their count. -/
theorem tryTick_eq_ok_iff_of_breakpoints (hset : ¬ c.breakpoints.isEmpty) (d : Console) :
    c.tryTick = .ok d ↔
      (let k := c.tick.panel.machine.executed - c.panel.machine.executed
       k = 0 ∨ Machine.minBudget ≤ c.panel.machine.budget - k * c.panel.machine.cost ∧
        c.panel.machine.executed + k < UInt64.size) ∧
      d = c.tick := by
  obtain ⟨k, hreaches, hcomes⟩ := exists_comes_tryTick_of_breakpoints hset
  have hcount : c.tick.panel.machine.executed - c.panel.machine.executed = k := by
    rw [hreaches.executed, Nat.add_sub_cancel_left]
  rw [hcomes.eq_ok_iff, Machine.overflowWithin_eq_none_iff_of_running hreaches.runs, hcount]

/-- Without breakpoints the burst of `tryTick` sets the budget anew, and it needs room in the count
    alone. -/
theorem tryTick_eq_ok_iff_of_isEmpty (hm : c.panel.machine.state = .running)
    (hc : 1 ≤ c.panel.machine.cost) (hsize : c.panel.machine.cost < UInt32.size)
    (hb : 1 ≤ c.config.burstCycles.toInt) (hempty : c.breakpoints.isEmpty) (d : Console) :
    c.tryTick = .ok d ↔ c.tick.panel.machine.executed < UInt64.size ∧ d = c.tick := by
  have hroom : Machine.minBudget ≤ c.config.burstCycles.toInt - c.panel.machine.cost := by
    have hsize' : (c.panel.machine.cost : Int) < UInt32.size := by exact_mod_cast hsize
    unfold Machine.minBudget UInt32.size at *
    omega
  have htick : c.tick.panel.machine =
      (c.panel.machine.run c.config.burstCycles.toInt c.panel.lamps).machine := by
    rw [tick_eq, Machine.isHalted_of_running hm, if_neg Bool.false_ne_true, if_pos hempty]
    rfl
  rw [(comes_tryTick_of_isEmpty hm hc hempty).eq_ok_iff,
    Machine.overflowWithin_payable_eq_none_iff hc hsize _ c.panel.lamps, imp_iff_right hm, ← htick]
  exact and_congr_left fun _ => and_iff_right hroom

/-- Ticks with breakpoints and without them are the same burst. Up to the number of instructions
    that the budget pays for, or to the first halt (`haltIndex`), a `tick` that meets no breakpoint
    (`breakIndex`) leaves what a tick without breakpoints leaves; only the cycles left differ. A
    tick that meets one before has executed the instructions up to it, as bare steps (`stepMany`),
    and stopped the machine there. The loop `Spends` over a budget of its own ends with this tick
    and with no other.

    In counters of 64 bits, `tryTick` comes to `tick` exactly if there is room. Without breakpoints
    the burst sets the budget, and only the count of instructions can overflow. With breakpoints
    nothing sets it, and the cost of the instructions that the tick executes has to fit into what
    earlier ticks and steps have left. -/
theorem tick_past_breakpoints (c : Console) (hm : c.panel.machine.state = .running)
    (hc : 1 ≤ c.panel.machine.cost) (hb : 1 ≤ c.config.burstCycles.toInt) :
    let paid : Nat := ⌈(c.config.burstCycles.toInt : ℚ) / c.panel.machine.cost⌉.toNat
    (min (paid : ℕ∞) c.panel.machine.haltIndex ≤ c.breakIndex →
      c.tick.withBudget 0 =
        { ({ c with breakpoints := .empty } : Console).tick.withBudget 0 with
          breakpoints := c.breakpoints }) ∧
    (∀ j : Nat, (j : ℕ∞) = c.breakIndex →
      (j : ℕ∞) < min (paid : ℕ∞) c.panel.machine.haltIndex →
      c.panel.machine.Executes c.tick.panel.machine j ∧
      c.breakpoints.contains (c.panel.machine.after j).bank.p ∧
      c.tick =
        { c with
          panel := (c.panel.stepMany j).press .stop
          status := .stoppedAt (c.panel.machine.after j).bank.p
          resuming := false }) ∧
    (¬ c.breakpoints.isEmpty → ∀ d : Console,
      (Spends c.panel.machine.cost c.config.burstCycles.toInt c.resuming c d ↔ d = c.tick) ∧
      (c.tryTick = .ok d ↔
        (let k := c.tick.panel.machine.executed - c.panel.machine.executed
         k = 0 ∨ Machine.minBudget ≤ c.panel.machine.budget - k * c.panel.machine.cost ∧
          c.panel.machine.executed + k < UInt64.size) ∧
        d = c.tick)) ∧
    (c.breakpoints.isEmpty → c.panel.machine.cost < UInt32.size → ∀ d : Console,
      c.tryTick = .ok d ↔ c.tick.panel.machine.executed < UInt64.size ∧ d = c.tick) := by
  intro paid
  have hrounds : burstRounds c.panel.machine.cost c.config.burstCycles.toInt = paid :=
    burstRounds_eq hc _
  have hpayable : Machine.payable c.panel.machine.cost c.config.burstCycles.toInt = paid :=
    payable_eq hc hb
  -- With a breakpoint set, the tick is the loop of the console.
  have hloop : ¬ c.breakpoints.isEmpty → c.tick = guarded paid c.resuming c := by
    intro hset
    rw [tick_of_breakpoints hm hset, hrounds]
  refine ⟨?_, ?_, fun hset d => ?_, fun hempty hsize d => ?_⟩
  · intro hbreak
    obtain ⟨k, hk⟩ := Machine.exists_eq_min paid c.panel.machine.haltIndex
    rw [tick_empty (c := { c with breakpoints := .empty }) hm hc rfl (hpayable ▸ hk)]
    by_cases hempty : c.breakpoints.isEmpty
    · rw [tick_empty hm hc hempty (hpayable ▸ hk)]
      rfl
    · rw [hloop hempty, guarded_free hm hk (hk ▸ hbreak)]
      rfl
  · intro j hj hlt
    have hcontains := ((eq_breakIndex_iff j).mp hj).1.1
    have hset : ¬ c.breakpoints.isEmpty := by
      intro hempty
      rw [c.breakpoints.contains_of_isEmpty hempty] at hcontains
      cases hcontains
    have htick := (hloop hset).trans (guarded_held hm hj hlt)
    have hexecutes : c.panel.machine.Executes (c.panel.stepMany j).machine j := by
      have hruns := Machine.running_of_le_haltIndex hm (lt_min_iff.mp hlt).2.le
      rw [FrontPanel.machine_stepMany]
      exact .of_after hruns _
    refine ⟨?_, hcontains, htick⟩
    rw [htick]
    exact hexecutes.of_view rfl rfl rfl
  · exact ⟨spends_tick_iff hm hset hc d, tryTick_eq_ok_iff_of_breakpoints hset d⟩
  · exact tryTick_eq_ok_iff_of_isEmpty hm hc hsize hb hempty d

/-- A program that jumps to itself, resumed on the breakpoint under P: the tick executes the
    jump once and stops. -/
theorem tick_past_breakpoints_self_jump :
    let c : Console :=
      { panel :=
          { machine :=
              { Machine.fresh with
                bank := { p := 4 }, bus := (Memory.zero.write 4 0o344).write 5 4 }
            lamps := {} }
        program := {}, config := {}, breakpoints := Breakpoints.empty.insert 4, resuming := true }
    c.panel.machine.state = .running ∧ 1 ≤ c.panel.machine.cost ∧
      1 ≤ c.config.burstCycles.toInt ∧ ((1 : ℕ) : ℕ∞) = c.breakIndex ∧
      c.panel.machine.Executes c.tick.panel.machine 1 ∧ c.tick.status = .stoppedAt 4 := by
  intro c
  have hb : 1 ≤ c.config.burstCycles.toInt := by decide
  have hj : ((1 : ℕ) : ℕ∞) = c.breakIndex := by
    refine (eq_breakIndex_iff 1).mpr ⟨⟨by decide +kernel, by decide⟩, fun i hi hbreak => ?_⟩
    obtain rfl : i = 0 := by omega
    exact hbreak.2 ⟨rfl, rfl⟩
  have hhalt : ((1 : ℕ) : ℕ∞) < c.panel.machine.haltIndex :=
    (Machine.state_after_iff rfl 1).mp (by decide +kernel)
  have hpaid : 1 < ⌈(c.config.burstCycles.toInt : ℚ) / c.panel.machine.cost⌉.toNat := by
    rw [Machine.ceil_div_eq (by decide)]
    decide
  obtain ⟨hexecutes, -, htick⟩ := (tick_past_breakpoints c rfl (by decide) hb).2.1 1 hj
    (lt_min (by exact_mod_cast hpaid) hhalt)
  refine ⟨rfl, by decide, hb, hj, hexecutes, ?_⟩
  rw [htick]
  decide +kernel

/-- A burst that is overdrawn from the start leaves a budget that has no room for the next
    instruction. A `tryTick` that meets no breakpoint takes this instruction and breaks off; without
    the breakpoint it sets the budget anew and ends. -/
theorem tick_breaks_off_past_breakpoint :
    let started := (new { cells := [(0o004, 0o344), (0o005, 0o004)] }
      { cyclesPerInstruction := 0xffffffff, burstCycles := 1 }).press .start
    let c : Console :=
      { started with
        panel := (started.panel.runBurst (-9223372030412324865)).2
        breakpoints := Breakpoints.empty.insert 0o010 }
    let paid : Nat := ⌈(c.config.burstCycles.toInt : ℚ) / c.panel.machine.cost⌉.toNat
    c.panel.machine.state = .running ∧ 1 ≤ c.panel.machine.cost ∧
      1 ≤ c.config.burstCycles.toInt ∧
      min (paid : ℕ∞) c.panel.machine.haltIndex ≤ c.breakIndex ∧
      (∃ failure, c.tryTick = .error failure ∧ failure.overflow = .budget) ∧
      ∃ d, ({ c with breakpoints := .empty } : Console).tryTick = .ok d := by
  intro started c paid
  have hm : c.panel.machine.state = .running := by decide +kernel
  have hcost : c.panel.machine.cost = 0xffffffff := by decide +kernel
  -- The burst of the tick pays for the one instruction that overflows.
  have hone : paid = 1 := by
    show ⌈(c.config.burstCycles.toInt : ℚ) / c.panel.machine.cost⌉.toNat = 1
    rw [hcost, Machine.ceil_div_eq (by decide)]
    decide
  have hbreak : ((0 : ℕ) : ℕ∞) < c.breakIndex := by
    refine (lt_breakIndex_iff 0).mpr fun i hi => Nat.pos_of_ne_zero fun hzero => ?_
    have hhere : c.breakpoints.contains c.panel.machine.bank.p = false := by decide +kernel
    rw [hzero] at hi
    exact absurd hi.1 (by rw [Machine.after_zero, hhere]; decide)
  refine ⟨hm, by rw [hcost]; decide, by decide, ?_, by decide +kernel, ?_⟩
  · rw [hone]
    exact (min_le_left _ _).trans (Order.one_le_iff_pos.mpr hbreak)
  · let free : Console := { c with breakpoints := .empty }
    refine ⟨free.tick, (tryTick_eq_ok_iff_of_isEmpty (c := free) hm ?_ ?_ ?_ rfl _).mpr ⟨?_, rfl⟩⟩
    · rw [hcost]
      decide
    · rw [hcost]
      decide
    · decide
    · decide +kernel

end Console
end Kenbak1
