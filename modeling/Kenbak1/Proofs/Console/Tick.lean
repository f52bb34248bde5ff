/-
  Kenbak1.Proofs.Console.Tick

  A tick of the console. Whether it runs a burst (`runBurst_ticks`) or steps past breakpoints one by
  one (`guarded_ticks`), a tick executes instructions one after another, passes no breakpoint but
  the one that the machine was started on, and ends at a halt, at a breakpoint, or when its cycles
  are used up. `Ticks` says this of the machine before it and the console behind it, with `Ending`
  for the three ways to end.
-/
import Kenbak1.Proofs.Console.Loop
import Kenbak1.Proofs.Lamps
import Kenbak1.Proofs.Machine.Burst
import Kenbak1.Proofs.Machine.Counts

namespace Kenbak1

theorem Breakpoints.contains_of_isEmpty (b : Breakpoints) (h : b.isEmpty) (a : UInt8) :
    b.contains a = false := by
  unfold isEmpty at h
  unfold contains
  rw [List.isEmpty_iff.mp h]
  rfl

/-- A burst of a running machine executes instructions one after another. If the machine runs
    on behind them, they are all that the budget pays for. -/
theorem Machine.exists_run_executes {β σ : Type} [Bus β] [Observer σ] {m : Machine β}
    (hm : m.state = .running) (hc : 1 ≤ m.cost) (budget : Int) (o : σ) :
    ∃ (n : Nat) (cycles : Int), n ≤ payable m.cost budget ∧
      (∀ i < n, (m.after i).state = .running) ∧
      ((m.after n).state = .running → n = payable m.cost budget) ∧
      (m.run budget o).machine = (m.after n).withBudget cycles := by
  obtain ⟨n, hn⟩ := exists_eq_min (payable m.cost budget) m.haltIndex
  have hwithin : (n : ℕ∞) ≤ payable m.cost budget := hn ▸ min_le_left _ _
  have hhalt : (n : ℕ∞) ≤ m.haltIndex := hn ▸ min_le_right _ _
  refine ⟨n, _, by exact_mod_cast hwithin, running_of_le_haltIndex hm hhalt, fun hruns => ?_,
    congrArg Turn.machine (run_of_running hm (.inl hc) hn o)⟩
  -- A machine that still runs has not come to its halt.
  have hlt := (state_after_iff hm n).mp hruns
  rcases min_choice (payable m.cost budget : ℕ∞) m.haltIndex with h | h
  · rw [h] at hn
    exact_mod_cast hn
  · rw [h] at hn
    exact absurd hn hlt.ne

namespace Console

/-! ## What a tick does -/

section Ticks

variable (b : Breakpoints) (m : Machine Memory) (after : FrontPanel Memory) (started : Prop)
  (rounds n : Nat)

/-- How a tick that begins with a machine ends after `n` of at most `rounds` instructions. -/
inductive Ending : Prop
  /-- The last instruction was a halt. -/
  | halted (stands : (m.after n).state = .halted) (stays : after.machine.state = .halted)
  /-- The cycles are used up, and the machine runs on. -/
  | spent (all : n = rounds) (runs : (m.after n).state = .running)
      (goes : after.machine.state = .running)
  /-- The machine would go on, but it is stopped at a breakpoint. -/
  | held (early : n < rounds) (runs : (m.after n).state = .running)
      (breakpoint : b.contains (m.after n).bank.p) (other : ¬ (n = 0 ∧ started))
      (stops : after.machine.state = .halted) (dark : after.lamps.isLit Lamps.runMask = false)

/-- A tick that begins with a running machine and executes `n` of at most `rounds`
    instructions; the first may stand at a breakpoint, if the machine was just started. -/
structure Ticks : Prop where
  executes : m.Executes after.machine n
  within : n ≤ rounds
  passes : ∀ i < n, b.contains (m.after i).bank.p → i = 0 ∧ started
  ends : Ending b m after started rounds n
  cost : after.machine.cost = m.cost

end Ticks

/-! ## Past breakpoints -/

section Guarded

variable {b : Breakpoints} {m : Machine Memory} {after : FrontPanel Memory} {started : Prop}
  {rounds n : Nat}

/-- A tick that ends before the first instruction. -/
theorem Ticks.none (hexecutes : m.Executes after.machine 0) (hcost : after.machine.cost = m.cost)
    (hends : Ending b m after started rounds 0) : Ticks b m after started rounds 0 where
  executes := hexecutes
  within := Nat.zero_le rounds
  passes i hi := absurd hi (Nat.not_lt_zero i)
  ends := hends
  cost := hcost

/-- A tick with one instruction more in front. -/
theorem Ticks.cons (hm : m.state = .running) (hp : b.contains m.bank.p → started)
    (h : Ticks b m.next after False rounds n) : Ticks b m after started (rounds + 1) (n + 1) where
  executes := h.executes.cons hm
  within := Nat.succ_le_succ h.within
  passes i hi hbreak := by
    cases i with
    | zero => exact ⟨rfl, hp hbreak⟩
    | succ i => exact (h.passes i (Nat.lt_of_succ_lt_succ hi) hbreak).2.elim
  ends := by
    cases h.ends with
    | halted stands stays => exact .halted stands stays
    | spent all runs goes => exact .spent (congrArg (· + 1) all) runs goes
    | held early runs breakpoint _ stops dark =>
      exact .held (Nat.succ_lt_succ early) runs breakpoint (fun h => absurd h.1 n.succ_ne_zero)
        stops dark
  cost := h.cost.trans (Machine.cost_next m)

theorem guarded_ticks (rounds : Nat) (resuming : Bool) (c : Console) :
    ∃ n, Ticks c.breakpoints c.panel.machine (guarded rounds resuming c).panel (resuming = true)
      rounds n := by
  -- The induction is on the rounds: each stops before the instruction at P or executes it.
  induction rounds generalizing c resuming with
  | zero =>
    refine ⟨0, .none (.refl _) rfl ?_⟩
    cases hm : c.panel.machine.state with
    | halted => exact .halted hm hm
    | running => exact .spent rfl hm hm
  | succ rounds ih =>
    unfold guarded
    dsimp only
    split
    · next hhalted =>
      have hm : c.panel.machine.state = .halted := by simpa [Machine.isHalted] using hhalted
      exact ⟨0, .none (.refl _) rfl (.halted hm hm)⟩
    · next hruns =>
      have hm : c.panel.machine.state = .running := by
        exact Machine.running_of_not_halted (by simpa [Machine.isHalted] using hruns)
      split
      · next hheld =>
        simp only [Bool.and_eq_true, Bool.not_eq_true'] at hheld
        have hother : ¬ (0 = 0 ∧ resuming = true) := by simp [hheld.2]
        have hdark : (c.panel.press .stop).lamps.isLit Lamps.runMask = false :=
          Lamps.isLit_run _
        exact ⟨0, .none ((Machine.Executes.refl _).of_view rfl rfl rfl) rfl
          (.held rounds.succ_pos hm hheld.1 hother rfl hdark)⟩
      · next hpasses =>
        obtain ⟨n, hticks⟩ := ih false { c with panel := c.panel.step.2 }
        simp only [FrontPanel.machine_step, Bool.false_eq_true] at hticks
        refine ⟨n + 1, hticks.cons hm fun hbreak => ?_⟩
        by_contra hnot
        exact hpasses (by simp [hbreak, hnot])

theorem resuming_guarded (rounds : Nat) (resuming : Bool) (c : Console) :
    (guarded rounds resuming c).resuming = false := by
  induction rounds generalizing c resuming with
  | zero => rfl
  | succ rounds ih =>
    unfold guarded
    dsimp only
    split
    · rfl
    · split
      · rfl
      · exact ih false _

theorem config_guarded (rounds : Nat) (resuming : Bool) (c : Console) :
    (guarded rounds resuming c).config = c.config :=
  guarded_keeps (P := fun k => k.config = c.config) (fun _ h => h) (fun _ _ h => h) (fun _ h => h)
    rounds resuming rfl

theorem breakpoints_guarded (rounds : Nat) (resuming : Bool) (c : Console) :
    (guarded rounds resuming c).breakpoints = c.breakpoints :=
  guarded_keeps (P := fun k => k.breakpoints = c.breakpoints) (fun _ h => h) (fun _ _ h => h)
    (fun _ h => h) rounds resuming rfl

end Guarded

/-! ## Bursts -/

/-- A `tick` is a burst where there are no breakpoints, and it `Ticks` as such. -/
theorem runBurst_ticks {b : Breakpoints} (hb : b.isEmpty) {panel : FrontPanel Memory}
    (hm : panel.machine.state = .running) (hc : 1 ≤ panel.machine.cost) (budget : Int)
    (started : Prop) :
    ∃ n, Ticks b panel.machine (panel.runBurst budget).2 started
      (Machine.payable panel.machine.cost budget) n := by
  obtain ⟨n, cycles, hwithin, hruns, hall, hrun⟩ := Machine.exists_run_executes hm hc budget panel.lamps
  have hmachine : (panel.runBurst budget).2.machine = (panel.machine.after n).withBudget cycles :=
    hrun
  refine ⟨n, ?_, hwithin, fun i _ hbreak => ?_, ?_, ?_⟩
  · rw [hmachine]
    exact .of_after hruns cycles
  · rw [b.contains_of_isEmpty hb] at hbreak
    cases hbreak
  · cases hstate : (panel.machine.after n).state with
    | halted => exact .halted hstate (by rw [hmachine]; exact hstate)
    | running => exact .spent (hall hstate) hstate (by rw [hmachine]; exact hstate)
  · rw [hmachine]
    exact Machine.cost_after _ n

/-! ## The tick -/

/-- The number of instructions that a tick pays for. A burst without breakpoints executes at
    least one. -/
def rounds (c : Console) : Nat :=
  if c.breakpoints.isEmpty then
    Machine.payable c.panel.machine.cost c.config.burstCycles.toInt
  else burstRounds c.panel.machine.cost c.config.burstCycles.toInt

variable {c : Console}

theorem tick_of_halted (h : c.panel.machine.state = .halted) : c.tick = c := by
  simp [tick_eq, Machine.isHalted, h]

/-- Where a breakpoint is set, a `tick` of a running machine is the loop `guarded`. -/
theorem tick_of_breakpoints (hm : c.panel.machine.state = .running)
    (hset : ¬ c.breakpoints.isEmpty) :
    c.tick =
      guarded (burstRounds c.panel.machine.cost c.config.burstCycles.toInt) c.resuming c := by
  simp [tick_eq, Machine.isHalted_of_running hm, hset]

theorem tick_ticks (hm : c.panel.machine.state = .running) (hc : 1 ≤ c.panel.machine.cost) :
    ∃ n, Ticks c.breakpoints c.panel.machine c.tick.panel (c.resuming = true) c.rounds n := by
  have hhalted := Machine.isHalted_of_running hm
  by_cases hb : c.breakpoints.isEmpty
  · have hpanel : c.tick.panel = (c.panel.runBurst c.config.burstCycles.toInt).2 := by
      simp [tick_eq, hhalted, hb, settle]
    rw [hpanel, rounds, if_pos hb]
    exact runBurst_ticks hb hm hc _ _
  · have hpanel : c.tick.panel = (guarded (burstRounds c.panel.machine.cost
        c.config.burstCycles.toInt) c.resuming c).panel := by
      rw [tick_of_breakpoints hm hb]
    rw [hpanel, rounds, if_neg hb]
    exact guarded_ticks _ _ c

/-- No tick changes what an instruction costs. -/
@[simp] theorem cost_tick (c : Console) : c.tick.panel.machine.cost = c.panel.machine.cost := by
  rw [tick_eq]
  split
  · rfl
  · split
    · exact Machine.cost_run c.panel.machine _ c.panel.lamps
    · exact guarded_keeps (P := fun k => k.panel.machine.cost = c.panel.machine.cost)
        (fun _ h => h) (fun _ _ h => h)
        (fun k h => (congrArg Machine.cost k.panel.machine_step).trans
          ((Machine.cost_next _).trans h)) _ _ rfl

/-- After a tick the machine is not being resumed, whatever key came before. -/
theorem resuming_tick (h : c.resuming = true → c.panel.machine.state = .running) :
    c.tick.resuming = false := by
  rw [tick_eq]
  split
  · next hhalted =>
    -- Nothing is done, and a machine that stands was not just started.
    by_contra hresuming
    rw [Machine.isHalted, h (by simpa using hresuming)] at hhalted
    cases hhalted
  · split
    · rfl
    · exact resuming_guarded _ _ c

@[simp] theorem config_tick (c : Console) : c.tick.config = c.config := by
  rw [tick_eq]
  split
  · rfl
  · split
    · rfl
    · exact config_guarded _ _ c

@[simp] theorem breakpoints_tick (c : Console) : c.tick.breakpoints = c.breakpoints := by
  rw [tick_eq]
  split
  · rfl
  · split
    · rfl
    · exact breakpoints_guarded _ _ c

end Console
end Kenbak1
