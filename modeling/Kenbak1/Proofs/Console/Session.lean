/-
  Kenbak1.Proofs.Console.Session

  Sessions at the console. Each turn of a `session` is a key (`keyed`) and a `tick`. `keyed_spec`
  says that the key executes one instruction if it is the one for single steps, and none otherwise;
  `tick_ticks` says what the tick executes, if the machine runs. So a machine that was stopped, in
  whatever way, is left to single steps until it is started again (`session_of_halted`).
-/
import Kenbak1.Console.Key
import Kenbak1.Proofs.Console.Tick

namespace Kenbak1
namespace Console

/-! ## Turns and sessions -/

/-- The console after the key of a turn, before its tick. -/
def keyed (c : Console) : Stroke → Console
  | some key => c.handle key
  | none => c

/-- The console after turns one after another. -/
def session (c : Console) (strokes : List Stroke) : Console :=
  strokes.foldl turn c

theorem turn_eq_tick (c : Console) (stroke : Stroke) : c.turn stroke = (c.keyed stroke).tick := by
  cases stroke <;> rfl

/-! ## Keys -/

/-- The count of instructions after a key. -/
def tally (count : Nat) : Stroke → Nat
  | some .step => count + 1
  | some .reset => 0
  | _ => count

variable (c : Console)

theorem state_ready : c.ready.machine.state = .running := by
  unfold ready
  split
  · rfl
  · next hruns => exact Machine.running_of_not_halted (by simpa [Machine.isHalted] using hruns)

theorem executed_ready : c.ready.machine.executed = c.panel.machine.executed := by
  unfold ready
  split <;> rfl

theorem budget_ready : c.ready.machine.budget = c.panel.machine.budget := by
  unfold ready
  split <;> rfl

theorem cost_ready : c.ready.machine.cost = c.panel.machine.cost := by
  unfold ready
  split <;> rfl

/-- A single step executes one instruction. -/
theorem executes_step : c.ready.machine.Executes c.step.panel.machine 1 := by
  have hnext := Machine.Executes.next c.state_ready
  rw [← FrontPanel.machine_step] at hnext
  rw [panel_step]
  split
  · exact hnext.of_view rfl rfl rfl
  · exact hnext

/-- After a single `step` the machine stands if it stood before, or if the instruction was a
    halt. -/
theorem state_step :
    c.step.panel.machine.state = .halted ↔
      c.panel.machine.state = .halted ∨ (c.ready.machine.after 1).state = .halted := by
  have hnext : (c.ready.machine.after 1).state = c.ready.step.2.machine.state := by
    rw [FrontPanel.machine_step]
    rfl
  rw [panel_step, hnext]
  split
  · next hstop =>
    have hstood : c.panel.machine.isHalted = true := (Bool.and_eq_true_iff.mp hstop).1
    exact iff_of_true rfl (.inl (of_decide_eq_true hstood))
  · next hnone =>
    refine ⟨.inr, ?_⟩
    rintro (hstood | hhalt)
    · -- A machine that stood and is not stopped again has executed a halt.
      refine by_contra fun hruns => hnone ?_
      simp only [Machine.isHalted, Machine.isRunning, hstood, Machine.running_of_not_halted hruns]
      rfl
    · exact hhalt

theorem cost_step : c.step.panel.machine.cost = c.panel.machine.cost := by
  have hnext : c.ready.step.2.machine.cost = c.panel.machine.cost := by
    rw [FrontPanel.machine_step, Machine.cost_next, cost_ready]
  rw [panel_step]
  split <;> exact hnext

theorem executed_resetPanel (program : Image) (config : Config) (journal : Journal) :
    (resetPanel program config journal).machine.executed = 0 := by
  unfold resetPanel
  rw [FrontPanel.executed_press, FrontPanel.executed_load]
  rfl

theorem cost_resetPanel (program : Image) (config : Config) (journal : Journal) :
    (resetPanel program config journal).machine.cost = config.cyclesPerInstruction.toNat := by
  unfold resetPanel
  rw [FrontPanel.cost_press, FrontPanel.cost_load]
  rfl

/-- Scrolling down moves the memory view and nothing else. -/
theorem exists_handle_down_eq : ∃ scroll, c.handle .down = { c with scroll } := by
  unfold handle handleBy
  dsimp only
  split
  · exact ⟨_, rfl⟩
  · exact ⟨c.scroll, rfl⟩

/-- What the key of a turn does to the count (`tally`) and the run state. -/
structure Keyed (stroke : Stroke) : Prop where
  count : (c.keyed stroke).panel.machine.executed = tally c.panel.machine.executed stroke
  /-- The key for single steps executes the instruction at P. -/
  step : stroke = some .step → c.ready.machine.Executes (c.keyed stroke).panel.machine 1
  /-- The instruction may have been a halt. -/
  halts : stroke = some .step → (c.ready.machine.after 1).state = .halted →
    (c.keyed stroke).panel.machine.state = .halted
  /-- Two keys stop the machine. -/
  stops : stroke = some (.press .stop) ∨ stroke = some .reset →
    (c.keyed stroke).panel.machine.state = .halted
  /-- One key starts it. -/
  stands : stroke ≠ some (.press .start) → c.panel.machine.state = .halted →
    (c.keyed stroke).panel.machine.state = .halted

theorem keyed_spec (stroke : Stroke) : c.Keyed stroke := by
  cases stroke with
  | none => exact ⟨rfl, nofun, nofun, by simp, fun _ h => h⟩
  | some key =>
    cases key with
    | press button =>
      have hstate := c.panel.state_press button
      refine ⟨c.panel.executed_press button, nofun, nofun, fun h => ?_, fun h hm => ?_⟩
      · obtain rfl : button = .stop := by simpa using h
        exact hstate
      · have hstart : button ≠ .start := fun e => h (by rw [e])
        rw [if_neg hstart, hm, ite_self] at hstate
        exact hstate
    -- The only key that executes an instruction.
    | step =>
      have hcount := c.executes_step.count
      rw [executed_ready] at hcount
      exact ⟨hcount, fun _ => c.executes_step, fun _ h => c.state_step.mpr (.inr h), by simp,
        fun _ h => c.state_step.mpr (.inl h)⟩
    | breakpoint =>
      refine ⟨?_, nofun, nofun, by simp, fun _ h => ?_⟩
      · exact congrArg (·.machine.executed) c.panel_toggleBreakpoint
      · exact (congrArg (·.machine.state) c.panel_toggleBreakpoint).trans h
    | reset =>
      have hstop : c.reset.panel.machine.state = .halted := FrontPanel.state_press _ .stop
      exact ⟨executed_resetPanel _ _ _, nofun, nofun, fun _ => hstop, fun _ _ => hstop⟩
    | up => exact ⟨rfl, nofun, nofun, by simp, fun _ h => h⟩
    -- Scrolling reads a window of memory, which leaves the machine as it was.
    | down =>
      obtain ⟨scroll, hdown⟩ := c.exists_handle_down_eq
      constructor <;> simp [keyed, hdown, tally]
    | quit => exact ⟨rfl, nofun, nofun, by simp, fun _ h => h⟩

theorem config_keyed (stroke : Stroke) : (c.keyed stroke).config = c.config := by
  rcases stroke with _ | ⟨_ | _ | _ | _ | _ | _ | _⟩
  case some.breakpoint => exact c.config_toggleBreakpoint
  case some.down =>
    obtain ⟨scroll, hdown⟩ := c.exists_handle_down_eq
    exact congrArg (·.config) hdown
  all_goals rfl

theorem cost_keyed (stroke : Stroke)
    (h : c.panel.machine.cost = c.config.cyclesPerInstruction.toNat) :
    (c.keyed stroke).panel.machine.cost = c.config.cyclesPerInstruction.toNat := by
  rcases stroke with _ | ⟨button | _ | _ | _ | _ | _ | _⟩
  case some.press => exact (c.panel.cost_press button).trans h
  case some.step => exact c.cost_step.trans h
  case some.breakpoint => exact (congrArg (·.machine.cost) c.panel_toggleBreakpoint).trans h
  case some.reset => exact cost_resetPanel _ _ _
  case some.down =>
    obtain ⟨scroll, hdown⟩ := c.exists_handle_down_eq
    exact (congrArg (·.panel.machine.cost) hdown).trans h
  all_goals exact h

/-- The machine is being resumed between the key that starts it and the tick that follows. -/
theorem resuming_keyed (stroke : Stroke) (h : c.resuming = false) :
    (c.keyed stroke).resuming = decide (stroke = some (.press .start)) := by
  rcases stroke with _ | ⟨button | _ | _ | _ | _ | _ | _⟩
  case some.press =>
    have hpressed : (c.keyed (some (.press button))).resuming = decide (button = .start) := rfl
    simp [hpressed]
  case some.breakpoint => exact c.resuming_toggleBreakpoint.trans h
  case some.down =>
    obtain ⟨scroll, hdown⟩ := c.exists_handle_down_eq
    exact (congrArg (·.resuming) hdown).trans h
  all_goals exact h

/-! ## Sessions -/

/-- What every turn of a session leaves: the settings, the cost of an instruction they set,
    and a machine that is not being resumed. -/
structure Settled (config : Config) : Prop where
  settings : c.config = config
  cost : c.panel.machine.cost = config.cyclesPerInstruction.toNat
  resuming : c.resuming = false

/-- What a turn does: what its key does (`Keyed`), and then, if the machine runs, a tick
    (`Ticks`). -/
structure Turns (stroke : Stroke) : Prop where
  key : c.Keyed stroke
  idle : (c.keyed stroke).panel.machine.state = .halted → c.turn stroke = c.keyed stroke
  tick : (c.keyed stroke).panel.machine.state = .running →
    ∃ n, Ticks (c.keyed stroke).breakpoints (c.keyed stroke).panel.machine (c.turn stroke).panel
      (stroke = some (.press .start)) (c.keyed stroke).rounds n

variable {c} {config : Config}

theorem Settled.turns (h : c.Settled config) (hc : 1 ≤ config.cyclesPerInstruction.toNat)
    (stroke : Stroke) : c.Turns stroke where
  key := c.keyed_spec stroke
  idle hstands := by rw [turn_eq_tick, tick_of_halted hstands]
  tick hruns := by
    have hcost := c.cost_keyed stroke (by rw [h.cost, h.settings])
    have hticks := tick_ticks hruns (by rw [hcost, h.settings]; exact hc)
    rw [c.resuming_keyed stroke h.resuming, decide_eq_true_eq, ← turn_eq_tick] at hticks
    exact hticks

theorem Settled.turn (h : c.Settled config) (hc : 1 ≤ config.cyclesPerInstruction.toNat)
    (stroke : Stroke) : (c.turn stroke).Settled config where
  settings := by rw [turn_eq_tick, config_tick, config_keyed, h.settings]
  cost := by
    have hcost := c.cost_keyed stroke (by rw [h.cost, h.settings])
    rw [h.settings] at hcost
    have hturns := h.turns hc stroke
    cases hm : (c.keyed stroke).panel.machine.state with
    | halted => rw [hturns.idle hm, hcost]
    | running =>
      obtain ⟨n, hticks⟩ := hturns.tick hm
      rw [hticks.cost, hcost]
  resuming := by
    rw [turn_eq_tick]
    refine resuming_tick fun hresuming => ?_
    rw [c.resuming_keyed stroke h.resuming, decide_eq_true_eq] at hresuming
    rw [hresuming]
    rfl

theorem Settled.session (h : c.Settled config) (hc : 1 ≤ config.cyclesPerInstruction.toNat)
    (strokes : List Stroke) : (c.session strokes).Settled config :=
  List.foldlRecOn (motive := fun c => c.Settled config) strokes Console.turn h
    fun _ h stroke _ => h.turn hc stroke

theorem settled_new (program : Image) (config : Config) :
    (Console.new program config).Settled config where
  settings := rfl
  cost := cost_resetPanel program config .off
  resuming := rfl

/-- While nobody starts a machine that stands, it stands through a `session`, and each single step
    counts one (`tally`). -/
theorem session_of_halted (h : c.panel.machine.state = .halted) (strokes : List Stroke)
    (hstart : some (.press .start) ∉ strokes) :
    (c.session strokes).panel.machine.state = .halted ∧
      (c.session strokes).panel.machine.executed
        = strokes.foldl tally c.panel.machine.executed := by
  induction strokes generalizing c with
  | nil => exact ⟨h, rfl⟩
  | cons stroke rest ih =>
    rw [List.mem_cons, not_or] at hstart
    have hkey := c.keyed_spec stroke
    have hstands := hkey.stands (Ne.symm hstart.1) h
    -- The tick finds a machine that stands and does nothing.
    have hturn : c.turn stroke = c.keyed stroke := by rw [turn_eq_tick, tick_of_halted hstands]
    have hrest := ih (c := c.turn stroke) (by rw [hturn]; exact hstands) hstart.2
    rw [hturn, hkey.count] at hrest
    rw [session, List.foldl_cons, List.foldl_cons, hturn]
    exact hrest

/-- Breakpoints and stops are honoured in every `session` with a program. After each turn the
    machine is no longer being resumed; each turn does what its key does and ticks if the machine
    runs (`Turns`); and a machine that stands, for whatever reason, executes single steps alone
    (`tally`) until it is started. -/
theorem session_honours_breakpoints (program : Image) (config : Config)
    (hc : 1 ≤ config.cyclesPerInstruction.toNat) (strokes : List Stroke) :
    ((new program config).session strokes).resuming = false ∧
    (∀ stroke, ((new program config).session strokes).Turns stroke) ∧
    (((new program config).session strokes).panel.machine.state = .halted →
      ∀ rest, some (.press .start) ∉ rest →
        (((new program config).session strokes).session rest).panel.machine.state = .halted ∧
        (((new program config).session strokes).session rest).panel.machine.executed =
          rest.foldl tally ((new program config).session strokes).panel.machine.executed) := by
  have hsettled := (settled_new program config).session hc strokes
  exact ⟨hsettled.resuming, hsettled.turns hc, session_of_halted⟩

/-- A program that jumps to itself, started with a breakpoint under P. The tick executes the
    jump once and comes back to the breakpoint, where the machine is left to single steps. -/
theorem session_honours_breakpoints_self_jump :
    1 ≤ ({} : Config).cyclesPerInstruction.toNat ∧
      ((new { cells := [(4, 0o344), (5, 4)] } {}).session
        [some .breakpoint, some (.press .start)]).panel.machine.state = .halted ∧
      some (.press .start) ∉ [some Key.step, none, some Key.step] ∧
      (((new { cells := [(4, 0o344), (5, 4)] } {}).session
        [some .breakpoint, some (.press .start)]).session
          [some .step, none, some .step]).panel.machine.executed = 3 := by
  have hc : 1 ≤ ({} : Config).cyclesPerInstruction.toNat := by simp
  have hstart : some (.press .start) ∉ [some Key.step, none, some Key.step] := by decide
  obtain ⟨hstands, hcount⟩ : ((new { cells := [(4, 0o344), (5, 4)] } {}).session
        [some .breakpoint, some (.press .start)]).panel.machine.state = .halted ∧
      ((new { cells := [(4, 0o344), (5, 4)] } {}).session
        [some .breakpoint, some (.press .start)]).panel.machine.executed = 1 := by decide +kernel
  obtain ⟨-, -, hlater⟩ := session_honours_breakpoints { cells := [(4, 0o344), (5, 4)] } {} hc
    [some .breakpoint, some (.press .start)]
  have hexecuted := (hlater hstands [some .step, none, some .step] hstart).2
  rw [hcount] at hexecuted
  exact ⟨hc, hstands, hstart, hexecuted⟩

end Console
end Kenbak1
