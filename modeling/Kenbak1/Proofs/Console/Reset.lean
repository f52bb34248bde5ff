/-
  Kenbak1.Proofs.Console.Reset

  A reset forgets. What an operator sees of a request (`Sight`) is the panel and the breakpoints
  after it, the rows that it returns and the status that it writes. `Alike` relates consoles that
  nobody tells apart: they differ in the status line, in the place of the memory view and, where the
  machine stands, in whether it was being resumed. `Alike.serve` shows that they stay alike and show
  the same, and a console after `reset` is alike to a new one with the same breakpoints. The reset
  leaves `resuming` behind, but it stops the machine, and the only key that starts it decides anew
  (`serve_withResuming`).
-/
import Kenbak1.Proofs.Console.Burst
import Kenbak1.Proofs.Console.Session
import Kenbak1.Proofs.Queries

namespace Kenbak1

/-! ## Invariants of the machine of a console -/

/-- An invariant that a reset sets up stays true, whatever is done to a console. -/
theorem Machine.Invariant.serveConsole {P : Machine Memory → Prop} (hi : Machine.Invariant P)
    {c : Console} (h : P c.panel.machine) (hreset : P c.reset.panel.machine)
    (request : Console.Request) : P (c.serve request).panel.machine := by
  cases request with
  | press button => exact hi.press h button
  | step =>
    -- A step is a start, if the machine stands, then the instruction and a stop.
    have hready : P c.ready.machine := by
      unfold Console.ready
      split
      · exact hi.setHalt h false c.panel.lamps
      · exact h
    have hstep : P c.ready.step.2.machine := hi.step hready c.ready.lamps
    rw [Console.serve, Console.panel_step]
    split
    · exact hi.setHalt hstep true c.ready.step.2.lamps
    · exact hstep
  | tick =>
    rw [Console.serve, Console.tick_eq]
    split
    · exact h
    · split
      · exact hi.run h _ c.panel.lamps
      · exact Console.guarded_keeps (P := fun c => P c.panel.machine) (fun _ h => h)
          (fun _ _ h => hi.press h .stop) (fun c h => hi.step h c.panel.lamps) _ _ h
  | toggleBreakpoint =>
    rw [Console.serve, Console.panel_toggleBreakpoint]
    exact h
  | reset => exact hreset
  | window lines =>
    rw [Console.serve, Console.window_eq]
    exact h

/-- A journal that is switched off stays so. -/
theorem Machine.invariant_off : Machine.Invariant fun m : Machine Memory => m.journal = .off where
  bank _ _ h := h
  state _ _ h := h
  ledger _ _ h := h
  note m e _ h := by
    show m.journal.note e = .off
    rw [h, Journal.note_off]
  read _ _ _ h := h
  write _ _ _ _ h := h

namespace Console

theorem journal_resetPanel (program : Image) (config : Config) :
    (resetPanel program config .off).machine.journal = .off := by
  have hstart : (FrontPanel.ofMachine
      { Machine.fresh with cost := config.cyclesPerInstruction.toNat }).machine.journal = .off :=
    rfl
  exact Machine.invariant_off.press
    (Machine.invariant_off.load hstart program config.loadAddress) .stop

/-! ## What is seen -/

/-- What an operator sees of a request. -/
structure Sight where
  panel : FrontPanel Memory
  breakpoints : Breakpoints
  /-- The rows that the request returned. -/
  rows : List WindowRow
  /-- The status that the request wrote, if it wrote one. -/
  status : Option Status

variable (c d : Console)

/-- The status that a request writes. A window writes none, and a tick none unless it stops
    the machine. -/
def written (request : Request) : Option Status :=
  match request with
  | .window _ => none
  | .tick =>
    if c.panel.machine.isRunning && c.tick.panel.machine.isHalted then some c.tick.status else none
  | request => some (c.serve request).status

/-- The rows that a request returns. -/
def rows (request : Request) : List WindowRow :=
  match request with
  | .window lines => (c.window lines).1
  | _ => []

/-- What an operator sees of a request. -/
def sight (request : Request) : Sight where
  panel := (c.serve request).panel
  breakpoints := (c.serve request).breakpoints
  rows := c.rows request
  status := c.written request

/-- What an operator sees of requests one after another. -/
def sights (c : Console) : List Request → List Sight
  | [] => []
  | request :: rest => c.sight request :: (c.serve request).sights rest

/-! ## The status line -/

/-- The console with another status and another place of the memory view. -/
def showing (status : Status) (scroll : Nat) : Console :=
  { c with status, scroll }

theorem settle_showing (status : Status) (scroll : Nat) :
    (c.showing status scroll).settle =
      c.settle.showing (if c.panel.machine.isHalted then c.settle.status else status) scroll := by
  unfold settle showing
  dsimp only
  split <;> rfl

/-- Past breakpoints the status is written where the machine stops, and read nowhere. -/
theorem guarded_showing (rounds : Nat) (resuming : Bool) (status : Status) (scroll : Nat) :
    guarded rounds resuming (c.showing status scroll) =
      (guarded rounds resuming c).showing
        (if (guarded rounds resuming c).panel.machine.isHalted then
          (guarded rounds resuming c).status else status) scroll := by
  induction rounds generalizing c resuming with
  | zero => exact c.settle_showing status scroll
  | succ rounds ih =>
    cases hm : c.panel.machine.state with
    | halted =>
      rw [guarded_of_halted hm, guarded_of_halted (c := c.showing status scroll) hm]
      exact c.settle_showing status scroll
    | running =>
      have hhalted := Machine.isHalted_of_running hm
      cases hheld : c.breakpoints.contains c.panel.machine.bank.p && !resuming with
      | true =>
        simp only [guarded, showing, hhalted, hheld, if_true, Bool.false_eq_true, if_false]
        rfl
      | false =>
        -- A round reads nothing of the console but the panel and the breakpoints.
        have hnext : ∀ k : Console, k.panel = c.panel → k.breakpoints = c.breakpoints →
            guarded (rounds + 1) resuming k
              = guarded rounds false { k with panel := k.panel.step.2 } := by
          intro k hpanel hbreakpoints
          simp only [guarded, hpanel, hbreakpoints, hhalted, hheld, Bool.false_eq_true, if_false]
        rw [hnext c rfl rfl, hnext (c.showing status scroll) rfl rfl]
        exact ih { c with panel := c.panel.step.2 } false

/-- A tick that finds the machine running writes the status if it leaves it halted. -/
theorem written_tick (h : c.panel.machine.state = .running) :
    c.written .tick = if c.tick.panel.machine.isHalted then some c.tick.status else none := by
  have hrunning : c.panel.machine.isRunning = true := by simp [Machine.isRunning, h]
  simp [written, hrunning]

theorem tick_showing (status : Status) (scroll : Nat) :
    (c.showing status scroll).tick = c.tick.showing ((c.written .tick).getD status) scroll := by
  cases hm : c.panel.machine.state with
  | halted =>
    have hnone : c.written .tick = none := by simp [written, Machine.isRunning, hm]
    rw [hnone, tick_of_halted hm, tick_of_halted (c := c.showing status scroll) hm]
    rfl
  | running =>
    have hgetD : (c.written .tick).getD status =
        if c.tick.panel.machine.isHalted then c.tick.status else status := by
      rw [c.written_tick hm]
      split <;> rfl
    have hhalted := Machine.isHalted_of_running hm
    -- A tick of a running machine branches on the breakpoints alone.
    have htick : ∀ k : Console, k.panel = c.panel → k.breakpoints = c.breakpoints →
        k.tick = if c.breakpoints.isEmpty then
            settle { k with panel := (k.panel.runBurst k.config.burstCycles.toInt).2 }
          else guarded (burstRounds k.panel.machine.cost k.config.burstCycles.toInt)
            k.resuming k := by
      intro k hpanel hbreakpoints
      simp only [tick_eq, hpanel, hbreakpoints, hhalted, Bool.false_eq_true, if_false]
    rw [hgetD, htick c rfl rfl, htick (c.showing status scroll) rfl rfl]
    by_cases hempty : c.breakpoints.isEmpty
    · rw [if_pos hempty, if_pos hempty]
      exact settle_showing { c with panel := (c.panel.runBurst c.config.burstCycles.toInt).2 }
        status scroll
    · rw [if_neg hempty, if_neg hempty]
      exact c.guarded_showing _ c.resuming status scroll

/-- A single step executes an instruction in every case, and so writes the status. -/
theorem step_eq :
    c.step =
      { c with
        panel := c.step.panel
        status := .stepped c.panel.machine.bank.p
          (c.ready.step.2.machine.disassembleAt c.panel.machine.bank.p).1.text } := by
  have hsome : c.ready.step.1.isSome = true := by
    unfold FrontPanel.step
    rw [Machine.step_of_running c.state_ready]
    rfl
  have hstatus : c.step.status = if c.ready.step.1.isSome then
      .stepped c.panel.machine.bank.p
        (c.ready.step.2.machine.disassembleAt c.panel.machine.bank.p).1.text
    else c.status := rfl
  rw [if_pos hsome] at hstatus
  rw [← hstatus]
  rfl

theorem step_showing (status : Status) (scroll : Nat) :
    (c.showing status scroll).step = c.step.showing c.step.status scroll := by
  rw [step_eq, c.step_eq]
  rfl

/-- A request writes the status or leaves it alone (`written`), and reads it in no case. -/
theorem serve_showing (status : Status) (scroll : Nat) (request : Request) :
    (c.showing status scroll).serve request =
      (c.serve request).showing ((c.written request).getD status) scroll := by
  cases request with
  | press button => rfl
  | step => exact c.step_showing status scroll
  | tick => exact c.tick_showing status scroll
  | toggleBreakpoint =>
    show (c.showing status scroll).toggleBreakpoint =
      c.toggleBreakpoint.showing c.toggleBreakpoint.status scroll
    by_cases hset : c.breakpoints.contains c.panel.machine.bank.p
    · simp [toggleBreakpoint, showing, hset]
    · simp [toggleBreakpoint, showing, hset]
  | reset => rfl
  | window lines =>
    rw [serve, serve, window_eq, window_eq]
    rfl

variable {c d}

theorem written_showing (status : Status) (scroll : Nat) (request : Request) :
    (c.showing status scroll).written request = c.written request := by
  have hserve := congrArg (·.status) (c.serve_showing status scroll request)
  cases request with
  | window lines => rfl
  | tick =>
    cases hm : c.panel.machine.state with
    | halted => simp [written, showing, Machine.isRunning, hm]
    | running =>
      have hpanel := congrArg (·.panel) (c.tick_showing status scroll)
      simp only [serve, c.written_tick hm] at hserve
      rw [c.written_tick hm, (c.showing status scroll).written_tick hm, hpanel]
      -- A tick that goes on writes nothing, on both consoles.
      by_cases hhalted : c.tick.panel.machine.isHalted
      · rw [if_pos hhalted] at hserve
        exact (if_pos hhalted).trans ((congrArg some hserve).trans (if_pos hhalted).symm)
      · exact (if_neg hhalted).trans (if_neg hhalted).symm
  | press | step | toggleBreakpoint | reset => exact congrArg some hserve

/-! ## Being resumed -/

/-- The console with another answer to whether the machine is being resumed. -/
def withResuming (c : Console) (resuming : Bool) : Console :=
  { c with resuming }

/-- A machine that stands stays so without the key that starts it. -/
theorem state_serve_of_halted (h : c.panel.machine.state = .halted) {request : Request}
    (hstart : request ≠ .press .start) : (c.serve request).panel.machine.state = .halted := by
  cases request with
  | press button =>
    have hbutton : button ≠ .start := fun e => hstart (by rw [e])
    have hstate := c.panel.state_press button
    rw [if_neg hbutton, h, ite_self] at hstate
    exact hstate
  | step => exact c.state_step.mpr (.inl h)
  | tick => rwa [serve, tick_of_halted h]
  | toggleBreakpoint => rwa [serve, panel_toggleBreakpoint]
  | reset => exact FrontPanel.state_press _ .stop
  | window lines => rwa [serve, window_eq]

/-- Whether a machine that stands was being resumed (`withResuming`) shows in no request. A button
    decides it anew, and everything else leaves it. -/
theorem serve_withResuming (h : c.panel.machine.state = .halted) (resuming : Bool)
    (request : Request) :
    ∃ after, (c.withResuming resuming).serve request = (c.serve request).withResuming after ∧
      (request = .press .start → after = (c.serve request).resuming) := by
  cases request with
  | press button => exact ⟨(c.press button).resuming, rfl, fun _ => rfl⟩
  | step => exact ⟨resuming, rfl, by simp⟩
  | tick =>
    refine ⟨resuming, ?_, by simp⟩
    rw [serve, serve, tick_of_halted h, tick_of_halted (c := c.withResuming resuming) h]
  | toggleBreakpoint =>
    refine ⟨resuming, ?_, by simp⟩
    show (c.withResuming resuming).toggleBreakpoint = c.toggleBreakpoint.withResuming resuming
    by_cases hset : c.breakpoints.contains c.panel.machine.bank.p
    · simp [toggleBreakpoint, withResuming, hset]
    · simp [toggleBreakpoint, withResuming, hset]
  | reset => exact ⟨resuming, rfl, by simp⟩
  | window lines =>
    refine ⟨resuming, ?_, by simp⟩
    rw [serve, serve, window_eq, window_eq]

theorem written_withResuming (h : c.panel.machine.state = .halted) (resuming : Bool)
    (request : Request) : (c.withResuming resuming).written request = c.written request := by
  obtain ⟨after, hserve, -⟩ := serve_withResuming h resuming request
  have hstatus := congrArg (·.status) hserve
  cases request with
  | window lines => rfl
  | tick => simp [written, withResuming, Machine.isRunning, h]
  | press | step | toggleBreakpoint | reset => exact congrArg some hstatus

/-! ## Consoles that nobody tells apart -/

variable (c d)

/-- Two consoles that differ in the status line and the place of the memory view at most, and,
    where the machine stands, in whether it was being resumed. -/
structure Alike : Prop where
  same : ∃ status scroll resuming, d = (c.withResuming resuming).showing status scroll
  resuming : c.panel.machine.state = .running → d.resuming = c.resuming

variable {c d}

/-- Consoles that are `Alike` show the same (`sight`) on every request, and are alike after it. -/
theorem Alike.serve (h : c.Alike d) (request : Request) :
    (c.serve request).Alike (d.serve request) ∧ d.sight request = c.sight request := by
  obtain ⟨⟨status, scroll, resuming, rfl⟩, hresuming⟩ := h
  have hshown := (c.withResuming resuming).serve_showing status scroll request
  have hwritten := written_showing (c := c.withResuming resuming) status scroll request
  cases hm : c.panel.machine.state with
  | running =>
    -- Both machines are being resumed or neither, so the status line is all that differs.
    obtain rfl : resuming = c.resuming := hresuming hm
    refine ⟨⟨⟨_, _, (c.serve request).resuming, hshown⟩, ?_⟩, ?_⟩
    · exact fun _ => congrArg (·.resuming) hshown
    unfold sight
    rw [hwritten, hshown]
    rfl
  | halted =>
    obtain ⟨after, hserve, hafter⟩ := serve_withResuming hm resuming request
    rw [hserve] at hshown
    refine ⟨⟨⟨_, _, after, hshown⟩, fun hruns => ?_⟩, ?_⟩
    · -- The machine runs, so it was started by the one key that can.
      have hstart : request = .press .start := by
        by_contra hother
        rw [state_serve_of_halted hm hother] at hruns
        cases hruns
      rw [hshown]
      exact hafter hstart
    · unfold sight
      rw [hwritten, written_withResuming hm, hshown]
      rfl

theorem Alike.sights (h : c.Alike d) (requests : List Request) :
    d.sights requests = c.sights requests := by
  induction requests generalizing c d with
  | nil => rfl
  | cons request rest ih =>
    obtain ⟨halike, hsight⟩ := h.serve request
    rw [Console.sights, Console.sights, hsight, ih halike]

/-! ## Reset -/

/-- No request changes what a reset loads. -/
theorem settings_serve (c : Console) (request : Request) :
    (c.serve request).program = c.program ∧ (c.serve request).config = c.config := by
  cases request with
  | tick =>
    rw [serve, tick_eq]
    split
    · exact ⟨rfl, rfl⟩
    · split
      · exact ⟨rfl, rfl⟩
      · exact guarded_keeps (P := fun k => k.program = c.program ∧ k.config = c.config)
          (fun _ h => h) (fun _ _ h => h) (fun _ h => h) _ _ ⟨rfl, rfl⟩
  | toggleBreakpoint =>
    unfold serve toggleBreakpoint
    dsimp only
    split <;> exact ⟨rfl, rfl⟩
  | press | step | reset | window => exact ⟨rfl, rfl⟩

/-- What a reset starts from is the same at any time. -/
theorem settings_serveAll (program : Image) (config : Config) (requests : List Request) :
    ((new program config).serveAll requests).program = program ∧
      ((new program config).serveAll requests).config = config ∧
      ((new program config).serveAll requests).panel.machine.journal = .off := by
  have hnew : (new program config).panel.machine.journal = .off := journal_resetPanel program config
  refine List.foldlRecOn (motive := fun c => c.program = program ∧ c.config = config ∧
    c.panel.machine.journal = .off) requests serve ⟨rfl, rfl, hnew⟩ ?_
  rintro c ⟨hprogram, hconfig, hjournal⟩ request -
  obtain ⟨hprogram', hconfig'⟩ := c.settings_serve request
  refine ⟨hprogram'.trans hprogram, hconfig'.trans hconfig, ?_⟩
  refine Machine.invariant_off.serveConsole hjournal ?_ request
  rw [reset, hjournal]
  exact journal_resetPanel c.program c.config

/-- A `reset` forgets everything but the breakpoints. Whatever was done with a console before, the
    reset leaves the panel of a new console, and no requests that follow show anything (`sights`)
    but what they show on a new console with the same breakpoints, though the reset keeps
    `resuming`. A request that writes the status writes the one that is shown (`written`), whatever
    it was before, and any other request leaves it. -/
theorem reset_forgets (program : Image) (config : Config) (earlier later : List Request) :
    let c := (new program config).serveAll earlier
    let fresh := { new program config with breakpoints := c.breakpoints }
    c.reset.panel = fresh.panel ∧ c.reset.breakpoints = fresh.breakpoints ∧
      c.reset.resuming = c.resuming ∧ c.reset.sights later = fresh.sights later ∧
      ∀ (k : Console) (status : Status) (scroll : Nat) (request : Request),
        (k.showing status scroll).serve request =
          (k.serve request).showing ((k.written request).getD status) scroll := by
  intro c fresh
  obtain ⟨hprogram, hconfig, hjournal⟩ := settings_serveAll program config earlier
  have hpanel : c.reset.panel = fresh.panel := by
    show resetPanel c.program c.config c.panel.machine.journal = resetPanel program config .off
    rw [hprogram, hconfig, hjournal]
  have halike : fresh.Alike c.reset := by
    refine ⟨⟨.reset, c.scroll, c.resuming, ?_⟩, fun hruns => ?_⟩
    · unfold reset
      rw [hprogram, hconfig, hjournal]
      rfl
    · have hstands : fresh.panel.machine.state = .halted := FrontPanel.state_press _ .stop
      rw [hstands] at hruns
      cases hruns
  exact ⟨hpanel, rfl, rfl, halike.sights later, serve_showing⟩

/-- A machine that is started and then reset stands, and is still being resumed. -/
example : ((new {} {}).serveAll [.press .start, .reset]).resuming = true := rfl

end Console
end Kenbak1
