/-
  Kenbak1.Proofs.Command.Paths

  The two ways to run a program: `traced`, instruction by instruction with a line for each, and
  `plain`, all at once in bursts.

    * `trace_eq_steps` — a trace stops at its limit whatever the settings are.
    * `plain_agrees` — where an instruction costs something, bursts do what a trace does (`Agree`).
    * `plain_overshoots` — where it costs nothing, a burst of a positive size runs on to the next
      halt, behind the limit or forever.
-/
import Kenbak1.Command.Run
import Kenbak1.Proofs.Machine.Free
import Kenbak1.Proofs.Machine.Plain

namespace Kenbak1
namespace Run

/-! ## Instruction by instruction -/

/-- A line changes nothing: behind `traceStep` the machine and its observer go on as behind a bare
    `step`. -/
theorem traceStep_eq_step {σ : Type} [Observer σ] (m : Machine Memory) (o : σ) :
    (traceStep m o).machine = (m.step o).machine ∧
      (traceStep m o).observer = (m.step o).observer := by
  have hline : (m.disassembleAt m.bank.p).2 = m := Machine.disassembleAt_plain m m.bank.p
  exact ⟨congrArg (fun k => (k.step o).machine) hline, congrArg (fun k => (k.step o).observer) hline⟩

/-- While the machine runs, a trace goes on behind its first row as after a bare step. -/
theorem trace_of_running {σ : Type} [Observer σ] {limit : Nat} {rows : Array TraceRow}
    {m : Machine Memory} {o : σ} (h : m.state = .running) :
    trace (limit + 1) rows m o =
      trace limit (rows.push (traceStep m o).value) m.next (m.step o).observer := by
  obtain ⟨hmachine, hobserver⟩ := traceStep_eq_step m o
  have hnext : (m.step o).machine = m.next := (Machine.step_unwatched m o).2
  rw [trace_succ, if_pos (by simp [Machine.isRunning, h])]
  dsimp only
  rw [hmachine, hobserver, hnext]

/-- A `trace` takes the `steps` up to its limit, the cycles left apart, and has a row for each
    instruction. -/
theorem trace_eq_steps {σ : Type} [Observer σ] (limit : Nat) (rows : Array TraceRow)
    (m : Machine Memory) (o : σ) :
    (trace limit rows m o).machine.withBudget 0 = (m.after limit).withBudget 0 ∧
      (trace limit rows m o).observer = (m.steps limit o).2 ∧
      (trace limit rows m o).value.size
        = rows.size + ((m.after limit).executed - m.executed) := by
  induction limit generalizing rows m o with
  | zero =>
    rw [Machine.after_zero, Nat.sub_self]
    exact ⟨rfl, rfl, rfl⟩
  | succ limit ih =>
    cases hm : m.state with
    | halted =>
      have hstop : trace (limit + 1) rows m o
          = { value := rows, machine := m, observer := o } := by
        rw [trace_succ, if_neg (by simp [Machine.isRunning, hm])]
      obtain ⟨hmachine, hobserver⟩ := Machine.steps_quiet_of_halted hm (limit + 1) o
      have hcount := Machine.executed_eq_of_withBudget hmachine
      rw [hstop, hmachine, hobserver, hcount, Nat.sub_self]
      exact ⟨rfl, rfl, rfl⟩
    | running =>
      -- The row that is pushed counts the instruction that the step counts.
      have hnext : (m.step o).machine = m.next := (Machine.step_unwatched m o).2
      obtain ⟨hend, hsays, hsize⟩ :=
        ih (rows.push (traceStep m o).value) m.next (m.step o).observer
      have hcount := Machine.executed_next_of_running hm
      have hmono := Machine.executed_le_after m.next limit
      rw [trace_of_running hm, Machine.after_succ, Machine.steps, hnext]
      refine ⟨hend, hsays, ?_⟩
      rw [hsize, Array.size_push]
      omega

/-! ## What is in view -/

/-- Two runs with the same result: as many instructions, the same run state, registers and
    memory, and the same lamp patterns. Rows, and cycles left, may differ. -/
structure Agree (o o' : Outcome) : Prop where
  executed : o.executed = o'.executed
  state : o.machine.state = o'.machine.state
  bank : o.machine.bank = o'.machine.bank
  bus : o.machine.bus = o'.machine.bus
  lamps : lampHistory o.recorder = lampHistory o'.recorder

/-- The bursts of a run, however many instructions they go on for, end with an outcome: the loop
    `Machine.Bursts` has no bound. -/
def PlainEnds (m : Machine Memory) (burst : Int) (limit : Nat) (o : Outcome) : Prop :=
  o.rows = #[] ∧ Machine.Bursts burst limit 0 m ({} : Recorder)
    { value := o.executed, machine := o.machine, observer := o.recorder }

/-! ## Both ways compared -/

variable {m : Machine Memory} {burst : Int} {limit : Nat}

theorem executed_traced (m : Machine Memory) (limit : Nat) :
    (traced m limit).executed = (m.after limit).executed - m.executed := by
  have hsize := (trace_eq_steps limit #[] m ({} : Recorder)).2.2
  rw [Array.size_empty, Nat.zero_add] at hsize
  exact hsize

theorem executed_traced_le (m : Machine Memory) (limit : Nat) :
    (traced m limit).executed ≤ limit := by
  have hcount := Machine.executed_after_le m limit
  rw [executed_traced]
  omega

theorem state_traced (m : Machine Memory) (limit : Nat) :
    (traced m limit).machine.state = (m.after limit).state :=
  Machine.state_eq_of_withBudget (trace_eq_steps limit #[] m ({} : Recorder)).1

/-- Bursts that come to the steps up to their limit leave in view what a trace leaves. -/
theorem agree_of_runBursts_eq
    (h : (m.runBursts burst limit ({} : Recorder)).withBudget 0 =
      { value := (m.after limit).executed - m.executed
        machine := (m.after limit).withBudget 0
        observer := (m.steps limit ({} : Recorder)).2 }) :
    Agree (traced m limit) (plain m burst limit) := by
  obtain ⟨hmachine, hobserver, -⟩ := trace_eq_steps limit #[] m ({} : Recorder)
  have hvalue := congrArg Turn.value h
  have hend := congrArg Turn.machine h
  have hsays := congrArg Turn.observer h
  have hsame := hmachine.trans hend.symm
  have hstate := congrArg Machine.state hsame
  have hbank := congrArg Machine.bank hsame
  have hbus := congrArg Machine.bus hsame
  exact
    { executed := (executed_traced m limit).trans hvalue.symm
      state := hstate
      bank := hbank
      bus := hbus
      lamps := congrArg lampHistory (hobserver.trans hsays.symm) }

/-- Where an instruction costs something, or a burst is empty and executes one instruction, or there
    is nothing to execute, or the program halts within the limit, bursts end and leave in view what
    a trace leaves (`Agree`). -/
theorem plain_agrees (hsize : limit < UInt64.size)
    (h : m.cost ≠ 0 ∨ burst ≤ 0 ∨ limit = 0 ∨ (traced m limit).machine.state = .halted) :
    PlainEnds m burst limit (plain m burst limit) ∧
      Agree (traced m limit) (plain m burst limit) := by
  by_cases hbound : 1 ≤ m.cost ∨ burst ≤ 0
  · exact ⟨⟨rfl, Machine.bursts_runBursts burst hbound limit _⟩,
      agree_of_runBursts_eq (Machine.runBursts_eq_steps burst hbound limit _)⟩
  -- Instructions cost nothing and bursts are not empty: only the limit or a halt is left.
  · obtain ⟨hcost, hburst⟩ := not_or.mp hbound
    have hfree : m.cost = 0 := by omega
    by_cases hl : limit = 0
    · subst hl
      have hidle := Machine.runBursts_idle (m := m) (.inr rfl) burst ({} : Recorder)
      refine ⟨⟨rfl, ?_⟩, agree_of_runBursts_eq ?_⟩
      · unfold plain
        rw [hidle]
        exact .done (by omega)
      · rw [hidle, Machine.after_zero, Nat.sub_self]
        rfl
    · have hhalted : (traced m limit).machine.state = .halted := by
        rcases h with h | h | h | h
        · exact absurd hfree h
        · exact absurd h hburst
        · exact absurd h hl
        · exact h
      rw [state_traced] at hhalted
      obtain ⟨hends, hsame⟩ :=
        Machine.runBursts_of_free hfree (not_le.mp hburst) hl hhalted hsize ({} : Recorder)
      exact ⟨⟨rfl, hends⟩, agree_of_runBursts_eq hsame⟩

/-- In all other settings bursts go on behind the limit, and end only with a halt (`PlainEnds`). -/
theorem plain_overshoots
    (h : ¬ (m.cost ≠ 0 ∨ burst ≤ 0 ∨ limit = 0 ∨
      (traced m limit).machine.state = .halted)) :
    (∀ o, PlainEnds m burst limit o → limit < o.executed) ∧
      ((∃ o, PlainEnds m burst limit o) ↔ ∃ n, (m.after n).state = .halted) := by
  simp only [not_or, not_not, not_le] at h
  obtain ⟨hfree, hburst, hl, hgoes⟩ := h
  rw [state_traced] at hgoes
  have hlong := Machine.running_of_not_halted hgoes
  have hends := Machine.exists_bursts_iff_of_free (Machine.running_of_after hlong) hfree hburst hl
    ({} : Recorder)
  refine ⟨fun o ho => ho.2.overshoots hfree hburst hl hlong, ?_⟩
  rw [← hends]
  constructor
  · rintro ⟨o, ho⟩
    exact ⟨_, ho.2⟩
  · rintro ⟨turn, hturn⟩
    exact ⟨{ executed := turn.value, machine := turn.machine, recorder := turn.observer },
      rfl, hturn⟩

/-- An instruction costs what the settings say. -/
theorem cost_start (image : Image) (config : Config) (input : Option UInt8) :
    (start image config input).cost = config.cyclesPerInstruction.toNat := by
  cases input <;> rfl

/-- The two ways to run a program agree (`Agree`) exactly if an instruction costs something, or a
    burst is empty, or the limit is zero, or the program halts within the limit. A trace never goes
    behind the limit. Where the two agree the bursts have one outcome (`PlainEnds`), and elsewhere
    they go behind the limit, up to a halt or forever. -/
theorem outcomes_agree_iff (image : Image) (config : Config) (options : RunOptions)
    (limit : UInt64) :
    let m := start image config options.input
    let burst := config.burstCycles.toInt
    let rowByRow := outcome image config { options with limit := limit.toNat, trace := true }
    let atOnce := outcome image config { options with limit := limit.toNat, trace := false }
    let within := config.cyclesPerInstruction ≠ 0 ∨ burst ≤ 0 ∨ limit = 0 ∨
      rowByRow.machine.state = .halted
    rowByRow.executed ≤ limit.toNat ∧
    ((∃ o, PlainEnds m burst limit.toNat o ∧ Agree rowByRow o) ↔ within) ∧
    (within → (∀ o, PlainEnds m burst limit.toNat o ↔ o = atOnce) ∧ Agree rowByRow atOnce) ∧
    (¬ within → (∀ o, PlainEnds m burst limit.toNat o → limit.toNat < o.executed) ∧
      ((∃ o, PlainEnds m burst limit.toNat o) ↔ ∃ n, (m.after n).state = .halted)) := by
  intro m burst rowByRow atOnce within
  have hle : rowByRow.executed ≤ limit.toNat := executed_traced_le m limit.toNat
  have hwithin : within ↔ (m.cost ≠ 0 ∨ burst ≤ 0 ∨ limit.toNat = 0 ∨
      (traced m limit.toNat).machine.state = .halted) := by
    have hcost : m.cost ≠ 0 ↔ config.cyclesPerInstruction ≠ 0 := by
      rw [show m.cost = config.cyclesPerInstruction.toNat from
        cost_start image config options.input, Ne, Ne, ← UInt32.toNat_inj]
      rfl
    have hzero : limit.toNat = 0 ↔ limit = 0 := by
      rw [← UInt64.toNat_inj]
      rfl
    rw [hcost, hzero]
    rfl
  have hagree := fun h : within => plain_agrees (limit.toNat_lt) (hwithin.mp h)
  have hover := fun h : ¬ within => plain_overshoots (mt hwithin.mpr h)
  refine ⟨hle, ⟨?_, fun h => ⟨atOnce, hagree h⟩⟩, fun h => ⟨fun o => ⟨fun ho => ?_, ?_⟩, ?_⟩, hover⟩
  · rintro ⟨o, hends, hsame⟩
    -- Bursts that go behind the limit count more instructions than any trace.
    by_contra hnot
    have hlt := (hover hnot).1 o hends
    have heq := hsame.executed
    omega
  · obtain ⟨hrows, hbursts⟩ := ho
    have hturn := hbursts.unique (hagree h).1.2
    simp only [Turn.mk.injEq] at hturn
    obtain ⟨hexecuted, hmachine, hrecorder⟩ := hturn
    cases o
    cases hrows
    cases hexecuted
    cases hmachine
    cases hrecorder
    rfl
  · rintro rfl
    exact (hagree h).1
  · exact (hagree h).2

/-- Five instructions that cost nothing, the last of them a halt, and a limit of two: a trace
    executes two of them, bursts execute all five. -/
theorem outcomes_differ_where_free :
    let image : Image :=
      { cells := [(0o004, 0o200), (0o005, 0o200), (0o006, 0o200), (0o007, 0o200), (0o010, 0)] }
    let config : Config := { cyclesPerInstruction := 0 }
    let options : RunOptions := { program := "p.kbk", limit := 2 }
    let m := start image config options.input
    let rowByRow := outcome image config { options with trace := true }
    ∃ o, PlainEnds m config.burstCycles.toInt options.limit o ∧
      o.executed = 5 ∧ rowByRow.executed = 2 ∧ ¬ Agree rowByRow o := by
  intro image config options m rowByRow
  have hburst : (0 : Int) < 20000 := by decide
  have hlimit : 2 ≠ 0 := by decide
  have hhalts : (m.after 5).state = .halted := by decide +kernel
  obtain ⟨hends, hturn⟩ :=
    Machine.runBursts_of_free (m := m) rfl hburst hlimit hhalts (by decide) ({} : Recorder)
  have hfive : (plain m 20000 2).executed = 5 := by
    have hvalue := congrArg Turn.value hturn
    have hcount : (m.after 5).executed - m.executed = 5 := by decide +kernel
    exact hvalue.trans hcount
  have htwo : rowByRow.executed = 2 := by decide +kernel
  refine ⟨plain m 20000 2, ⟨rfl, hends⟩, hfive, htwo, fun h => ?_⟩
  have heq := h.executed
  rw [hfive, htwo] at heq
  cases heq

end Run
end Kenbak1
