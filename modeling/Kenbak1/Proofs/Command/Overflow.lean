/-
  Kenbak1.Proofs.Command.Overflow

  Programs run from the command line with counters of 64 bits. The program runs `tryOutcome`:

    * `comes_tryTraced` — a trace breaks off where one of its bare steps does, `limit` of them at
      most.
    * `tryOutcome_eq_outcome` — what does not break off is the `outcome` that the other results
      about the command line are about.
-/
import Kenbak1.Proofs.Command.Paths
import Kenbak1.Proofs.Machine.Overflow

namespace Kenbak1
namespace Run

open Machine (Comes overflowWithin)

/-! ## Traces -/

section Traces

variable {σ : Type} [Observer σ]

/-- Listing an instruction takes nothing from the counters. -/
theorem comes_traceStepBy (m : Machine Memory) (o : σ) :
    Comes (traceStepBy Machine.tryStep m o) m.overflow? (traceStep m o) := by
  have hline : (m.disassembleAt m.bank.p).2 = m := m.disassembleAt_plain m.bank.p
  have hstep := Machine.comes_tryStep (m.disassembleAt m.bank.p).2 o
  rw [congrArg Machine.overflow? hline] at hstep
  exact hstep.bind_pure _

theorem comes_traceBy (limit : Nat) (rows : Array TraceRow) (m : Machine Memory) (o : σ) :
    Comes (traceBy Machine.tryStep limit rows m o) (overflowWithin limit m)
      (trace limit rows m o) := by
  induction limit generalizing rows m o with
  | zero => exact .ok _
  | succ limit ih =>
    rw [traceBy, trace_succ]
    cases hm : m.state with
    | halted =>
      have hstands : ¬ m.isRunning = true := by simp [Machine.isRunning, hm]
      rw [if_neg hstands, if_neg hstands, Machine.overflowWithin_of_halted hm]
      exact .ok _
    | running =>
      have hruns : m.isRunning = true := by simp [Machine.isRunning, hm]
      have hnext : (traceStep m o).machine = m.next :=
        (traceStep_eq_step m o).1.trans (Machine.step_unwatched m o).2
      have hrest := ih (rows.push (traceStep m o).value) (traceStep m o).machine
        (traceStep m o).observer
      rw [if_pos hruns, if_pos hruns, overflowWithin, ← hnext]
      exact (comes_traceStepBy m o).bind hrest

end Traces

theorem comes_tryTraced (m : Machine Memory) (limit : Nat) :
    Comes (tryTraced m limit) (overflowWithin limit m) (traced m limit) :=
  (comes_traceBy limit #[] m ({} : Recorder)).map Outcome.ofTrace

/-! ## Outcomes -/

theorem exists_comes_tryPlain (m : Machine Memory) (burst : Int) (limit : Nat) :
    ∃ overflow, Comes (tryPlain m burst limit) overflow (plain m burst limit) := by
  obtain ⟨overflow, hbursts⟩ := m.exists_comes_tryRunBursts burst limit ({} : Recorder)
  exact ⟨overflow, hbursts.map Outcome.ofBursts⟩

/-- A run that does not break off ends with its outcome. -/
theorem tryOutcome_eq_outcome {image : Image} {config : Config} {options : RunOptions}
    {o : Outcome} (h : tryOutcome image config options = .ok o) :
    o = outcome image config options := by
  have hcomes : ∃ overflow,
      Comes (tryOutcome image config options) overflow (outcome image config options) := by
    unfold tryOutcome outcome
    dsimp only
    split
    · exact ⟨_, comes_tryTraced _ options.limit⟩
    · exact exists_comes_tryPlain _ _ options.limit
  obtain ⟨overflow, hcomes⟩ := hcomes
  exact ((hcomes.eq_ok_iff o).mp h).2

end Run
end Kenbak1
