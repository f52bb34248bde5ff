/-
  Kenbak1.Proofs.Console.SingleStep

  What a single step reports. `Console.step` reads the line after the instruction was executed, in
  memory that the instruction may have changed (`status_step`). So the status shows the instruction
  executed, unless the instruction stores a byte over itself. The other two ways to step through a
  program, `Remote.step` and `Run.traceStep`, read the line before.
-/
import Kenbak1.Command.Run
import Kenbak1.Proofs.Console.Reset
import Kenbak1.Proofs.Machine.Stores
import Kenbak1.Remote

namespace Kenbak1
namespace Console

variable (c : Console)

/-- Starting a machine that stands changes no byte. -/
theorem disassembleAt_ready (a : UInt8) :
    (c.ready.machine.disassembleAt a).1 = (c.panel.machine.disassembleAt a).1 := by
  refine Machine.disassembleAt_congr _ fun _ => ?_
  have hread : ∀ b, (c.ready.machine.readByte b).1 = (c.panel.machine.readByte b).1 := by
    intro b
    unfold ready
    split
    · apply Machine.readByte_congr <;> rfl
    · rfl
  exact ⟨hread a, hread (a + 1)⟩

theorem p_ready : c.ready.machine.bank.p = c.panel.machine.bank.p := by
  unfold ready
  split <;> rfl

/-- The status after a single `step` shows the line at P with the byte stored that the instruction
    stores (`Machine.stored`). -/
theorem status_step :
    c.step.status = .stepped c.panel.machine.bank.p
      (c.ready.machine.stored.disassembleAt c.panel.machine.bank.p).1.text := by
  rw [step_eq]
  dsimp only
  rw [FrontPanel.machine_step, Machine.disassembleAt_next _ c.state_ready]

/-- A single `step` executes one instruction and reports the line at P as it is when the byte is
    stored that the instruction stores (`Machine.stored`). This is the line of the instruction
    executed exactly if the store leaves the line as it was; so it is if the instruction stores
    nothing, or neither at its opcode nor behind it (`storesNext`). `Remote.step` and
    `Run.traceStep` have the line of the instruction executed in every case. -/
theorem step_reports_executed_iff (c : Console) :
    let p := c.panel.machine.bank.p
    let before := (c.panel.machine.disassembleAt p).1.text
    let after := (c.ready.machine.stored.disassembleAt p).1.text
    c.ready.machine.Executes c.step.panel.machine 1 ∧
      c.step.status.text = "P=" ++ octal p ++ ": " ++ after ∧
      (c.step.status = .stepped p before ↔ after = before) ∧
      ((∀ cell ∈ c.ready.machine.storesNext, cell.1 ≠ p ∧ cell.1 ≠ p + 1) →
        c.step.status = .stepped p before) ∧
      (∀ program, (Remote.step { panel := c.ready, program }).1 = .ok before) ∧
      (∀ {σ : Type} [Observer σ] (o : σ), (Run.traceStep c.ready.machine o).value.text = before) := by
  intro p before after
  have hstatus : c.step.status = .stepped p after := c.status_step
  have hbefore : (c.ready.machine.disassembleAt c.ready.machine.bank.p).1.text = before := by
    rw [disassembleAt_ready, p_ready]
  have hruns : c.ready.machine.isRunning = true := decide_eq_true c.state_ready
  refine ⟨c.executes_step, ?_, ?_, ?_, ?_, ?_⟩
  · rw [hstatus]
    rfl
  · rw [hstatus, Status.stepped.injEq]
    exact and_iff_right rfl
  -- A store to neither byte of the instruction leaves its line.
  · intro hapart
    have hkept : after = before := by
      show (c.ready.machine.stored.disassembleAt p).1.text = before
      rw [Machine.disassembleAt_stored _ hapart, disassembleAt_ready]
    rw [hstatus, hkept]
  · intro program
    have hvalue : (Remote.step { panel := c.ready, program }).1 =
        .ok (c.ready.machine.disassembleAt c.ready.machine.bank.p).1.text := by
      rw [Remote.step_eq, if_pos hruns]
    rw [hvalue, hbefore]
  · intro σ _ o
    exact hbefore

/-- A program that stores A over its first instruction: the step executes the store and reports the
    halt that it leaves there. -/
theorem step_reports_overwritten :
    let c := new { cells := [(4, 0o034), (5, 0o004), (6, 0)] } {}
    (c.panel.machine.disassembleAt 4).1.text = "store 004 A" ∧
      c.step.status.text = "P=004: halt" ∧
      ¬ ∀ c : Console,
        c.step.status = .stepped c.panel.machine.bank.p
          (c.panel.machine.disassembleAt c.panel.machine.bank.p).1.text := by
  intro c
  have hbefore : (c.panel.machine.disassembleAt 4).1.text = "store 004 A" := by decide +kernel
  have hstatus : c.step.status = .stepped 4 "halt" := by decide +kernel
  refine ⟨hbefore, by rw [hstatus]; decide +kernel, fun h => ?_⟩
  have hp : c.panel.machine.bank.p = 4 := by decide +kernel
  have hreported := h c
  rw [hp, hbefore, hstatus, Status.stepped.injEq] at hreported
  exact absurd hreported.2 (by decide)

end Console
end Kenbak1
