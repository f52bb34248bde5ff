/-
  Kenbak1.Proofs.Machine.Quiet

  A machine without its journal. The journal is written and never read, so it can be switched off
  (`quiet`) before anything is done to a machine or a panel, or forgotten behind it (`step_quiet`,
  `pressAll_quiet`). What holds where nothing is noted holds everywhere, the journal apart.
-/
import Kenbak1.FrontPanel
import Kenbak1.Proofs.Machine.Steps

namespace Kenbak1

/-! ## Machines -/

namespace Machine

variable {β σ : Type} [Bus β] [Observer σ] (m : Machine β)

/-- The machine with its journal switched off, and nothing noted in it. -/
def quiet {β : Type} (m : Machine β) : Machine β :=
  { m with journal := .off }

omit [Bus β] in
/-- Nothing is noted where the journal is switched off. -/
theorem note_of_off {m : Machine β} (h : m.journal = .off) (e : Entry) : m.note e = m := by
  unfold note
  rw [h, Journal.note_off, ← h]

/-- No access notices that the journal is gone. -/
theorem transparent_quiet : Transparent (quiet : Machine β → Machine β) where
  bank _ := rfl
  setBank _ _ := rfl
  setState _ _ := rfl
  note _ _ := rfl
  readByte m a := by
    unfold readByte
    cases Register.ofAddress? a <;> rfl
  writeByte m a v := by
    unfold writeByte
    cases Register.ofAddress? a <;> rfl

theorem step_quiet (o : σ) :
    m.quiet.step o = { m.step o with machine := (m.step o).machine.quiet } := by
  cases h : m.state with
  | halted =>
    rw [step_of_halted h, step_of_halted (m := m.quiet) h]
    rfl
  | running =>
    rw [step_of_running h, step_of_running (m := m.quiet) h, transparent_quiet.executeNext]
    rfl

theorem next_quiet : m.quiet.next = m.next.quiet :=
  congrArg Turn.machine (m.step_quiet ())

theorem showLatched_quiet : m.quiet.showLatched = m.showLatched.quiet := by
  unfold showLatched
  rw [transparent_quiet.readByte]
  rfl

theorem storeInput_quiet : m.quiet.storeInput = m.storeInput.quiet := by
  unfold storeInput
  rw [transparent_quiet.writeByte]
  rfl

end Machine

/-! ## Panels -/

namespace FrontPanel

variable {β : Type}

/-- The panel of the machine with its journal switched off. -/
def quiet (panel : FrontPanel β) : FrontPanel β :=
  { panel with machine := panel.machine.quiet }

variable [Bus β] (panel : FrontPanel β)

theorem step_quiet : panel.quiet.step.2 = panel.step.2.quiet := by
  unfold step quiet
  rw [Machine.step_quiet]
  rfl

theorem press_quiet (button : Button) : panel.quiet.press button = (panel.press button).quiet := by
  cases button with
  | bit | clear | display | set | start | stop => rfl
  | read =>
    have hshown := (panel.machine.note (.pressed .read)).showLatched_quiet
    exact congrArg (panel.showRegister · .memory .out) hshown
  | store =>
    have hstored := (panel.machine.note (.pressed .store)).storeInput_quiet
    exact congrArg (panel.showRegister · .memory .out) hstored

theorem pressAll_append (first second : List Button) :
    panel.pressAll (first ++ second) = (panel.pressAll first).pressAll second :=
  List.foldl_append

theorem pressAll_quiet (buttons : List Button) :
    panel.quiet.pressAll buttons = (panel.pressAll buttons).quiet := by
  induction buttons generalizing panel with
  | nil => rfl
  | cons button rest ih =>
    show (panel.quiet.press button).pressAll rest = ((panel.press button).pressAll rest).quiet
    rw [press_quiet, ih]

/-- `pressAll` does not switch a journal on. -/
theorem off_pressAll {panel : FrontPanel β} (h : panel.machine.journal = .off)
    (buttons : List Button) : (panel.pressAll buttons).machine.journal = .off := by
  have hquiet : panel.quiet = panel := by
    unfold quiet Machine.quiet
    rw [← h]
  rw [← hquiet, pressAll_quiet]
  rfl

end FrontPanel
end Kenbak1
