/-
  Kenbak1.Proofs.Console.Panel

  What the console does with its panel. `Machine.disassembleAt` and `Machine.window` read plain
  memory and leave the panel as it was (`window_plain`), so `panel_step` can say what a single step
  comes to: a start (`ready`), a step and a stop.
-/
import Kenbak1.Console
import Kenbak1.Proofs.Machine.Plain

namespace Kenbak1

namespace Machine

/-! ## Windows -/

theorem windowFrom_plain (m : Machine Memory) (count : Nat) (address : UInt8) :
    (windowFrom count address m).2 = m := by
  induction count generalizing address with
  | zero => rfl
  | succ count ih =>
    simp only [windowFrom, disassembleAt_plain]
    split
    · exact ih _
    · rfl

@[simp] theorem window_plain (m : Machine Memory) (lines : Nat) : (m.window lines).2 = m :=
  windowFrom_plain m lines _

@[simp] theorem readEach_plain (m : Machine Memory) (addresses : List UInt8) :
    (m.readEach addresses).2 = m := by
  induction addresses with
  | nil => rfl
  | cons a rest ih => simp only [readEach, readByte_plain, ih]

/-- Reading plain memory, each byte is read from the same machine. -/
theorem readEach_eq_map (m : Machine Memory) (addresses : List UInt8) :
    (m.readEach addresses).1 = addresses.map fun a => (m.readByte a).1 := by
  induction addresses with
  | nil => rfl
  | cons a rest ih => simp only [readEach, readByte_plain, ih, List.map_cons]

end Machine

namespace Console

variable (c : Console)

@[simp] theorem window_eq (lines : Nat) : (c.window lines).2 = c := by
  simp only [window, Machine.window_plain]

/-! ## Single steps -/

/-- The panel from which a single step is taken: started if the machine stands. -/
def ready : FrontPanel Memory :=
  if c.panel.machine.isHalted then c.panel.setHalt false else c.panel

/-- A single `step` of a machine that stood (`ready`) ends with a stop, unless the instruction was
    one. -/
theorem panel_step :
    c.step.panel =
      if c.panel.machine.isHalted && c.ready.step.2.machine.isRunning then
        c.ready.step.2.setHalt true
      else c.ready.step.2 := by
  unfold step stepBy
  simp only [Machine.disassembleAt_plain]
  rfl

/-! ## Breakpoints -/

@[simp] theorem panel_toggleBreakpoint : c.toggleBreakpoint.panel = c.panel := by
  unfold toggleBreakpoint
  dsimp only
  split <;> rfl

@[simp] theorem resuming_toggleBreakpoint : c.toggleBreakpoint.resuming = c.resuming := by
  unfold toggleBreakpoint
  dsimp only
  split <;> rfl

@[simp] theorem config_toggleBreakpoint : c.toggleBreakpoint.config = c.config := by
  unfold toggleBreakpoint
  dsimp only
  split <;> rfl

end Console
end Kenbak1
