/-
  Kenbak1.Proofs.Machine.Counts

  Counting instructions. `Executes` relates a machine to the one that it has become by a number of
  instructions. Its count grows by one with each step it takes while it runs
  (`executed_after_of_running`), and with nothing else that is done to it: reading, writing, buttons
  and notices leave it alone, as they leave the cost of an instruction.
-/
import Kenbak1.FrontPanel
import Kenbak1.Proofs.Machine.Steps

namespace Kenbak1
namespace Machine

variable {β : Type} [Bus β]

/-! ## Instructions one after another -/

/-- A machine comes from another by `n` instructions: the other one runs up to the last of
    them, and they leave these registers, this memory and this count. -/
structure Executes (m k : Machine β) (n : Nat) : Prop where
  runs : ∀ i < n, (m.after i).state = .running
  bank : k.bank = (m.after n).bank
  bus : k.bus = (m.after n).bus
  count : k.executed = m.executed + n

theorem executed_after_of_running {m : Machine β} {n : Nat}
    (h : ∀ i < n, (m.after i).state = .running) : (m.after n).executed = m.executed + n := by
  induction n with
  | zero => rfl
  | succ n ih =>
    have hcount := ih fun i hi => h i (Nat.lt_succ_of_lt hi)
    rw [after_succ_eq_next, executed_next_of_running (h n (Nat.lt_succ_self n)), hcount, Nat.add_assoc]

namespace Executes

variable {m k : Machine β} {n : Nat}

/-- Steps of a running machine are instructions, whatever is done to the cycles left. -/
theorem of_after (h : ∀ i < n, (m.after i).state = .running) (b : Int) :
    Executes m ((m.after n).withBudget b) n where
  runs := h
  bank := rfl
  bus := rfl
  count := executed_after_of_running h

/-- Only registers, memory and count matter. -/
theorem of_view (h : Executes m k n) {l : Machine β} (hbank : l.bank = k.bank)
    (hbus : l.bus = k.bus) (hcount : l.executed = k.executed) : Executes m l n where
  runs := h.runs
  bank := hbank.trans h.bank
  bus := hbus.trans h.bus
  count := hcount.trans h.count

/-- No instructions. -/
theorem refl (m : Machine β) : Executes m m 0 :=
  of_after (n := 0) (fun i hi => absurd hi (Nat.not_lt_zero i)) m.budget

/-- One instruction more in front. -/
theorem cons (hm : m.state = .running) (h : Executes m.next k n) : Executes m k (n + 1) where
  runs i hi := by
    cases i with
    | zero => exact hm
    | succ i => exact h.runs i (Nat.lt_of_succ_lt_succ hi)
  bank := h.bank
  bus := h.bus
  count := by rw [h.count, executed_next_of_running hm]; omega

/-- One instruction. -/
theorem next (hm : m.state = .running) : Executes m m.next 1 :=
  cons hm (refl m.next)

end Executes

/-! ## What leaves the count and the cost alone -/

@[simp] theorem executed_readByte (m : Machine β) (a : UInt8) :
    (m.readByte a).2.executed = m.executed := by
  rw [readByte_eq]

@[simp] theorem cost_readByte (m : Machine β) (a : UInt8) : (m.readByte a).2.cost = m.cost := by
  rw [readByte_eq]

@[simp] theorem executed_writeByte (m : Machine β) (a v : UInt8) :
    (m.writeByte a v).executed = m.executed := by
  rw [writeByte_eq]

@[simp] theorem cost_writeByte (m : Machine β) (a v : UInt8) : (m.writeByte a v).cost = m.cost := by
  rw [writeByte_eq]

/-- What a single write leaves alone, writes one after another leave alone. -/
theorem view_writeAll {γ : Type} (view : Machine β → γ)
    (h : ∀ m a v, view (m.writeByte a v) = view m) (m : Machine β) (cells : List (UInt8 × UInt8)) :
    view (cells.foldl (fun m cell => m.writeByte cell.1 cell.2) m) = view m := by
  induction cells generalizing m with
  | nil => rfl
  | cons cell rest ih => rw [List.foldl_cons, ih, h]

end Machine

namespace FrontPanel

variable {β : Type} [Bus β] (panel : FrontPanel β)

@[simp] theorem executed_press (button : Button) :
    (panel.press button).machine.executed = panel.machine.executed := by
  cases button with
  | read => exact Machine.executed_readByte _ panel.machine.latch
  | store => exact Machine.executed_writeByte _ panel.machine.latch panel.machine.bank.input
  | bit | clear | display | set | start | stop => rfl

@[simp] theorem cost_press (button : Button) :
    (panel.press button).machine.cost = panel.machine.cost := by
  cases button with
  | read => exact Machine.cost_readByte _ panel.machine.latch
  | store => exact Machine.cost_writeByte _ panel.machine.latch panel.machine.bank.input
  | bit | clear | display | set | start | stop => rfl

/-- The run state is in the hands of the two buttons that start and stop the machine: `press` of any
    other leaves it. -/
theorem state_press (button : Button) :
    (panel.press button).machine.state =
      if button = .start then .running
      else if button = .stop then .halted
      else panel.machine.state := by
  cases button with
  | read => exact Machine.state_readByte _ panel.machine.latch
  | store => exact Machine.state_writeByte _ panel.machine.latch panel.machine.bank.input
  | bit | clear | display | set | start | stop => rfl

@[simp] theorem executed_load (image : Image) (fallback : UInt8) :
    (panel.load image fallback).machine.executed = panel.machine.executed :=
  Machine.view_writeAll Machine.executed Machine.executed_writeByte panel.machine image.cells

@[simp] theorem cost_load (image : Image) (fallback : UInt8) :
    (panel.load image fallback).machine.cost = panel.machine.cost :=
  Machine.view_writeAll Machine.cost Machine.cost_writeByte panel.machine image.cells

@[simp] theorem state_load (image : Image) (fallback : UInt8) :
    (panel.load image fallback).machine.state = panel.machine.state :=
  Machine.view_writeAll Machine.state Machine.state_writeByte panel.machine image.cells

/-- A step of the panel is a step of its machine. -/
@[simp] theorem machine_step : panel.step.2.machine = panel.machine.next :=
  (Machine.step_unwatched panel.machine panel.lamps).2

end FrontPanel
end Kenbak1
