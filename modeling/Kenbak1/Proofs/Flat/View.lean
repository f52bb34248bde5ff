/-
  Kenbak1.Proofs.Flat.View

  The flat machine that a machine with registers looks like. A cell of `flatten` is what
  `Machine.readByte` answers at its address, so a register stands in the place of the cell that it
  covers. Every access to the machine is an access to the view: `flatten_writeByte`,
  `fetch_flatten`, `read_flatten`, `flatten_writeOperand`, `target_flatten`.
-/
import Kenbak1.Proofs.Flat
import Kenbak1.Proofs.Machine.Plain

namespace Kenbak1

namespace Machine

/-- What a machine on plain memory looks like to the programmer and the operator. -/
def flatten (m : Machine Memory) : Flat where
  cells a := (m.readByte a).1
  state := m.state
  executed := m.executed
  cost := m.cost
  latch := m.latch

/-- The cells in view show the registers and the memory alone. -/
theorem cells_congr {m k : Machine Memory} (hbank : m.bank = k.bank) (hbus : m.bus = k.bus) :
    m.flatten.cells = k.flatten.cells := by
  funext a
  show (m.readByte a).1 = (k.readByte a).1
  unfold readByte
  rw [hbank, hbus]
  cases Register.ofAddress? a <;> rfl

variable (m : Machine Memory)

/-! ## Parts that are not in view -/

theorem flatten_withLedger (l : Ledger) :
    (m.withLedger l).flatten =
      { m.flatten with executed := l.executed, cost := l.cost, latch := l.latch } :=
  Flat.ext (cells_congr rfl rfl) rfl rfl rfl rfl

@[simp] theorem flatten_withBudget (b : Int) : (m.withBudget b).flatten = m.flatten :=
  Flat.ext (cells_congr rfl rfl) rfl rfl rfl rfl

@[simp] theorem flatten_note (e : Entry) : (m.note e).flatten = m.flatten :=
  Flat.ext (cells_congr rfl rfl) rfl rfl rfl rfl

theorem flatten_withState (state : RunState) :
    ({ m with state } : Machine Memory).flatten = { m.flatten with state } :=
  Flat.ext (cells_congr rfl rfl) rfl rfl rfl rfl

/-! ## Cells -/

@[simp] theorem cells_flatten (a : UInt8) : m.flatten.cells a = (m.readByte a).1 := rfl

@[simp] theorem reg_flatten (r : Register) : m.flatten.reg r = m.get r := by
  simp [Flat.reg, readByte, get]

@[simp] theorem flatten_set (r : Register) (v : UInt8) :
    (m.set r v).flatten = m.flatten.setReg r v := by
  unfold Flat.setReg Flat.put flatten
  congr 1
  funext a
  by_cases ha : a = r.address
  · subst ha
    rw [Function.update_self]
    simp [readByte, set, Bank.get_set_same]
  · rw [Function.update_of_ne ha]
    cases h : Register.ofAddress? a with
    | none => simp [readByte, h, set]
    | some q =>
      -- Another register answers at the address, and keeps its value.
      have hq : q ≠ r := by
        rintro rfl
        exact ha (Register.ofAddress?_eq_some_iff.mp h)
      simp [readByte, h, set, Bank.get_set_of_ne _ _ hq]

@[simp] theorem flatten_jumpTo (a : UInt8) : (m.jumpTo a).flatten = m.flatten.setReg .p a :=
  flatten_set m .p a

variable {m} in
/-- `writeByte` on the address space is a write to one cell of the view (`Flat.put`). -/
theorem flatten_writeByte (hm : m.bus.cells.size = memorySize) (a v : UInt8) :
    (m.writeByte a v).flatten = m.flatten.put a v := by
  cases h : Register.ofAddress? a with
  | some r =>
    have hwrite : m.writeByte a v = m.set r v := by
      simp only [writeByte, h]
      rfl
    rw [hwrite, flatten_set, Flat.setReg, Register.ofAddress?_eq_some_iff.mp h]
  | none =>
    -- The write reaches memory, and the cells that registers cover do not show it.
    have hwrite : m.writeByte a v = { m with bus := m.bus.write a v } := by
      simp only [writeByte, h]
      rfl
    rw [hwrite]
    unfold Flat.put flatten
    congr 1
    funext b
    by_cases hb : b = a
    · subst hb
      rw [Function.update_self]
      simp only [readByte, h]
      exact Memory.read_write_same m.bus b v hm
    · rw [Function.update_of_ne hb]
      cases hq : Register.ofAddress? b with
      | some q => simp [readByte, hq]
      | none =>
        simp only [readByte, hq]
        exact Memory.read_write_of_ne m.bus v hb

/-! ## Operands -/

theorem fetch_flatten : m.flatten.fetch = (m.fetch.1, m.fetch.2.flatten) := by
  rw [fetch_plain, flatten_set]
  unfold Flat.fetch
  rw [reg_flatten, ← flatten_set]
  rfl

@[simp] theorem read_flatten (mode : Mode) (operand : UInt8) :
    m.flatten.read mode operand = (m.readOperand mode operand).1 := by
  cases mode <;> simp [Flat.read, readOperand, effectiveAddress, get, Bank.get]

variable {m} in
theorem flatten_writeOperand (hm : m.bus.cells.size = memorySize) (mode : Mode)
    (operand v : UInt8) :
    (m.writeOperand mode operand v).flatten = m.flatten.write mode operand v := by
  rw [writeOperand_plain]
  cases mode <;>
    simp [effectiveAddress, Flat.write, flatten_writeByte hm, get, Bank.get]

@[simp] theorem target_flatten (mode : Mode) (operand : UInt8) :
    m.flatten.target mode operand = (m.jumpTarget mode operand).1 := by
  cases mode <;> simp [Flat.target, jumpTarget]

end Machine
end Kenbak1
