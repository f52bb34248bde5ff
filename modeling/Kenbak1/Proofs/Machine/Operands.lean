/-
  Kenbak1.Proofs.Machine.Operands

  Storing through an operand and reading it again. Which cell an operand stands for (`target`) may
  depend on a pointer and on X, which are cells of the address space themselves (`lookups`). A store
  that does not overwrite one of them is read back; one that does is followed by a read of whatever
  cell the operand stands for then. Either way nothing moves but the one cell (`bytes_writeByte`).
-/
import Mathlib.Logic.Function.Basic
import Kenbak1.Proofs.Machine.Plain
import Kenbak1.Proofs.Machine.Writes

namespace Kenbak1

/-! ## Operands over an address space -/

namespace Mode

/-- The addresses that are read to find the cell of an operand. -/
def lookups (mode : Mode) (operand : UInt8) : List UInt8 :=
  match mode with
  | .constant | .memory => []
  | .indirect => [operand]
  | .indexed => [Register.x.address]
  | .indirectIndexed => [operand, Register.x.address]

variable (bytes : UInt8 → UInt8)

/-- The address of an operand's cell when the address space holds these bytes. -/
def target (mode : Mode) (operand : UInt8) : Option UInt8 :=
  match mode with
  | .constant => none
  | .memory => some operand
  | .indirect => some (bytes operand)
  | .indexed => some (operand + bytes Register.x.address)
  | .indirectIndexed => some (bytes operand + bytes Register.x.address)

/-- What an operand stands for when the address space holds these bytes. -/
def value (mode : Mode) (operand : UInt8) : UInt8 :=
  (mode.target bytes operand).elim operand bytes

theorem target_eq_none_iff (mode : Mode) (operand : UInt8) :
    mode.target bytes operand = none ↔ mode = .constant := by
  cases mode <;> simp [target]

/-- The `target` of an operand is found from its `lookups` alone. -/
theorem target_update {bytes : UInt8 → UInt8} {mode : Mode} {operand t : UInt8}
    (h : t ∉ mode.lookups operand) (v : UInt8) :
    mode.target (Function.update bytes t v) operand = mode.target bytes operand := by
  have hkept : ∀ a ∈ mode.lookups operand, Function.update bytes t v a = bytes a := by
    intro a ha
    refine Function.update_of_ne ?_ v bytes
    rintro rfl
    exact h ha
  cases mode with
  | constant | memory => rfl
  | indirect | indexed | indirectIndexed =>
    simp only [lookups, List.forall_mem_cons, List.not_mem_nil, false_implies, implies_true,
      and_true] at hkept
    simp only [target, hkept]

end Mode

namespace Machine

/-! ## Operands of a machine -/

section Bus

variable {β : Type} [Bus β] (m : Machine β)

/-- The bytes that a machine reads at the addresses. -/
def bytes (a : UInt8) : UInt8 :=
  (m.readByte a).1

end Bus

variable (m : Machine Memory) (mode : Mode) (operand : UInt8)

theorem effectiveAddress_eq :
    (m.effectiveAddress mode operand).1 = mode.target m.bytes operand := by
  have hx : m.bytes Register.x.address = m.bank.x := rfl
  cases mode <;> simp only [effectiveAddress, Mode.target, hx] <;> rfl

theorem readOperand_eq : (m.readOperand mode operand).1 = mode.value m.bytes operand := by
  rw [Mode.value, ← effectiveAddress_eq]
  cases h : (m.effectiveAddress mode operand).1 with
  | some a =>
    simp only [readOperand, h, effectiveAddress_plain]
    rfl
  | none =>
    simp only [readOperand, h]
    rfl

variable {m mode operand}

theorem writeOperand_of_target {t : UInt8} (h : mode.target m.bytes operand = some t)
    (v : UInt8) : m.writeOperand mode operand v = m.writeByte t v := by
  rw [writeOperand_plain, effectiveAddress_eq, h]

theorem writeOperand_of_no_target (h : mode.target m.bytes operand = none) (v : UInt8) :
    m.writeOperand mode operand v = m := by
  rw [writeOperand_plain, effectiveAddress_eq, h]

/-- A cell that is written is all of the address space that changes. -/
theorem bytes_writeByte {t : UInt8}
    (h : Register.ofAddress? t = none → t.toNat < m.bus.cells.size) (v : UInt8) :
    (m.writeByte t v).bytes = Function.update m.bytes t v := by
  funext a
  by_cases ha : a = t
  · rw [ha, Function.update_self]
    exact m.readByte_writeByte_same h v
  · rw [Function.update_of_ne ha]
    exact m.readByte_writeByte_of_ne ha v

/-- A store leaves every byte but that of its cell. -/
theorem bytes_writeOperand_of_ne {a : UInt8} (h : mode.target m.bytes operand ≠ some a)
    (v : UInt8) : (m.writeOperand mode operand v).bytes a = m.bytes a := by
  cases ht : mode.target m.bytes operand with
  | some t =>
    have hne : a ≠ t := by
      rintro rfl
      exact h ht
    rw [writeOperand_of_target ht]
    exact m.readByte_writeByte_of_ne hne v
  | none => rw [writeOperand_of_no_target ht]

variable (m mode operand)

/-- A store does not reach the cells that registers cover. -/
theorem covered_writeOperand (r : Register) (v : UInt8) :
    (m.writeOperand mode operand v).bus.cells[r.address.toNat]?
      = m.bus.cells[r.address.toNat]? := by
  cases ht : mode.target m.bytes operand with
  | some t =>
    rw [writeOperand_of_target ht]
    exact m.covered_writeByte r t v
  | none => rw [writeOperand_of_no_target ht]

/-- A store changes registers and bus alone. -/
theorem writeOperand_eq (v : UInt8) :
    m.writeOperand mode operand v
      = { m with
          bank := (m.writeOperand mode operand v).bank
          bus := (m.writeOperand mode operand v).bus } := by
  cases ht : mode.target m.bytes operand with
  | some t =>
    rw [writeOperand_of_target ht]
    exact m.writeByte_eq t v
  | none => rw [writeOperand_of_no_target ht]

/-! ## Reading back -/

/-- A value that `writeOperand` stores is read back by `readOperand`, unless the store overwrites
    the pointer or the index register by which the operand is found (`Mode.lookups`); then the
    operand is looked up anew in what the store has left (`Mode.value`). Nothing changes but the
    operand's cell, and for a constant nothing at all. The cell must not be missing from the
    memory. -/
theorem operand_roundTrip (v : UInt8)
    (h : ∀ t, (m.effectiveAddress mode operand).1 = some t → Register.ofAddress? t = none →
      t.toNat < m.bus.cells.size) :
    let target := (m.effectiveAddress mode operand).1
    let after := m.writeOperand mode operand v
    (∀ t, target = some t →
      (t ∉ mode.lookups operand → (after.readOperand mode operand).1 = v) ∧
        (after.readOperand mode operand).1
          = mode.value (Function.update m.bytes t v) operand) ∧
      (target = none ↔ mode = .constant) ∧ (target = none → after = m) ∧
      (∀ a, target ≠ some a → (after.readByte a).1 = (m.readByte a).1) ∧
      (∀ r : Register, after.bus.cells[r.address.toNat]? = m.bus.cells[r.address.toNat]?) ∧
      after = { m with bank := after.bank, bus := after.bus } := by
  simp only [effectiveAddress_eq, readOperand_eq] at h ⊢
  refine ⟨fun t ht => ?_, Mode.target_eq_none_iff m.bytes mode operand,
    fun ht => writeOperand_of_no_target ht v, fun a ha => bytes_writeOperand_of_ne ha v,
    fun r => m.covered_writeOperand mode operand r v, m.writeOperand_eq mode operand v⟩
  have hbytes : (m.writeOperand mode operand v).bytes = Function.update m.bytes t v := by
    rw [writeOperand_of_target ht, bytes_writeByte (h t ht)]
  rw [hbytes]
  refine ⟨fun hfree => ?_, rfl⟩
  -- Nothing that is looked up has changed, so the operand still leads to the cell written.
  rw [Mode.value, Mode.target_update hfree, ht]
  exact Function.update_self t v m.bytes

/-- A pointer at 040 to 100 and X at 5 lead to 105, which is read back. A pointer at 040 to
    itself is overwritten by the 5 that is stored through it, and the byte at 005 is read. -/
theorem operand_roundTrip_pointers :
    let apart := (fresh.writeByte 0o040 0o100).set .x 5
    let looped := fresh.writeByte 0o040 0o040
    ((apart.writeOperand .indirectIndexed 0o040 7).readOperand .indirectIndexed 0o040).1 = 7 ∧
      ((looped.writeOperand .indirect 0o040 5).readOperand .indirect 0o040).1 = 0 := by
  intro apart looped
  have hcells : ∀ t v : UInt8, t.toNat < (fresh.writeByte 0o040 v).bus.cells.size := by
    intro t v
    rw [size_writeByte]
    exact toNat_lt_size_zero t
  have hpointer : ∀ v, ((fresh.writeByte 0o040 v).readByte 0o040).1 = v :=
    fresh.readByte_writeByte_same fun _ => toNat_lt_size_zero 0o040
  have hapart : (apart.effectiveAddress .indirectIndexed 0o040).1 = some 0o105 :=
    congrArg (fun b => some (b + 5)) (hpointer 0o100)
  have hlooped : (looped.effectiveAddress .indirect 0o040).1 = some 0o040 :=
    congrArg some (hpointer 0o040)
  have htrip := operand_roundTrip apart .indirectIndexed 0o040 7 fun t _ _ => hcells t 0o100
  have hlost := operand_roundTrip looped .indirect 0o040 5 fun t _ _ => hcells t 0o040
  refine ⟨(htrip.1 0o105 hapart).1 (by decide), (hlost.1 0o040 hlooped).2.trans ?_⟩
  show Function.update looped.bytes 0o040 5 (Function.update looped.bytes 0o040 5 0o040) = 0
  rw [Function.update_self, Function.update_of_ne (by decide)]
  exact (fresh.readByte_writeByte_of_ne (by decide) 0o040).trans (readByte_fresh 0o005)

end Machine
end Kenbak1
