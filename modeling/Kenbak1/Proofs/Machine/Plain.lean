/-
  Kenbak1.Proofs.Machine.Plain

  A machine on plain memory. Reading changes nothing there (`readByte_plain`), so what an access
  answers is a function of the machine alone, and each operation is a few changes of registers and
  cells. `Keeps` says that the cells behind the registers are not reached.
-/
import Kenbak1.Proofs.Machine.Isolation

namespace Kenbak1
namespace Machine

variable (m : Machine Memory)

/-! ## Reading -/

@[simp] theorem readByte_plain (a : UInt8) : (m.readByte a).2 = m := by
  unfold readByte
  cases Register.ofAddress? a <;> rfl

/-- `disassembleAt` an address is a function of the bytes there. -/
theorem disassembleAt_eq (a : UInt8) :
    m.disassembleAt a =
      (match Register.ofAddress? a with
        | some r => { text := registerLine r, size := 1 }
        | none =>
          let instruction := decode (m.readByte a).1
          let operand := if instruction.hasOperand then (m.readByte (a + 1)).1 else 0
          { text := instruction.text operand, size := instruction.size }, m) := by
  unfold disassembleAt disassemble
  cases Register.ofAddress? a with
  | some r => rfl
  | none =>
    -- An opcode is read, and an operand byte behind it where there is one.
    have hone := readByte_plain m a
    have htwo := readByte_plain m (a + 1)
    cases h : (decode (m.readByte a).1).hasOperand with
    | false =>
      simp only [StateT.run, bind, StateT.bind, h, hone, Bool.false_eq_true, if_false]
      rfl
    | true =>
      simp only [StateT.run, bind, StateT.bind, h, hone, if_true]
      exact Prod.ext rfl htwo

@[simp] theorem disassembleAt_plain (a : UInt8) : (m.disassembleAt a).2 = m :=
  congrArg Prod.snd (m.disassembleAt_eq a)

@[simp] theorem effectiveAddress_plain (mode : Mode) (operand : UInt8) :
    (m.effectiveAddress mode operand).2 = m := by
  cases mode <;> simp [effectiveAddress]

@[simp] theorem readOperand_plain (mode : Mode) (operand : UInt8) :
    (m.readOperand mode operand).2 = m := by
  cases mode <;> simp [readOperand, effectiveAddress]

@[simp] theorem jumpTarget_plain (mode : Mode) (operand : UInt8) :
    (m.jumpTarget mode operand).2 = m := by
  cases mode <;> simp [jumpTarget]

@[simp] theorem fetch_plain : m.fetch.2 = m.set .p (m.get .p + 1) :=
  readByte_plain (m.set .p (m.get .p + 1)) m.bank.p

/-! ## Operations -/

theorem writeOperand_plain (mode : Mode) (operand v : UInt8) :
    m.writeOperand mode operand v =
      match (m.effectiveAddress mode operand).1 with
      | some a => m.writeByte a v
      | none => m := by
  cases h : (m.effectiveAddress mode operand).1 with
  | some a => simp only [writeOperand, h, effectiveAddress_plain]
  | none => simp only [writeOperand, h, effectiveAddress_plain]

theorem combine_plain (f : Combination) (r : Register) (mode : Mode) (operand : UInt8) :
    m.combine f r mode operand = m.set r (f.apply (m.get r) (m.readOperand mode operand).1) := by
  simp only [combine, readOperand_plain]

theorem take_plain (mode : Mode) (mark : Bool) (operand : UInt8) :
    m.take mode mark operand =
      if mark then
        (m.writeByte (m.jumpTarget mode operand).1 (m.get .p)).jumpTo
          ((m.jumpTarget mode operand).1 + 1)
      else m.jumpTo (m.jumpTarget mode operand).1 := by
  simp only [take, jumpTarget_plain]
  rfl

theorem skip_plain (bit : Fin 8) (wanted : Bool) (operand : UInt8) :
    m.skip bit wanted operand =
      if ((m.readByte operand).1 &&& bitMask bit != 0) = wanted then m.jumpTo (m.get .p + 2)
      else m := by
  simp only [skip, readByte_plain]
  rfl

theorem assign_plain (bit : Fin 8) (value : Bool) (operand : UInt8) :
    m.assign bit value operand =
      m.writeByte operand
        (if value then (m.readByte operand).1 ||| bitMask bit
          else (m.readByte operand).1 &&& ~~~(bitMask bit)) := by
  simp only [assign, readByte_plain]

/-! ## The cells behind the registers -/

/-- A machine keeps what stands behind the register addresses of another, and the size of its
    memory. -/
structure Keeps (m k : Machine Memory) : Prop where
  size : k.bus.cells.size = m.bus.cells.size
  behind : ∀ r : Register, k.bus.read r.address = m.bus.read r.address

namespace Keeps

variable {m}

theorem refl : Keeps m m := ⟨rfl, fun _ => rfl⟩

theorem trans {k l : Machine Memory} (h : Keeps m k) (h' : Keeps k l) : Keeps m l where
  size := h'.size.trans h.size
  behind r := (h'.behind r).trans (h.behind r)

/-- A write where no register answers does not reach a cell behind a register. -/
theorem stable : Bus.Stable (fun bus : Memory => Keeps m { m with bus }) where
  read _ _ _ h := h
  write bus a v ha h := by
    refine ⟨(Memory.size_write bus a v).trans h.size, fun r => ?_⟩
    have hne : r.address ≠ a := by
      rintro rfl
      rw [Register.ofAddress?_address] at ha
      cases ha
    exact (Memory.read_write_of_ne bus v hne).trans (h.behind r)

theorem step {σ : Type} [Observer σ] (o : σ) : Keeps m (m.step o).machine := by
  have h := (stable (m := m)).invariant.step (m := m) refl o
  exact ⟨h.size, h.behind⟩

end Keeps

end Machine
end Kenbak1
