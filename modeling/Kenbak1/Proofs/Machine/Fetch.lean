/-
  Kenbak1.Proofs.Machine.Fetch

  What is fetched. `Machine.fetch` moves P on before it reads the byte, so the byte fetched is the
  one that stood at P, unless P stood at its own address: there it reads the address that P has
  moved on to (`fetch_eq`). The instruction of a step is the one that this byte stands for.
-/
import Kenbak1.Proofs.Machine.Steps

namespace Kenbak1

/-- An instruction keeps the opcode that it was decoded from. -/
@[simp] theorem Instruction.opcode_decode (opcode : UInt8) : (decode opcode).opcode = opcode := by
  unfold decode
  dsimp only
  split
  · rfl
  split
  · rfl
  split
  · rfl
  split
  · unfold decodeJump
    dsimp only
    split <;> rfl
  split
  · unfold decodeLogic
    dsimp only
    split <;> rfl
  · rfl

namespace Machine

variable {β σ : Type} [Bus β] [Observer σ] (m : Machine β)

/-- A byte of the address space is read alike wherever P stands, but for P itself. -/
theorem readByte_withP {a : UInt8} (h : a ≠ Register.p.address) (p : UInt8) :
    ({ m with bank := { m.bank with p } }.readByte a).1 = (m.readByte a).1 := by
  unfold readByte
  cases ha : Register.ofAddress? a with
  | none => rfl
  | some r =>
    obtain rfl := Register.ofAddress?_eq_some_iff.mp ha
    cases r with
    | p => exact absurd rfl h
    | a | b | x | out | oca | ocb | ocx | input => rfl

/-- P at its own address has moved on when it is read. -/
theorem fetch_eq :
    m.fetch.1 =
      if m.bank.p = Register.p.address then Register.p.address + 1 else (m.readByte m.bank.p).1 := by
  split
  · next h =>
    have hread : (({ m with bank := m.bank.advance } : Machine β).readByte Register.p.address).1
        = m.bank.p + 1 := rfl
    rw [fetch, h, hread, h]
  · next h => exact m.readByte_withP h (m.bank.p + 1)

/-- A `step` of a running machine executes the instruction that `decode` gives for the byte at P, as
    it is before the step, unless P is at its own address. There P has moved on when it is read: the
    byte at P is 003, and the instruction is that of 004. So the opcode executed is the byte at P
    exactly where P is elsewhere. -/
theorem opcode_step_iff (o : σ) (hm : m.state = .running) :
    ∃ i, (m.step o).value = some i ∧
      i = decode (if m.bank.p = Register.p.address then 0o004 else (m.readByte m.bank.p).1) ∧
      (i.opcode = (m.readByte m.bank.p).1 ↔ m.bank.p ≠ Register.p.address) := by
  have hexecuted : m.executeNext.1 = decode m.fetch.1 := rfl
  refine ⟨m.executeNext.1, by rw [step_of_running hm], ?_, ?_⟩
  · rw [hexecuted, fetch_eq]
    rfl
  · rw [hexecuted, Instruction.opcode_decode, fetch_eq]
    split
    · next h =>
      -- Read in its place, P is its own address, and not the one behind.
      have hread : (m.readByte Register.p.address).1 = m.bank.p := rfl
      rw [h, hread, h]
      exact iff_of_false (by decide) (fun hne => hne rfl)
    · next h => exact iff_of_true rfl h

/-- A load in A and B, with P at the address of A. -/
theorem opcode_step_iff_load :
    let m : Machine Memory := { Machine.fresh with bank := { a := 0o023, b := 7 } }
    m.state = .running ∧ ∃ i, (m.step ()).value = some i ∧ i.opcode = 0o023 := by
  intro m
  obtain ⟨i, hi, -, hopcode⟩ := m.opcode_step_iff () rfl
  exact ⟨rfl, i, hi, hopcode.mpr (by decide)⟩

/-- P at its own address: the byte there is 003, and the opcode executed is 004. -/
theorem opcode_differs_at_p :
    let m : Machine Memory := { Machine.fresh with bank := { p := 0o003 } }
    m.state = .running ∧ (m.readByte m.bank.p).1 = 0o003 ∧
      (m.step ()).value = some (decode 0o004) ∧
      ¬ ∀ k : Machine Memory, k.state = .running →
        ∃ i, (k.step ()).value = some i ∧ i.opcode = (k.readByte k.bank.p).1 := by
  intro m
  have hvalue : (m.step ()).value = some (decode 0o004) := by decide +kernel
  refine ⟨rfl, rfl, hvalue, fun h => ?_⟩
  obtain ⟨i, hi, hopcode⟩ := h m rfl
  rw [hvalue] at hi
  cases hi
  rw [Instruction.opcode_decode] at hopcode
  exact absurd hopcode (by decide)

end Machine
end Kenbak1
