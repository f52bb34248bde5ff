/-
  Kenbak1.Proofs.Machine.Footprint

  Which cells a run writes. Besides P, a step writes at one address at most (`writesNext`): that of
  the register that the instruction works on, or the one at which it stores a byte. A cell that no
  step of a run writes keeps its byte through the run, whatever is run (`readByte_after_of_ne`).
-/
import Kenbak1.Proofs.Machine.Fetch
import Kenbak1.Proofs.Machine.Writes

namespace Kenbak1
namespace Machine

/-! ## The address written -/

section Bus

variable {β : Type} [Bus β] (m : Machine β)

/-- The address that an action writes, be it that of a register: where the register is that the
    action works on, or where it stores a byte. Moving P is left out of account. -/
def writesAt (action : Action) (x : UInt8) : Option UInt8 :=
  match action with
  | .combine _ r _ | .shift _ r _ => some r.address
  | .store .. | .jump .. | .skip .. | .assign .. | .noop | .halt => (m.stores action x).map (·.1)

/-- The address that the next step writes. A machine that stands writes none. -/
def writesNext : Option UInt8 :=
  match m.state with
  | .running => (decode m.fetch.1).action.toOption.bind (m.fetchAll.2.writesAt · m.fetchAll.1)
  | .halted => none

end Bus

/-! ## Cells that are not written -/

variable {m : Machine Memory} {a : UInt8} (hp : a ≠ Register.p.address)
include hp

/-- What is fetched only moves P. -/
theorem readByte_fetchAll : (m.fetchAll.2.readByte a).1 = (m.readByte a).1 := by
  obtain ⟨p, entry, hfetched⟩ := m.exists_fetchAll_eq
  rw [hfetched]
  calc _ = ((m.set .p p).readByte a).1 := by apply readByte_congr <;> rfl
    _ = (m.readByte a).1 := m.readByte_withP hp p

/-- A jump that is taken writes its mark and moves P. -/
theorem readByte_take_of_ne {mode : Mode} {mark : Bool} {x : UInt8}
    (h : mark = true → (m.jumpTarget mode x).1 ≠ a) :
    ((m.take mode mark x).readByte a).1 = (m.readByte a).1 := by
  rw [take_plain]
  cases mark with
  | true =>
    -- The mark is written first, and P moves after it.
    rw [if_pos rfl]
    refine (readByte_withP _ hp _).trans ?_
    exact m.readByte_writeByte_of_ne (Ne.symm (h rfl)) _
  | false => exact m.readByte_withP hp _

/-- `perform` leaves all cells but P and the one that the action writes (`writesAt`). -/
theorem readByte_perform_of_ne {action : Action} {x : UInt8}
    (h : m.writesAt action x ≠ some a) :
    ((m.perform action x).readByte a).1 = (m.readByte a).1 := by
  cases action with
  | combine f r mode =>
    have hr : a ≠ r.address := by
      rintro rfl
      exact h rfl
    show ((m.combine f r mode x).readByte a).1 = _
    rw [combine_plain, readByte_set, if_neg hr]
  | store r mode =>
    show ((m.writeOperand mode x (m.get r)).readByte a).1 = _
    rw [writeOperand_plain]
    cases ht : (m.effectiveAddress mode x).1 with
    | none => rfl
    | some t =>
      have hne : a ≠ t := by
        rintro rfl
        exact h (by simp [writesAt, stores, ht])
      exact m.readByte_writeByte_of_ne hne _
  | jump test mode mark =>
    -- Only a jump that is taken and marks its target writes it.
    rw [perform_jump]
    split
    · next htaken =>
      refine readByte_take_of_ne hp ?_
      rintro rfl rfl
      exact h (by simp [writesAt, stores, htaken])
    · rfl
  | skip bit wanted =>
    show ((m.skip bit wanted x).readByte a).1 = _
    rw [skip_plain]
    split
    · exact m.readByte_withP hp _
    · rfl
  | assign bit value =>
    have hne : a ≠ x := by
      rintro rfl
      exact h rfl
    show ((m.assign bit value x).readByte a).1 = _
    rw [assign_plain]
    exact m.readByte_writeByte_of_ne hne _
  | shift shift r places =>
    have hr : a ≠ r.address := by
      rintro rfl
      exact h rfl
    exact (m.readByte_set r _ a).trans (if_neg hr)
  | noop => rfl
  | halt => apply readByte_congr <;> rfl

/-- A step leaves all cells but P and the one that it writes (`writesNext`). -/
theorem readByte_next_of_ne (h : m.writesNext ≠ some a) :
    (m.next.readByte a).1 = (m.readByte a).1 := by
  cases hm : m.state with
  | halted =>
    rw [next_of_halted hm]
    apply readByte_congr <;> rfl
  | running =>
    obtain ⟨action, haction⟩ := Instruction.exists_action_decode m.fetch.1
    have hwrites : m.fetchAll.2.writesAt action m.fetchAll.1 ≠ some a := by
      simpa [writesNext, hm, haction, Except.toOption] using h
    rw [next_of_running hm, m.executeNext_eq_perform haction]
    calc _ = ((m.fetchAll.2.perform action m.fetchAll.1).readByte a).1 := by
          apply readByte_congr <;> rfl
      _ = (m.fetchAll.2.readByte a).1 := readByte_perform_of_ne hp hwrites
      _ = (m.readByte a).1 := readByte_fetchAll hp

/-- A cell that no step of a run writes (`writesNext`) keeps its byte. -/
theorem readByte_after_of_ne {n : Nat} (h : ∀ i < n, (m.after i).writesNext ≠ some a) :
    ((m.after n).readByte a).1 = (m.readByte a).1 := by
  -- The induction is on the steps; the last of them adds one write to those before.
  induction n with
  | zero => rfl
  | succ n ih =>
    have hlast := readByte_next_of_ne hp (h n n.lt_succ_self)
    rw [after_succ_eq_next, hlast, ih fun i hi => h i (Nat.lt_succ_of_lt hi)]

end Machine
end Kenbak1
