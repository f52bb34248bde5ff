/-
  Kenbak1.Proofs.Flat.Instruction

  One instruction in view. `Machine.execute` turns an instruction into an `Action` and carries that
  out; `Flat.execute` reads what the instruction set says off the operation. Whatever cells and
  registers an instruction reaches, both do the same to the cells in view (`flatten_perform`,
  `flatten_execute`).
-/
import Kenbak1.Proofs.Flat.View

namespace Kenbak1

/-! ## Bytes -/

theorem signed_eq (v : UInt8) :
    signed v = if v.toNat < 128 then (v.toNat : Int) else v.toNat - 256 := by
  have hv := v.toNat_lt
  have htoInt : signed v = v.toBitVec.toInt := rfl
  rw [htoInt, BitVec.toInt_eq_toNat_cond]
  show (if 2 * v.toNat < 2 ^ 8 then (v.toNat : Int) else v.toNat - (2 ^ 8 : Nat)) = _
  split <;> split <;> omega

/-- A byte is the byte of its signed number. -/
theorem ofInt_signed (v : UInt8) : UInt8.ofInt (signed v) = v := by
  have hv := v.toNat_lt
  rw [← UInt8.toNat_inj, UInt8.ofInt, UInt8.toNat_ofNat', signed_eq]
  split <;> omega

theorem negative_eq (v : UInt8) : negative v = 0 - v := by
  unfold negative
  split
  · next hmin =>
    -- The one byte whose negative does not fit is its own negative modulo 256.
    have hv : v = 128 := by
      rw [← ofInt_signed v, hmin]
      rfl
    subst hv
    rfl
  · rw [UInt8.ofInt_neg, ofInt_signed, UInt8.zero_sub]

theorem signedHalf_eq (v : UInt8) : UInt8.ofInt ((signed v).tdiv 2) = signedHalf v := by
  have hdiv : (v.toInt8 / 2).toInt = (signed v).tdiv 2 :=
    Int8.toInt_div_of_ne_right v.toInt8 2 (by decide)
  rw [← hdiv]
  exact ofInt_signed (signedHalf v)

theorem Condition.meets_iff (condition : Condition) (v : UInt8) :
    condition.Meets v ↔ condition.holds v = true := by
  have hv := v.toNat_lt
  have hsigned := signed_eq v
  cases condition with
  | nonZero | zero =>
    simp only [Meets, holds, bne_iff_ne, beq_iff_eq, Ne, ← UInt8.toNat_inj, hsigned,
      UInt8.reduceToNat]
    split <;> omega
  | negative | positive | positiveNonZero =>
    simp only [Meets, holds, Bool.and_eq_true, decide_eq_true_eq, UInt8.le_iff_toNat_le,
      UInt8.lt_iff_toNat_lt, hsigned, UInt8.reduceToNat]
    split <;> omega

/-- The mask of a bit picks that bit. -/
theorem testBit_eq_mask (v : UInt8) (bit : Fin 8) :
    v.toNat.testBit bit.val = (v &&& bitMask bit != 0) := by
  revert v bit
  apply forall_byte
  decide +kernel

/-! ## Fewer than eight places -/

theorem shiftLeft_eq (v : UInt8) {n : UInt8} (hn : n.toNat < 8) :
    UInt8.ofNat (v.toNat * 2 ^ n.toNat) = shiftLeft v n := by
  have hlt : n < 8 := UInt8.lt_iff_toNat_lt.mpr hn
  rw [shiftLeft, if_pos hlt, ← UInt8.toNat_inj, UInt8.toNat_ofNat', UInt8.toNat_shiftLeft,
    Nat.mod_eq_of_lt hn, Nat.shiftLeft_eq]

theorem mod_eight_eq {n : UInt8} (hn : n.toNat < 8) : n % 8 = n := by
  rw [← UInt8.toNat_inj, UInt8.toNat_mod]
  exact Nat.mod_eq_of_lt hn

theorem rotateLeft_eq (v : UInt8) {n : UInt8} (hn : n.toNat < 8) :
    (v <<< n) ||| (v >>> (8 - n)) = rotateLeft v n := by
  rw [rotateLeft, mod_eight_eq hn]
  split
  · next hzero =>
    -- A shift by eight places is a shift by none.
    have hback : v >>> (8 - 0) = v := by
      rw [← UInt8.toNat_inj, UInt8.toNat_shiftRight]
      rfl
    rw [hzero, hback, UInt8.shiftLeft_zero, UInt8.or_self]
  · rfl

theorem rotateRight_eq (v : UInt8) {n : UInt8} (hn : n.toNat < 8) :
    (v >>> n) ||| (v <<< (8 - n)) = rotateRight v n := by
  rw [rotateRight, mod_eight_eq hn]
  split
  · next hzero =>
    have hback : v <<< (8 - 0) = v := by
      rw [← UInt8.toNat_inj, UInt8.toNat_shiftLeft]
      exact Nat.mod_eq_of_lt v.toNat_lt
    rw [hzero, hback, UInt8.shiftRight_zero, UInt8.or_self]
  · rfl

namespace Machine

variable {m : Machine Memory}

/-! ## Parts of an instruction -/

theorem flatten_combine (f : Combination) (r : Register) (mode : Mode) (operand : UInt8) :
    (m.combine f r mode operand).flatten =
      m.flatten.setReg r (f.apply (m.flatten.reg r) (m.flatten.read mode operand)) := by
  rw [combine_plain, flatten_set, reg_flatten, read_flatten]

theorem flatten_take (hm : m.bus.cells.size = memorySize) (mode : Mode) (mark : Bool)
    (operand : UInt8) :
    (m.take mode mark operand).flatten = m.flatten.jump mode mark operand := by
  rw [take_plain]
  unfold Flat.jump
  rw [target_flatten, reg_flatten]
  cases mark with
  | false => exact flatten_jumpTo m _
  | true =>
    simp only [if_true]
    rw [flatten_jumpTo, flatten_writeByte hm]

theorem flatten_skip (bit : Fin 8) (wanted : Bool) (operand : UInt8) :
    (m.skip bit wanted operand).flatten = m.flatten.skip bit.val wanted operand := by
  rw [skip_plain]
  unfold Flat.skip
  rw [testBit_eq_mask, cells_flatten, reg_flatten, ← flatten_jumpTo]
  split <;> rfl

theorem flatten_assign (hm : m.bus.cells.size = memorySize) (bit : Fin 8) (value : Bool)
    (operand : UInt8) :
    (m.assign bit value operand).flatten =
      m.flatten.put operand
        (if value then m.flatten.cells operand ||| bitMask bit
          else m.flatten.cells operand &&& ~~~(bitMask bit)) := by
  rw [assign_plain, flatten_writeByte hm, cells_flatten]

/-! ## Instructions -/

/-- `perform` does to the view what the instruction set says. -/
theorem flatten_perform (hm : m.bus.cells.size = memorySize) {i : Instruction} {action : Action}
    (h : i.action = .ok action) (hbit : ∀ n ∈ i.bit, n.toNat < 8) (operand : UInt8) :
    (m.perform action operand).flatten = m.flatten.execute i operand := by
  unfold Instruction.action at h
  unfold Flat.execute
  -- Operations whose actions have the same form share a case.
  cases hop : i.operation with
  | halt =>
    simp only [hop, pure, Except.pure, Except.ok.injEq] at h
    subst h
    simp only [perform, flatten_withState, flatten_note]
  | noop =>
    simp only [hop, pure, Except.pure, Except.ok.injEq] at h
    subst h
    rfl
  | add | sub | load | or | and | lneg =>
    simp only [hop, Instruction.combination_eq_ok] at h
    obtain ⟨mode, r, hmode, hr, rfl⟩ := h
    simp only [perform, flatten_combine, hmode, hr, Option.getD_some, Combination.apply,
      negative_eq]
  | store =>
    simp only [hop, Instruction.bind_eq_ok, Instruction.needRegister_eq_ok,
      Instruction.needMode_eq_ok, pure, Except.pure, Except.ok.injEq] at h
    obtain ⟨r, hr, mode, hmode, rfl⟩ := h
    simp only [perform, flatten_writeOperand hm, hmode, hr, Option.getD_some, reg_flatten]
  | jpd | jpi | jmd | jmi =>
    simp only [hop] at h
    obtain ⟨mode, hmode, ⟨hc, rfl⟩ | ⟨c, r, hc, hr, rfl⟩⟩ := Instruction.jump_eq_ok h
    · simp [perform, flatten_take hm, hmode, hc]
    · simp only [perform, hmode, hc, hr, Option.getD_some, Option.mem_some_iff, forall_eq',
        Condition.meets_iff, reg_flatten]
      split
      · exact flatten_take hm mode i.mark operand
      · rfl
  | skp0 | skp1 =>
    simp only [hop, Instruction.bind_eq_ok, Instruction.needBit_eq_ok, pure, Except.pure,
      Except.ok.injEq] at h
    obtain ⟨bit, hn, rfl⟩ := h
    have hval : (UInt8.ofNat bit.val).toNat = bit.val := by
      rw [UInt8.toNat_ofNat']
      omega
    simp only [perform, flatten_skip, hn, Option.getD_some, hval]
  | set0 | set1 =>
    simp only [hop, Instruction.bind_eq_ok, Instruction.needBit_eq_ok, pure, Except.pure,
      Except.ok.injEq] at h
    obtain ⟨bit, hn, rfl⟩ := h
    simp [perform, flatten_assign hm, hn, bitMask]
  | sftl | sftr | rotl | rotr =>
    simp only [hop, Instruction.shiftAction_eq_ok] at h
    obtain ⟨r, n, hr, hn, rfl⟩ := h
    have hlt := hbit n hn
    simp only [perform, flatten_set, hr, hn, Option.getD_some, Shift.apply, reg_flatten,
      shiftLeft_eq _ hlt, signedHalf_eq, rotateLeft_eq _ hlt, rotateRight_eq _ hlt]

/-- `execute` does to the view, for the instruction of an opcode, what `Flat.execute` does. -/
theorem flatten_execute (hm : m.bus.cells.size = memorySize) (opcode operand : UInt8) :
    (m.execute (decode opcode) operand).flatten = m.flatten.execute (decode opcode) operand := by
  obtain ⟨action, haction⟩ := Instruction.exists_action_decode opcode
  unfold execute
  rw [haction]
  exact flatten_perform hm haction (Instruction.wellFormed_decode opcode).bit operand

end Machine
end Kenbak1
