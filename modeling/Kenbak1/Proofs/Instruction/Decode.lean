/-
  Kenbak1.Proofs.Instruction.Decode

  Decoding and acting fit together. The instruction of every opcode carries the fields that its
  operation needs (`wellFormed_decode`), so it has an action (`exists_action_decode`); and an action
  tells which fields its instruction carries (`jump_eq_ok` and the lemmas before it). The halt
  operation is the only one whose action is to halt (`action_eq_halt_iff`).
-/
import Kenbak1.Instruction.Action

namespace Kenbak1

/-- What holds of the 256 numerals holds of every byte. -/
theorem forall_byte {p : UInt8 → Prop} (h : ∀ n : Fin 256, p (UInt8.ofNat n.val)) (b : UInt8) :
    p b := by
  have hb := h ⟨b.toNat, b.toNat_lt⟩
  rwa [UInt8.ofNat_toNat] at hb

/-- Addresses are counted modulo 256, from any of them on. -/
theorem add_one_add_toUInt8 (a : UInt8) (k : Nat) : a + 1 + k.toUInt8 = a + (k + 1).toUInt8 := by
  have hsucc : (1 + k).toUInt8 = 1 + k.toUInt8 := UInt8.ofNat_add 1 k
  rw [UInt8.add_assoc, ← hsucc, Nat.add_comm]

/-- Up to the last address they are counted as numbers are. -/
theorem toNat_add_of_lt {a : UInt8} {n : Nat} (h : a.toNat + n < 256) :
    (a + n.toUInt8).toNat = a.toNat + n := by
  have hbyte : n % 256 = n := Nat.mod_eq_of_lt (by omega)
  rw [UInt8.toNat_add, UInt8.toNat_ofNat', hbyte]
  exact Nat.mod_eq_of_lt h

/-- A register answers at its own address and nowhere else. -/
theorem Register.ofAddress?_eq_some_iff {a : UInt8} {r : Register} :
    Register.ofAddress? a = some r ↔ a = r.address := by
  constructor
  · intro h
    unfold Register.ofAddress? at h
    split at h <;> cases h <;> rfl
  · rintro rfl
    exact Register.ofAddress?_address r

namespace Instruction

/-- The instruction that `decode` gives for an opcode has an `action`. -/
theorem exists_action_decode (opcode : UInt8) : ∃ action, (decode opcode).action = .ok action := by
  have h : ((decode opcode).action.toOption).isSome = true := by
    revert opcode
    apply forall_byte
    decide +kernel
  cases haction : (decode opcode).action with
  | ok action => exact ⟨action, rfl⟩
  | error f => rw [haction] at h; cases h

/-! ## Fields that fit the operation -/

/-- The fields of an instruction fit its operation, as far as the operation leaves no choice:
    logic works on A, the marking jumps mark, bits are those of cells that the operand byte
    addresses, what works on no operand is a single byte, and a bit is one of eight. -/
structure WellFormed (i : Instruction) : Prop where
  logic : i.operation ∈ [.or, .and, .lneg] → i.register = some .a
  mark : i.mark = decide (i.operation ∈ [.jmd, .jmi])
  bitCell : i.operation ∈ [.skp0, .skp1, .set0, .set1] → i.mode = some .memory
  single : i.operation ∈ [.sftl, .sftr, .rotl, .rotr, .noop, .halt] → i.mode = none
  bit : ∀ n ∈ i.bit, n.toNat < 8

theorem forall_bit_lt_iff (i : Instruction) :
    (∀ n ∈ i.bit, n.toNat < 8) ↔ (i.bit.getD 0).toNat < 8 := by
  cases i.bit <;> simp

instance (i : Instruction) : Decidable i.WellFormed :=
  decidable_of_iff
    ((i.operation ∈ [.or, .and, .lneg] → i.register = some .a) ∧
      i.mark = decide (i.operation ∈ [.jmd, .jmi]) ∧
      (i.operation ∈ [.skp0, .skp1, .set0, .set1] → i.mode = some .memory) ∧
      (i.operation ∈ [.sftl, .sftr, .rotl, .rotr, .noop, .halt] → i.mode = none) ∧
      (i.bit.getD 0).toNat < 8)
    ⟨fun ⟨h₁, h₂, h₃, h₄, h₅⟩ => ⟨h₁, h₂, h₃, h₄, i.forall_bit_lt_iff.mpr h₅⟩,
      fun ⟨h₁, h₂, h₃, h₄, h₅⟩ => ⟨h₁, h₂, h₃, h₄, i.forall_bit_lt_iff.mp h₅⟩⟩

/-- The fields of the instruction that `decode` gives for an opcode are `WellFormed`. -/
theorem wellFormed_decode (opcode : UInt8) : (decode opcode).WellFormed := by
  revert opcode
  apply forall_byte
  decide +kernel

/-! ## The fields behind an action -/

variable {i : Instruction} {action : Action}

theorem bind_eq_ok {ε α γ : Type} {x : Except ε α} {f : α → Except ε γ} {c : γ} :
    (x >>= f) = .ok c ↔ ∃ a, x = .ok a ∧ f a = .ok c := by
  cases x <;> simp [bind, Except.bind]

theorem needRegister_eq_ok {r : Register} : i.needRegister = .ok r ↔ i.register = some r := by
  unfold needRegister
  cases i.register <;> simp

theorem needMode_eq_ok {mode : Mode} : i.needMode = .ok mode ↔ i.mode = some mode := by
  unfold needMode
  cases i.mode <;> simp

theorem needPlaces_eq_ok {n : UInt8} : i.needPlaces = .ok n ↔ i.bit = some n := by
  unfold needPlaces
  cases i.bit <;> simp

theorem needBit_eq_ok {bit : Fin 8} :
    i.needBit = .ok bit ↔ i.bit = some (UInt8.ofNat bit.val) := by
  unfold needBit
  cases hb : i.bit with
  | none => simp
  | some n =>
    simp only [Option.some.injEq]
    constructor
    · intro h
      split at h
      · cases h
        exact UInt8.ofNat_toNat.symm
      · cases h
    · rintro rfl
      have hlt : (UInt8.ofNat bit.val).toNat = bit.val := by
        rw [UInt8.toNat_ofNat']
        omega
      simp only [hlt, bit.isLt, dite_true]

theorem combination_eq_ok {f : Combination} :
    i.combination f = .ok action ↔
      ∃ mode r, i.mode = some mode ∧ i.register = some r ∧ action = .combine f r mode := by
  simp only [combination, bind_eq_ok, needMode_eq_ok, needRegister_eq_ok, pure, Except.pure,
    Except.ok.injEq]
  constructor
  · rintro ⟨mode, hm, r, hr, rfl⟩
    exact ⟨mode, r, hm, hr, rfl⟩
  · rintro ⟨mode, r, hm, hr, rfl⟩
    exact ⟨mode, hm, r, hr, rfl⟩

theorem shiftAction_eq_ok {shift : Shift} :
    i.shiftAction shift = .ok action ↔
      ∃ r n, i.register = some r ∧ i.bit = some n ∧ action = .shift shift r n := by
  simp only [shiftAction, bind_eq_ok, needPlaces_eq_ok, needRegister_eq_ok, pure, Except.pure,
    Except.ok.injEq]
  constructor
  · rintro ⟨r, hr, n, hn, rfl⟩
    exact ⟨r, n, hr, hn, rfl⟩
  · rintro ⟨r, n, hr, hn, rfl⟩
    exact ⟨r, hr, n, hn, rfl⟩

/-- A jump is taken always, or on a condition of a register that it names. -/
theorem jump_eq_ok (h : i.jump = .ok action) :
    ∃ mode, i.mode = some mode ∧
      ((i.condition = none ∧ action = .jump none mode i.mark) ∨
        ∃ c r, i.condition = some c ∧ i.register = some r ∧
          action = .jump (some (c, r)) mode i.mark) := by
  simp only [jump, bind_eq_ok, needMode_eq_ok] at h
  obtain ⟨mode, hm, h⟩ := h
  refine ⟨mode, hm, ?_⟩
  cases hc : i.condition with
  | none =>
    simp only [hc, pure, Except.pure, Except.ok.injEq] at h
    exact .inl ⟨rfl, h.symm⟩
  | some c =>
    simp only [hc, bind_eq_ok, needRegister_eq_ok, pure, Except.pure, Except.ok.injEq] at h
    obtain ⟨r, hr, h⟩ := h
    exact .inr ⟨c, r, rfl, hr, h.symm⟩

/-- The `action` of an instruction is to halt exactly if its operation is the halt. -/
theorem action_eq_halt_iff (h : i.action = .ok action) :
    action = .halt ↔ i.operation = .halt := by
  unfold Instruction.action at h
  -- Every other operation makes an action of another form.
  cases hop : i.operation with
  | halt =>
    simp only [hop, pure, Except.pure, Except.ok.injEq] at h
    simp [← h]
  | noop =>
    simp only [hop, pure, Except.pure, Except.ok.injEq] at h
    simp [← h]
  | add | sub | load | or | and | lneg =>
    simp only [hop, combination_eq_ok] at h
    obtain ⟨mode, r, -, -, rfl⟩ := h
    simp
  | store =>
    simp only [hop, bind_eq_ok, pure, Except.pure, Except.ok.injEq] at h
    obtain ⟨r, -, mode, -, rfl⟩ := h
    simp
  | jpd | jpi | jmd | jmi =>
    simp only [hop] at h
    obtain ⟨mode, -, ⟨-, rfl⟩ | ⟨c, r, -, -, rfl⟩⟩ := jump_eq_ok h
    · simp
    · simp
  | skp0 | skp1 | set0 | set1 =>
    simp only [hop, bind_eq_ok, pure, Except.pure, Except.ok.injEq] at h
    obtain ⟨bit, -, rfl⟩ := h
    simp
  | sftl | sftr | rotl | rotr =>
    simp only [hop, shiftAction_eq_ok] at h
    obtain ⟨r, n, -, -, rfl⟩ := h
    simp

end Instruction
end Kenbak1
