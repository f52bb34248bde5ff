/-
  Kenbak1.Proofs.Machine.Stores

  What an instruction writes to the address space. It stores at most one byte, at an address that it
  reads before it stores (`storesNext`); whatever else it changes are A, B, X and P (`changed`). So
  the bytes at all other addresses after a step are those before it, but for the one that was stored
  (`readByte_next`).
-/
import Kenbak1.Proofs.Machine.Noninterference

namespace Kenbak1
namespace Machine

/-! ## The byte that is stored -/

section Stores

variable {β : Type} [Bus β] (m : Machine β)

/-- The address at which an action stores a byte, be it that of a register, and the byte: a
    register, the return address of a marking jump that is taken, or a cell with a bit changed. -/
def stores (action : Action) (x : UInt8) : Option (UInt8 × UInt8) :=
  match action with
  | .store r mode => (m.effectiveAddress mode x).1.map (·, m.get r)
  | .jump test mode mark =>
    if m.takes test ∧ mark then some ((m.jumpTarget mode x).1, m.bank.p) else none
  | .assign bit value =>
    let cell := (m.readByte x).1
    some (x, if value then cell ||| bitMask bit else cell &&& ~~~(bitMask bit))
  | .combine .. | .skip .. | .shift .. | .noop | .halt => none

/-- What the instruction at P stores. -/
def storesNext : Option (UInt8 × UInt8) :=
  (decode m.fetch.1).action.toOption.bind (m.fetchAll.2.stores · m.fetchAll.1)

/-- The machine with a byte stored, if there is one. -/
def put : Option (UInt8 × UInt8) → Machine β
  | some (a, v) => m.writeByte a v
  | none => m

/-- The machine with the byte stored that the instruction at P stores, and nothing else done. -/
def stored : Machine β :=
  m.put m.storesNext

end Stores

/-! ## What else changes -/

variable (m : Machine Memory)

/-- The addresses of the registers that instructions change without their address. -/
def changed : List UInt8 :=
  [0o000, 0o001, 0o002, 0o003]

/-- Registers and memory are all that is read. -/
theorem readByte_congr {β : Type} [Bus β] {m k : Machine β} (hbank : k.bank = m.bank)
    (hbus : k.bus = m.bus) (b : UInt8) : (k.readByte b).1 = (m.readByte b).1 := by
  unfold readByte
  rw [hbank, hbus]
  cases Register.ofAddress? b <;> rfl

/-- Fetching moves P on and is noted. -/
theorem exists_fetchAll_eq : ∃ p entry, m.fetchAll.2 = (m.set .p p).note entry := by
  unfold fetchAll
  split
  · refine ⟨m.get .p + 1 + 1, _, congrArg (note · _) ?_⟩
    rw [fetch_plain, fetch_plain]
    rfl
  · exact ⟨m.get .p + 1, _, congrArg (note · _) m.fetch_plain⟩

/-- The instruction at P is carried out as its action, with all of its bytes fetched. -/
theorem executeNext_eq_perform {action : Action} (h : (decode m.fetch.1).action = .ok action) :
    m.executeNext.2 = m.fetchAll.2.perform action m.fetchAll.1 := by
  have hexecute : m.executeNext.2 = m.fetchAll.2.execute (decode m.fetch.1) m.fetchAll.1 := rfl
  rw [hexecute, execute, h]

section Bytes

variable {b : UInt8} (hb : b ∉ changed)

include hb

theorem readByte_set_of_changed {r : Register} (hr : r = .a ∨ r = .b ∨ r = .x ∨ r = .p)
    (v : UInt8) : ((m.set r v).readByte b).1 = (m.readByte b).1 := by
  rw [set_eq_writeByte]
  refine m.readByte_writeByte_of_ne ?_ v
  rintro rfl
  rcases hr with rfl | rfl | rfl | rfl <;> exact hb (by decide)

theorem readByte_jumpTo (a : UInt8) : ((m.jumpTo a).readByte b).1 = (m.readByte b).1 :=
  m.readByte_set_of_changed hb (.inr (.inr (.inr rfl))) a

/-- A marking jump stores its return address before it moves P. -/
theorem readByte_take (mode : Mode) (mark : Bool) (x : UInt8) :
    ((m.take mode mark x).readByte b).1 =
      ((m.put (if mark then some ((m.jumpTarget mode x).1, m.bank.p) else none)).readByte b).1 := by
  rw [take_plain]
  cases mark with
  | true => exact readByte_jumpTo _ hb _
  | false => exact m.readByte_jumpTo hb _

/-- An action comes to what it stores, but for A, B, X and P. -/
theorem readByte_perform {action : Action}
    (hregisters : ∀ r ∈ action.registers, r = .a ∨ r = .b ∨ r = .x) (x : UInt8) :
    ((m.perform action x).readByte b).1 = ((m.put (m.stores action x)).readByte b).1 := by
  have hset : ∀ r ∈ action.registers, ∀ v, ((m.set r v).readByte b).1 = (m.readByte b).1 := by
    intro r hr v
    refine m.readByte_set_of_changed hb ?_ v
    obtain h | h | h := hregisters r hr
    · exact .inl h
    · exact .inr (.inl h)
    · exact .inr (.inr (.inl h))
  cases action with
  | combine f r mode =>
    show ((m.combine f r mode x).readByte b).1 = (m.readByte b).1
    rw [combine_plain]
    exact hset r (List.mem_singleton_self r) _
  | store r mode =>
    show ((m.writeOperand mode x (m.get r)).readByte b).1 = _
    rw [writeOperand_plain, stores]
    cases (m.effectiveAddress mode x).1 <;> rfl
  | jump test mode mark =>
    rw [perform_jump, stores]
    split
    · next htaken => simpa [htaken] using m.readByte_take hb mode mark x
    · next hpassed =>
      -- A jump that is not taken stores nothing.
      simp [hpassed, put]
  | skip bit wanted =>
    show ((m.skip bit wanted x).readByte b).1 = (m.readByte b).1
    rw [skip_plain]
    split
    · exact m.readByte_jumpTo hb _
    · rfl
  | assign bit value =>
    show ((m.assign bit value x).readByte b).1 = _
    rw [assign_plain]
    rfl
  | shift shift r places => exact hset r (List.mem_singleton_self r) _
  | noop => rfl
  | halt => apply readByte_congr <;> rfl

theorem readByte_put_fetchAll (store : Option (UInt8 × UInt8)) :
    ((m.fetchAll.2.put store).readByte b).1 = ((m.put store).readByte b).1 := by
  obtain ⟨p, entry, hfetched⟩ := m.exists_fetchAll_eq
  have hnoted : ∀ k : Machine Memory, ((k.note entry).readByte b).1 = (k.readByte b).1 := by
    intro k
    apply readByte_congr <;> rfl
  have hne : b ≠ Register.p.address := by
    rintro rfl
    exact hb (by decide)
  rw [hfetched]
  cases store with
  | none => exact (hnoted _).trans ((SameBut.of_set m .p p).readByte hne)
  | some cell =>
    -- The byte stored may be P: what P was before does not matter then.
    have hstored := (SameBut.of_set m .p p).writeByte cell.1 cell.2
    show ((((m.set .p p).note entry).writeByte cell.1 cell.2).readByte b).1 = _
    rw [note_writeByte, hnoted]
    exact hstored.readByte hne

/-- The bytes after a step, but for those of A, B, X and P (`changed`), are those before it with the
    one put in that the step stores (`storesNext`). -/
theorem readByte_next (hm : m.state = .running) :
    (m.next.readByte b).1 = (m.stored.readByte b).1 := by
  obtain ⟨action, haction⟩ := Instruction.exists_action_decode m.fetch.1
  have hstore : m.storesNext = m.fetchAll.2.stores action m.fetchAll.1 := by
    rw [storesNext, haction]
    rfl
  have hregisters := Instruction.registers_action_decode m.fetch.1 haction
  rw [next_of_running hm, m.executeNext_eq_perform haction]
  calc _ = ((m.fetchAll.2.perform action m.fetchAll.1).readByte b).1 := by
        apply readByte_congr <;> rfl
    _ = ((m.fetchAll.2.put m.storesNext).readByte b).1 := by
        rw [hstore]
        exact m.fetchAll.2.readByte_perform hb hregisters _
    _ = (m.stored.readByte b).1 := m.readByte_put_fetchAll hb _

end Bytes

/-! ## Lines -/

/-- Neither byte of an instruction stands at A, B, X or P: before 000 stands the input. -/
theorem not_mem_changed {a : UInt8} (ha : Register.ofAddress? a = none) :
    a ∉ changed ∧ a + 1 ∉ changed := by
  revert ha
  revert a
  apply forall_byte
  decide +kernel

/-- The line at an address is told by two bytes, if no register answers there. -/
theorem disassembleAt_congr {k : Machine Memory} {a : UInt8}
    (h : Register.ofAddress? a = none →
      (k.readByte a).1 = (m.readByte a).1 ∧ (k.readByte (a + 1)).1 = (m.readByte (a + 1)).1) :
    (k.disassembleAt a).1 = (m.disassembleAt a).1 := by
  rw [disassembleAt_eq, disassembleAt_eq]
  cases ha : Register.ofAddress? a with
  | some r => rfl
  | none =>
    obtain ⟨hopcode, hoperand⟩ := h ha
    simp only [hopcode, hoperand]

theorem disassembleAt_next (hm : m.state = .running) (a : UInt8) :
    (m.next.disassembleAt a).1 = (m.stored.disassembleAt a).1 := by
  refine disassembleAt_congr _ fun ha => ?_
  obtain ⟨hopcode, hoperand⟩ := not_mem_changed ha
  exact ⟨m.readByte_next hopcode hm, m.readByte_next hoperand hm⟩

/-- A byte that is stored elsewhere leaves a line as it is. -/
theorem disassembleAt_stored {a : UInt8}
    (h : ∀ cell ∈ m.storesNext, cell.1 ≠ a ∧ cell.1 ≠ a + 1) :
    (m.stored.disassembleAt a).1 = (m.disassembleAt a).1 := by
  unfold stored
  cases hstore : m.storesNext with
  | none => rfl
  | some cell =>
    obtain ⟨hopcode, hoperand⟩ := h cell hstore
    exact m.disassembleAt_congr fun _ =>
      ⟨m.readByte_writeByte_of_ne (Ne.symm hopcode) _, m.readByte_writeByte_of_ne (Ne.symm hoperand) _⟩

end Machine
end Kenbak1
