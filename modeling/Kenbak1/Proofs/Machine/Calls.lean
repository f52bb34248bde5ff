/-
  Kenbak1.Proofs.Machine.Calls

  Subroutines. A marking jump that is taken (`Jumps`) leaves the address behind itself in the cell
  it leads to (`readByte_landing`) and goes on behind that cell (`p_next`); an indirect jump through
  the cell goes back there. In between any program may run that does not write the cell
  (`readByte_after_of_ne`).
-/
import Kenbak1.Proofs.Machine.Footprint
import Kenbak1.Proofs.Machine.Listed

namespace Kenbak1

/-! ## Jumps -/

/-- The operations that jump. -/
def Operation.jumps : List Operation :=
  [.jpd, .jpi, .jmd, .jmi]

/-- The operations that mark the cell they lead to. -/
def Operation.marks : List Operation :=
  [.jmd, .jmi]

/-- How a jump reads its operand byte. -/
def Operation.jumpMode (f : Operation) : Mode :=
  if f = .jpi ∨ f = .jmi then .indirect else .memory

namespace Instruction

theorem mode_jump_decode {opcode : UInt8} (h : (decode opcode).operation ∈ Operation.jumps) :
    (decode opcode).mode = some (decode opcode).operation.jumpMode := by
  revert opcode
  apply forall_byte
  decide +kernel

/-- The action of a jump. -/
theorem jump_of_action {i : Instruction} {action : Action} (hf : i.operation ∈ Operation.jumps)
    (h : i.action = .ok action) : i.jump = .ok action := by
  unfold Instruction.action at h
  simp only [Operation.jumps, List.mem_cons, List.not_mem_nil, or_false] at hf
  rcases hf with hop | hop | hop | hop <;> simpa only [hop] using h

end Instruction

namespace Machine

/-- The next step takes a jump with an operand byte. -/
structure Jumps (m : Machine Memory) (f : Operation) (x : UInt8) : Prop where
  running : m.state = .running
  operation : (decode m.fetch.1).operation = f
  operand : m.fetchAll.1 = x
  taken : ∀ c r, (decode m.fetch.1).condition = some c → (decode m.fetch.1).register = some r →
    c.holds (m.get r) = true

/-- Where a jump with an operand byte leads: to the byte itself, or to what the cell there holds
    once P is behind the jump. -/
def landing (m : Machine Memory) (f : Operation) (x : UInt8) : UInt8 :=
  if f = .jpi ∨ f = .jmi then ((m.jumpTo (m.bank.p + 2)).readByte x).1 else x

variable {m : Machine Memory} {f : Operation} {x : UInt8}

/-- An instruction of two bytes is dispatched with P behind them. -/
theorem fetchAll_of_hasOperand (h : (decode m.fetch.1).hasOperand = true) :
    m.fetchAll.2.bank = m.bank.jump (m.bank.p + 2) ∧ m.fetchAll.2.bus = m.bus := by
  have hfetched : m.fetch.2.fetch.2 = m.jumpTo (m.bank.p + 1 + 1) := by
    rw [fetch_plain, fetch_plain]
    rfl
  have htwo : m.bank.p + 1 + 1 = m.bank.p + 2 := UInt8.add_assoc _ 1 1
  rw [htwo] at hfetched
  unfold fetchAll
  rw [if_pos h]
  exact ⟨congrArg (·.bank) hfetched, congrArg (·.bus) hfetched⟩

namespace Jumps

section Next

variable (h : m.Jumps f x) (hf : f ∈ Operation.jumps)
include h hf

theorem fetched : m.fetchAll.2.bank = m.bank.jump (m.bank.p + 2) ∧ m.fetchAll.2.bus = m.bus := by
  have hmode := Instruction.mode_jump_decode (h.operation ▸ hf)
  exact fetchAll_of_hasOperand (by rw [Instruction.hasOperand, hmode]; rfl)

theorem jumpTarget_fetchAll : (m.fetchAll.2.jumpTarget f.jumpMode x).1 = m.landing f x := by
  obtain ⟨hbank, hbus⟩ := h.fetched hf
  unfold Operation.jumpMode landing
  split
  · exact readByte_congr (m := m.jumpTo (m.bank.p + 2)) hbank hbus x
  · rfl

/-- The action of the instruction is a jump that is taken when it has been fetched. -/
theorem exists_test :
    ∃ test, (decode m.fetch.1).action
        = .ok (.jump test f.jumpMode (decide (f ∈ Operation.marks))) ∧
      m.fetchAll.2.takes test = true := by
  obtain ⟨action, haction⟩ := Instruction.exists_action_decode m.fetch.1
  have hmode := Instruction.mode_jump_decode (h.operation ▸ hf)
  have hmark : (decode m.fetch.1).mark = decide (f ∈ Operation.marks) := by
    rw [(Instruction.wellFormed_decode m.fetch.1).mark, h.operation]
    rfl
  obtain ⟨mode, hsome, htest⟩ :=
    Instruction.jump_eq_ok (Instruction.jump_of_action (h.operation ▸ hf) haction)
  obtain rfl : mode = f.jumpMode := by
    rw [hmode, h.operation] at hsome
    exact (Option.some_injective _ hsome).symm
  rw [haction, ← hmark]
  rcases htest with ⟨-, rfl⟩ | ⟨c, r, hc, hr, rfl⟩
  · exact ⟨none, rfl, rfl⟩
  · refine ⟨some (c, r), rfl, ?_⟩
    -- The register that is tested is not P, which has moved.
    have hget : m.fetchAll.2.get r = m.get r := by
      have hregister := Instruction.registers_action_decode m.fetch.1 haction r
        (List.mem_singleton_self r)
      rw [get, (h.fetched hf).1]
      rcases hregister with rfl | rfl | rfl <;> rfl
    rw [takes, hget]
    exact h.taken c r hc hr

/-- The step carries the jump out (`take`), and marks its target if the operation does so. -/
theorem next_eq_take :
    let jumped := m.fetchAll.2.take f.jumpMode (decide (f ∈ Operation.marks)) x
    m.next.bank = jumped.bank ∧ m.next.bus = jumped.bus := by
  intro jumped
  obtain ⟨test, haction, htakes⟩ := h.exists_test hf
  have hexecuted : m.executeNext.2 = jumped := by
    rw [m.executeNext_eq_perform haction, h.operand, perform_jump, if_pos htakes]
  rw [next_of_running h.running, hexecuted]
  exact ⟨rfl, rfl⟩

/-- P goes to the `landing`, or behind it if the jump marks it. -/
theorem p_next :
    m.next.bank.p = if f ∈ Operation.marks then m.landing f x + 1 else m.landing f x := by
  rw [(h.next_eq_take hf).1, p_take, h.jumpTarget_fetchAll hf]
  simp only [decide_eq_true_eq]

/-- The step writes the target, if the jump marks it. -/
theorem writesNext_eq :
    m.writesNext = if f ∈ Operation.marks then some (m.landing f x) else none := by
  obtain ⟨test, haction, htakes⟩ := h.exists_test hf
  rw [writesNext, h.running, haction, ← h.jumpTarget_fetchAll hf, h.operand]
  show (m.fetchAll.2.stores _ x).map (·.1) = _
  simp only [stores, htakes, true_and, decide_eq_true_eq]
  split <;> rfl

/-- The mark is the address behind the jump. -/
theorem readByte_landing (hmark : f ∈ Operation.marks)
    (hp : m.landing f x ≠ Register.p.address)
    (hcell : Register.ofAddress? (m.landing f x) = none →
      (m.landing f x).toNat < m.bus.cells.size) :
    (m.next.readByte (m.landing f x)).1 = m.bank.p + 2 := by
  obtain ⟨hbank, hbus⟩ := h.fetched hf
  obtain ⟨hnextBank, hnextBus⟩ := h.next_eq_take hf
  -- P stands behind the operand byte when the mark is made.
  have hreturn : m.fetchAll.2.get .p = m.bank.p + 2 := by
    rw [get, hbank]
    rfl
  rw [readByte_congr hnextBank hnextBus, take_plain, if_pos (decide_eq_true hmark),
    h.jumpTarget_fetchAll hf, hreturn]
  refine (readByte_withP _ hp _).trans ?_
  exact m.fetchAll.2.readByte_writeByte_same (hbus ▸ hcell) _

end Next

end Jumps

/-! ## Calls -/

/-- A marking jump that is taken (`Jumps`) is a call. Its target (`landing`), in memory or a
    register, holds the address behind the jump, P is behind the target, and no other cell has
    changed, the cells that registers cover included. After any run that does not write the target
    (`writesNext`), an indirect jump through it that is taken goes back behind the marking jump. The
    target must not be P or missing from memory. -/
theorem marking_jump_calls {target : UInt8} (hf : f ∈ Operation.marks) (h : m.Jumps f x)
    (htarget : m.landing f x = target) (hp : target ≠ Register.p.address)
    (hcell : Register.ofAddress? target = none → target.toNat < m.bus.cells.size) :
    (m.next.readByte target).1 = m.bank.p + 2 ∧
      m.next.bank.p = target + 1 ∧
      (∀ a, a ≠ target → a ≠ Register.p.address →
        (m.next.readByte a).1 = (m.readByte a).1) ∧
      (∀ r : Register, m.next.bus.read r.address = m.bus.read r.address) ∧
      ∀ n, (∀ i < n, (m.next.after i).writesNext ≠ some target) →
        (m.next.after n).Jumps .jpi target →
          (m.next.after n).next.bank.p = m.bank.p + 2 := by
  subst htarget
  have hjumps : f ∈ Operation.jumps := by
    simp only [Operation.marks, List.mem_cons, List.not_mem_nil, or_false] at hf
    rcases hf with rfl | rfl <;> decide
  have hmark := h.readByte_landing hjumps hf hp hcell
  refine ⟨hmark, ?_, ?_, ?_, ?_⟩
  · rw [h.p_next hjumps, if_pos hf]
  · intro a ha hap
    refine readByte_next_of_ne hap ?_
    rw [h.writesNext_eq hjumps, if_pos hf]
    exact fun e => ha (Option.some_injective _ e).symm
  · exact fun r => (Keeps.step ()).behind r
  · -- The mark is still there when the indirect jump reads it, with P behind that jump.
    intro n hkept hback
    have hlanding : (m.next.after n).landing .jpi (m.landing f x)
        = ((m.next.after n).readByte (m.landing f x)).1 :=
      readByte_withP _ hp _
    rw [hback.p_next (by decide), if_neg (by decide), hlanding, readByte_after_of_ne hp hkept, hmark]

/-- A call at 004 of a subroutine at 040 that loads A and returns. -/
theorem marking_jump_calls_load :
    let bus := ((((((Memory.zero.write 0o004 0o364).write 0o005 0o040).write 0o041 0o023).write
      0o042 5).write 0o043 0o354).write 0o044 0o040)
    let m : Machine Memory := { Machine.fresh with bank := { p := 0o004 }, bus }
    m.Jumps .jmd 0o040 ∧ (m.next.readByte 0o040).1 = 0o006 ∧ m.next.bank.p = 0o041 ∧
      (m.next.after 1).Jumps .jpi 0o040 ∧ (m.next.after 1).next.bank.p = 0o006 := by
  intro bus m
  have hcall : m.fetch.1 = 0o364 ∧ m.fetchAll.1 = 0o040 := by decide +kernel
  -- The body is one instruction, which writes A and comes to the return.
  have hbody : m.next.writesNext = some 0o000 ∧ (m.next.after 1).state = .running ∧
      (m.next.after 1).fetch.1 = 0o354 ∧ (m.next.after 1).fetchAll.1 = 0o040 := by decide +kernel
  obtain ⟨hopcode, hoperand⟩ := hcall
  obtain ⟨hwrites, hrunning, hreturn, hcell⟩ := hbody
  have hjump : m.Jumps .jmd 0o040 :=
    { running := rfl
      operation := by rw [hopcode]; decide
      operand := hoperand
      taken := fun c r hc => by rw [hopcode] at hc; cases hc }
  have hback : (m.next.after 1).Jumps .jpi 0o040 :=
    { running := hrunning
      operation := by rw [hreturn]; decide
      operand := hcell
      taken := fun c r hc => by rw [hreturn] at hc; cases hc }
  have hsize : bus.cells.size = memorySize := by
    simp only [bus, Memory.size_write]
    exact Array.size_replicate
  obtain ⟨hmark, hp, -, -, hgoes⟩ := marking_jump_calls (by decide) hjump rfl (by decide)
    fun _ => by rw [hsize]; decide
  refine ⟨hjump, hmark, hp, hback, hgoes 1 ?_ hback⟩
  intro i hi
  obtain rfl : i = 0 := by omega
  rw [after_zero, hwrites]
  decide

end Machine
end Kenbak1
