/-
  Kenbak1.Proofs.Machine.Traffic

  The traffic of an instruction on the bus. An instruction makes at most four accesses, in a fixed
  order (`accesses`): its opcode, its operand byte, the cell that the operand byte names, and its
  data. What a register answers is not among them, and only the last of them may be a write
  (`not_isWrite_of_mem_dropLast`). `record_step` finds them on the record of a traced bus.
-/
import Kenbak1.Proofs.Machine.Traced

namespace Kenbak1

/-! ## Accesses -/

namespace Access

/-- The address on the bus. -/
def address : Access → UInt8
  | read address => address
  | write address _ => address

/-- The access writes. -/
def isWrite : Access → Bool
  | read _ => false
  | write .. => true

end Access

/-- An address, where it is the bus that answers at it. -/
def onBus (a : UInt8) : Option UInt8 :=
  if (Register.ofAddress? a).isNone then some a else none

/-- The accesses of one instruction, by what they are for. One that is not needed, or that a
    register answers, is absent. -/
structure Traffic where
  /-- Where the opcode is read. -/
  opcode : Option UInt8
  /-- Where the operand byte is read. -/
  operand : Option UInt8
  /-- Where the cell is read that the operand byte names, for the pointer that it holds or for
      one of its bits. -/
  cell : Option UInt8
  /-- The access to the data. -/
  data : Option Access

namespace Traffic

/-- The accesses in the order in which they are made. -/
def accesses (t : Traffic) : List Access :=
  (t.opcode.toList ++ t.operand.toList ++ t.cell.toList).map .read ++ t.data.toList

theorem length_accesses_le (t : Traffic) : t.accesses.length ≤ 4 := by
  have hopcode : t.opcode.toList.length ≤ 1 := Option.length_toList_le
  have hoperand : t.operand.toList.length ≤ 1 := Option.length_toList_le
  have hcell : t.cell.toList.length ≤ 1 := Option.length_toList_le
  have hdata : t.data.toList.length ≤ 1 := Option.length_toList_le
  simp only [accesses, List.length_append, List.length_map]
  omega

theorem not_isWrite_of_mem_map_read {reads : List UInt8} {access : Access}
    (h : access ∈ reads.map Access.read) : access.isWrite = false := by
  obtain ⟨a, -, rfl⟩ := List.mem_map.mp h
  rfl

/-- Only the last access may be a write. -/
theorem not_isWrite_of_mem_dropLast (t : Traffic) {access : Access}
    (h : access ∈ t.accesses.dropLast) : access.isWrite = false := by
  have hread := @not_isWrite_of_mem_map_read
    (t.opcode.toList ++ t.operand.toList ++ t.cell.toList) access
  unfold accesses at h
  cases hdata : t.data with
  | none =>
    rw [hdata, Option.toList_none, List.append_nil] at h
    exact hread (List.mem_of_mem_dropLast h)
  | some data =>
    rw [hdata, Option.toList_some, List.dropLast_concat] at h
    exact hread h

end Traffic

/-! ## What is accessed -/

namespace Machine

section Traffic

variable {β : Type} [Bus β] (m : Machine β)

/-- A jump is taken: it has no condition, or its register meets it. -/
def takes (test : Option (Condition × Register)) : Bool :=
  match test with
  | none => true
  | some (condition, r) => condition.holds (m.get r)

/-- A jump is carried out if it is taken. -/
theorem perform_jump (test : Option (Condition × Register)) (mode : Mode) (mark : Bool)
    (x : UInt8) :
    m.perform (.jump test mode mark) x = if m.takes test then m.take mode mark x else m := by
  cases test <;> rfl

/-- Where an action reads the cell that its operand byte names. -/
def cellOf (action : Action) (x : UInt8) : Option UInt8 :=
  match action with
  | .combine _ _ mode | .store _ mode =>
    if mode = .indirect ∨ mode = .indirectIndexed then onBus x else none
  | .jump test mode _ => if m.takes test ∧ mode = .indirect then onBus x else none
  | .skip .. | .assign .. => onBus x
  | .shift .. | .noop | .halt => none

/-- The access of an action to its data: what it combines, what it stores, the return address
    of a marking jump, or the cell with a bit changed. -/
def dataOf (action : Action) (x : UInt8) : Option Access :=
  match action with
  | .combine _ _ mode => ((m.effectiveAddress mode x).1.bind onBus).map .read
  | .store r mode => ((m.effectiveAddress mode x).1.bind onBus).map (.write · (m.get r))
  | .jump test mode mark =>
    if m.takes test ∧ mark then (onBus (m.jumpTarget mode x).1).map (.write · m.bank.p) else none
  | .assign bit value =>
    let cell := (m.readByte x).1
    (onBus x).map (.write · (if value then cell ||| bitMask bit else cell &&& ~~~(bitMask bit)))
  | .skip .. | .shift .. | .noop | .halt => none

/-- The operand byte of the instruction at P, or 0 where there is none, and the machine that
    has fetched and noted the instruction. -/
def fetchAll : UInt8 × Machine β :=
  let operand := if (decode m.fetch.1).hasOperand then m.fetch.2.fetch else (0, m.fetch.2)
  (operand.1, operand.2.note (.executed m.bank.p (decode m.fetch.1) operand.1))

/-- The traffic of the instruction at P. -/
def traffic : Traffic where
  opcode := onBus m.bank.p
  operand := if (decode m.fetch.1).hasOperand then onBus (m.bank.p + 1) else none
  cell := (decode m.fetch.1).action.toOption.bind (m.fetchAll.2.cellOf · m.fetchAll.1)
  data := (decode m.fetch.1).action.toOption.bind (m.fetchAll.2.dataOf · m.fetchAll.1)

/-- The action needs nothing behind its operand byte: it is a jump that is not taken, or a store
    to a constant. -/
def Idle : Action → Prop
  | .jump test _ _ => m.takes test = false
  | .store _ mode => mode = .constant
  | _ => False

theorem traffic_of_idle {action : Action}
    (haction : (decode m.fetch.1).action = .ok action) (hidle : m.fetchAll.2.Idle action) :
    m.traffic.cell = none ∧ m.traffic.data = none := by
  simp only [traffic, haction, Except.toOption, Option.bind_some]
  cases action with
  | jump test mode mark =>
    have htest : m.fetchAll.2.takes test = false := hidle
    simp [cellOf, dataOf, htest]
  | store r mode =>
    obtain rfl : mode = .constant := hidle
    simp [cellOf, dataOf, effectiveAddress]
  | combine | skip | assign | shift | noop | halt => exact hidle.elim

end Traffic

/-! ## The record -/

variable {β σ : Type} [Bus β] [Observer σ] (m : Machine (Traced β))

/-- The accesses that were made on a traced bus, oldest first. -/
def record : List Access :=
  m.bus.accesses.toList

theorem record_readByte (a : UInt8) :
    (m.readByte a).2.record = m.record ++ (onBus a).toList.map .read := by
  unfold readByte onBus record
  cases Register.ofAddress? a with
  | some r => simp
  | none => simp [Bus.read]

theorem record_writeByte (a v : UInt8) :
    (m.writeByte a v).record = m.record ++ ((onBus a).map (.write · v)).toList := by
  unfold writeByte onBus record
  cases Register.ofAddress? a with
  | some r => simp
  | none => simp [Bus.write]

theorem bank_readByte (a : UInt8) : (m.readByte a).2.bank = m.bank := by
  unfold readByte
  cases Register.ofAddress? a <;> rfl

/-! ### Operands -/

theorem record_effectiveAddress (mode : Mode) (x : UInt8) :
    (m.effectiveAddress mode x).2.record = m.record ++
      (if mode = .indirect ∨ mode = .indirectIndexed then onBus x else none).toList.map .read := by
  cases mode with
  | constant | memory | indexed => simp [effectiveAddress]
  | indirect | indirectIndexed => simp [effectiveAddress, record_readByte]

theorem record_readOperand (mode : Mode) (x : UInt8) :
    (m.readOperand mode x).2.record = (m.effectiveAddress mode x).2.record ++
      (((m.effectiveAddress mode x).1.bind onBus).map .read).toList := by
  unfold readOperand
  cases h : (m.effectiveAddress mode x).1 with
  | none => simp [h]
  | some a => simp [h, record_readByte, Option.toList_map]

theorem record_writeOperand (mode : Mode) (x v : UInt8) :
    (m.writeOperand mode x v).record = (m.effectiveAddress mode x).2.record ++
      (((m.effectiveAddress mode x).1.bind onBus).map (.write · v)).toList := by
  unfold writeOperand
  cases h : (m.effectiveAddress mode x).1 with
  | none => simp [h]
  | some a => simp [h, record_writeByte]

theorem record_jumpTarget (mode : Mode) (x : UInt8) :
    (m.jumpTarget mode x).2.record
      = m.record ++ (if mode = .indirect then onBus x else none).toList.map .read := by
  cases mode with
  | indirect => simp [jumpTarget, record_readByte]
  | constant | memory | indexed | indirectIndexed => simp [jumpTarget]

theorem bank_jumpTarget (mode : Mode) (x : UInt8) : (m.jumpTarget mode x).2.bank = m.bank := by
  cases mode with
  | indirect => exact m.bank_readByte x
  | constant | memory | indexed | indirectIndexed => rfl

/-! ### Instructions -/

theorem record_fetch : m.fetch.2.record = m.record ++ (onBus m.bank.p).toList.map .read :=
  record_readByte { m with bank := m.bank.advance } m.bank.p

theorem bank_fetch : m.fetch.2.bank = m.bank.advance :=
  bank_readByte { m with bank := m.bank.advance } m.bank.p

/-- A jump that is taken reads its pointer and, if it marks, writes its return address. -/
theorem record_take (mode : Mode) (mark : Bool) (x : UInt8) :
    (m.take mode mark x).record = m.record
      ++ (if mode = .indirect then onBus x else none).toList.map .read
      ++ (if mark then (onBus (m.jumpTarget mode x).1).map (.write · m.bank.p)
          else none).toList := by
  have htarget := m.record_jumpTarget mode x
  unfold take
  cases mark with
  | false =>
    rw [if_neg Bool.false_ne_true, if_neg Bool.false_ne_true, Option.toList_none, List.append_nil]
    exact htarget
  | true =>
    have hwrite := (m.jumpTarget mode x).2.record_writeByte (m.jumpTarget mode x).1 m.bank.p
    rw [htarget] at hwrite
    rw [if_pos rfl, bank_jumpTarget]
    exact hwrite

/-- An action reads the cell that its operand byte names (`cellOf`), if it needs it, and then its
    data (`dataOf`). -/
theorem record_perform (action : Action) (x : UInt8) :
    (m.perform action x).record
      = m.record ++ (m.cellOf action x).toList.map .read ++ (m.dataOf action x).toList := by
  cases action with
  | combine f r mode =>
    have hvalue := m.record_readOperand mode x
    rw [record_effectiveAddress] at hvalue
    exact hvalue
  | store r mode =>
    have hstore := m.record_writeOperand mode x (m.get r)
    rw [record_effectiveAddress] at hstore
    exact hstore
  -- A jump that is not taken reads no pointer and writes no mark.
  | jump test mode mark =>
    have htake := m.record_take mode mark x
    rw [perform_jump]
    by_cases htaken : m.takes test = true
    · simpa [cellOf, dataOf, htaken] using htake
    · simp [cellOf, dataOf, htaken]
  | skip bit wanted =>
    have hcell : (m.skip bit wanted x).record = (m.readByte x).2.record := by
      unfold skip
      dsimp only
      split <;> rfl
    show (m.skip bit wanted x).record = _
    rw [hcell, record_readByte]
    simp [cellOf, dataOf]
  | assign bit value =>
    show ((m.readByte x).2.writeByte x _).record = _
    rw [record_writeByte, record_readByte]
    rfl
  | shift shift r places => simp [perform, cellOf, dataOf, record, set]
  | noop => simp [perform, cellOf, dataOf]
  | halt => simp [perform, cellOf, dataOf, record, note]

theorem record_fetchAll :
    m.fetchAll.2.record = m.record ++ (onBus m.bank.p).toList.map .read
      ++ (if (decode m.fetch.1).hasOperand then onBus (m.bank.p + 1) else none).toList.map .read := by
  have hopcode := m.record_fetch
  have hoperand := m.fetch.2.record_fetch
  rw [hopcode, bank_fetch] at hoperand
  unfold fetchAll
  cases (decode m.fetch.1).hasOperand with
  | false =>
    rw [if_neg Bool.false_ne_true, if_neg Bool.false_ne_true, Option.toList_none, List.map_nil,
      List.append_nil]
    exact hopcode
  | true => exact hoperand

/-- The instruction at P makes the accesses of its traffic. -/
theorem record_executeNext : m.executeNext.2.record = m.record ++ m.traffic.accesses := by
  obtain ⟨action, haction⟩ := Instruction.exists_action_decode m.fetch.1
  have hexecuted : m.executeNext.2 = m.fetchAll.2.execute (decode m.fetch.1) m.fetchAll.1 := rfl
  have hperform : m.executeNext.2 = m.fetchAll.2.perform action m.fetchAll.1 := by
    rw [hexecuted, execute, haction]
  rw [hperform, record_perform, record_fetchAll]
  simp [traffic, Traffic.accesses, haction, Except.toOption]

/-- A `step` makes the `accesses` of the instruction that it executes, and no others. -/
theorem record_step (o : σ) :
    (m.step o).machine.record
      = m.record ++ (if m.state = .running then m.traffic.accesses else []) := by
  cases h : m.state with
  | halted => simp [step_of_halted h, record, withBudget]
  | running =>
    rw [step_of_running h]
    simp only [if_pos]
    exact m.record_executeNext

end Machine
end Kenbak1
