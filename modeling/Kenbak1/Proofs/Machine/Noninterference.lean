/-
  Kenbak1.Proofs.Machine.Noninterference

  Bytes that are not read. `reads` lists the addresses that a step reads: its opcode, its operand
  byte, the cell that the operand byte names and its data, as far as it needs them. It depends on no
  other byte of the address space; the registers that it works on without an address, and the
  output, are the exception. So two machines that are the same but for one byte (`SameBut`) take the
  same steps as long as that byte is not read, and stay the same but for that byte
  (`SameBut.lockstep`).
-/
import Kenbak1.FrontPanel
import Kenbak1.Proofs.Machine.Plain
import Kenbak1.Proofs.Machine.Traffic

namespace Kenbak1

/-! ## Writing twice -/

/-- No register answers at two addresses. -/
theorem Register.ne_of_ofAddress? {a b : UInt8} {r q : Register} (h : a ≠ b)
    (ha : ofAddress? a = some r) (hb : ofAddress? b = some q) : r ≠ q := by
  rintro rfl
  exact h ((ofAddress?_eq_some_iff.mp ha).trans (ofAddress?_eq_some_iff.mp hb).symm)

theorem Bank.set_set (bank : Bank) (r : Register) (v w : UInt8) :
    (bank.set r v).set r w = bank.set r w := by
  cases r <;> rfl

theorem Bank.set_comm (bank : Bank) {r q : Register} (h : r ≠ q) (v w : UInt8) :
    (bank.set r v).set q w = (bank.set q w).set r v := by
  cases r <;> cases q <;> first | rfl | exact absurd rfl h

theorem Bank.set_get (bank : Bank) (r : Register) : bank.set r (bank.get r) = bank := by
  cases r <;> rfl

theorem Memory.write_read (m : Memory) (a : UInt8) : m.write a (m.read a) = m := by
  have hcells : m.cells.setIfInBounds a.toNat (m.cells.getD a.toNat 0) = m.cells := by
    refine Array.ext (by simp) fun i _ hi => ?_
    rw [Array.getElem_setIfInBounds]
    split
    · next h => simp [h, hi]
    · rfl
  unfold Memory.write Memory.read
  rw [hcells]

theorem Memory.write_write (m : Memory) (a v w : UInt8) :
    (m.write a v).write a w = m.write a w := by
  simp [Memory.write]

theorem Memory.write_comm (m : Memory) {a b : UInt8} (h : a ≠ b) (v w : UInt8) :
    (m.write a v).write b w = (m.write b w).write a v := by
  have hne : a.toNat ≠ b.toNat := fun e => h (UInt8.toNat_inj.mp e)
  simp only [Memory.write]
  rw [Array.setIfInBounds_comm v w hne]

/-! ## The registers of an action -/

/-- The registers that an action names. -/
def Action.registers : Action → List Register
  | .combine _ r _ | .store r _ | .jump (some (_, r)) _ _ | .shift _ r _ => [r]
  | .jump none _ _ | .skip .. | .assign .. | .noop | .halt => []

/-- The instructions of opcodes name A, B and X alone. -/
theorem Instruction.registers_action_decode (opcode : UInt8) {action : Action}
    (h : (decode opcode).action = .ok action) :
    ∀ r ∈ action.registers, r = .a ∨ r = .b ∨ r = .x := by
  have hall : ((decode opcode).action.toOption.all fun action =>
      action.registers.all fun r => decide (r = .a ∨ r = .b ∨ r = .x)) = true := by
    clear h
    revert opcode
    apply forall_byte
    decide +kernel
  rw [h] at hall
  intro r hr
  exact of_decide_eq_true (List.all_eq_true.mp hall r hr)

namespace Machine

/-! ## What a step reads -/

section Reads

variable {β : Type} (m : Machine β)

/-- The address at which an action reads the cell that its operand byte names, for the pointer
    that it holds or for one of its bits. -/
def cellRead (action : Action) (x : UInt8) : Option UInt8 :=
  match action with
  | .combine _ _ mode | .store _ mode =>
    if mode = .indirect ∨ mode = .indirectIndexed then some x else none
  | .jump test mode _ => if m.takes test ∧ mode = .indirect then some x else none
  | .skip .. | .assign .. => some x
  | .shift .. | .noop | .halt => none

theorem cellOf_eq (action : Action) (x : UInt8) :
    m.cellOf action x = (m.cellRead action x).bind onBus := by
  cases action with
  | combine | store | jump =>
    simp only [cellOf, cellRead]
    split <;> rfl
  | skip | assign | shift | noop | halt => rfl

variable [Bus β]

/-- The address at which an action reads its data. -/
def dataRead (action : Action) (x : UInt8) : Option UInt8 :=
  match action with
  | .combine _ _ mode => (m.effectiveAddress mode x).1
  | _ => none

/-- The addresses at which an action reads. -/
def actionReads (action : Action) (x : UInt8) : List UInt8 :=
  (m.cellRead action x).toList ++ (m.dataRead action x).toList

/-- The addresses at which a step reads, in order: those of the opcode, the operand byte, the
    cell that the operand byte names, and the data. A machine that stands reads nothing. -/
def reads : List UInt8 :=
  match m.state, (decode m.fetch.1).action with
  | .running, .ok action =>
    m.bank.p :: (if (decode m.fetch.1).hasOperand then [m.bank.p + 1] else []) ++
      m.fetchAll.2.actionReads action m.fetchAll.1
  | _, _ => []

/-- The data access of an action is a read or a write. -/
theorem filter_dataOf (action : Action) (x : UInt8) :
    (m.dataOf action x).toList.filter (fun access => !access.isWrite) =
      ((m.dataRead action x).bind onBus).toList.map .read := by
  cases action with
  | combine f r mode | store r mode =>
    cases h : (m.effectiveAddress mode x).1.bind onBus <;>
      simp [dataOf, dataRead, h, Access.isWrite]
  | jump test mode mark =>
    simp only [dataOf, dataRead]
    split
    · cases h : onBus (m.jumpTarget mode x).1 <;> simp [Access.isWrite]
    · rfl
  | assign bit value =>
    cases h : onBus x <;> simp [dataOf, dataRead, h, Access.isWrite]
  | skip | shift | noop | halt => rfl

theorem filterMap_toList (o : Option UInt8) :
    o.toList.filterMap onBus = (o.bind onBus).toList := by
  cases o with
  | none => rfl
  | some a => cases h : onBus a <;> simp [h]

/-- The reads of a step that the bus answers are those among its `accesses`. -/
theorem filter_accesses (h : m.state = .running) :
    m.traffic.accesses.filter (fun access => !access.isWrite) =
      (m.reads.filterMap onBus).map .read := by
  obtain ⟨action, haction⟩ := Instruction.exists_action_decode m.fetch.1
  have hreads : ∀ l : List UInt8,
      (l.map Access.read).filter (fun access => !access.isWrite) = l.map .read := by
    intro l
    refine List.filter_eq_self.mpr fun access hmem => ?_
    rw [Traffic.not_isWrite_of_mem_map_read hmem, Bool.not_false]
  have hopcode : [m.bank.p].filterMap onBus = (onBus m.bank.p).toList :=
    filterMap_toList (some m.bank.p)
  have hoperand : (if (decode m.fetch.1).hasOperand then [m.bank.p + 1] else []).filterMap onBus =
      (if (decode m.fetch.1).hasOperand then onBus (m.bank.p + 1) else none).toList := by
    split
    · exact filterMap_toList (some (m.bank.p + 1))
    · rfl
  simp only [Traffic.accesses, traffic, reads, h, haction, Except.toOption, Option.bind_some,
    List.filter_append, hreads, filter_dataOf, cellOf_eq, actionReads]
  rw [← List.singleton_append, List.filterMap_append, List.filterMap_append,
    List.filterMap_append, hopcode, hoperand, filterMap_toList, filterMap_toList]
  simp only [List.map_append, List.append_assoc]

end Reads

/-! ## Machines that are the same but for one byte -/

section Same

variable (m : Machine Memory)

theorem set_eq_writeByte (r : Register) (v : UInt8) : m.set r v = m.writeByte r.address v := by
  simp only [writeByte, Register.ofAddress?_address]
  rfl

theorem get_eq_readByte (r : Register) : m.get r = (m.readByte r.address).1 := by
  simp only [readByte, Register.ofAddress?_address]
  rfl

theorem writeByte_writeByte (a v w : UInt8) :
    (m.writeByte a v).writeByte a w = m.writeByte a w := by
  unfold writeByte
  cases Register.ofAddress? a with
  | some r => simp only [Bank.set_set]
  | none => exact congrArg (fun bus => { m with bus }) (m.bus.write_write a v w)

/-- A byte written over itself. -/
theorem writeByte_readByte (a : UInt8) : m.writeByte a (m.readByte a).1 = m := by
  unfold writeByte readByte
  cases Register.ofAddress? a with
  | some r => simp only [Bank.set_get]
  | none => exact congrArg (fun bus => { m with bus }) (m.bus.write_read a)

theorem writeByte_comm {a b : UInt8} (h : a ≠ b) (v w : UInt8) :
    (m.writeByte a v).writeByte b w = (m.writeByte b w).writeByte a v := by
  unfold writeByte
  cases ha : Register.ofAddress? a with
  | some r =>
    cases hb : Register.ofAddress? b with
    | some q => simp only [Bank.set_comm m.bank (Register.ne_of_ofAddress? h ha hb) v w]
    | none => rfl
  | none =>
    cases hb : Register.ofAddress? b with
    | some q => rfl
    | none => exact congrArg (fun bus => { m with bus }) (m.bus.write_comm h v w)

theorem readByte_writeByte_of_ne {a b : UInt8} (h : b ≠ a) (v : UInt8) :
    ((m.writeByte a v).readByte b).1 = (m.readByte b).1 := by
  unfold writeByte readByte
  cases ha : Register.ofAddress? a with
  | some r =>
    cases hb : Register.ofAddress? b with
    | some q => exact Bank.get_set_of_ne m.bank v (Register.ne_of_ofAddress? h hb ha)
    | none => rfl
  | none =>
    cases hb : Register.ofAddress? b with
    | some q => rfl
    | none => exact Memory.read_write_of_ne m.bus v h

/-! Ledger, journal and run state are not in the address space. -/

theorem ledger_writeByte (a v : UInt8) : (m.writeByte a v).ledger = m.ledger := by
  rw [writeByte_eq]
  rfl

theorem note_writeByte (a v : UInt8) (e : Entry) :
    (m.note e).writeByte a v = (m.writeByte a v).note e := by
  unfold writeByte
  cases Register.ofAddress? a <;> rfl

theorem withState_writeByte (a v : UInt8) (state : RunState) :
    ({ m with state } : Machine Memory).writeByte a v = { m.writeByte a v with state } := by
  unfold writeByte
  cases Register.ofAddress? a <;> rfl

/-- Two machines are the same but for the byte at an address: they are equal once that byte is
    zeroed in both. -/
def SameBut (a : UInt8) (m k : Machine Memory) : Prop :=
  m.writeByte a 0 = k.writeByte a 0

/-- The second machine is the first one with a byte of its own at the address. -/
theorem sameBut_iff {a : UInt8} {m k : Machine Memory} :
    SameBut a m k ↔ k = m.writeByte a (k.readByte a).1 := by
  constructor
  · intro h
    calc k = k.writeByte a (k.readByte a).1 := (k.writeByte_readByte a).symm
      _ = (k.writeByte a 0).writeByte a (k.readByte a).1 := (k.writeByte_writeByte a 0 _).symm
      _ = (m.writeByte a 0).writeByte a (k.readByte a).1 := by rw [← h]
      _ = m.writeByte a (k.readByte a).1 := m.writeByte_writeByte a 0 _
  · intro h
    rw [SameBut, h, writeByte_writeByte]

end Same

namespace SameBut

variable {a : UInt8} {m k : Machine Memory}

/-- A register set to any value leaves the machine the same but for the address of the register. -/
theorem of_set (m : Machine Memory) (r : Register) (v : UInt8) :
    SameBut r.address m (m.set r v) := by
  rw [SameBut, set_eq_writeByte, writeByte_writeByte]

/-! ### What such machines share -/

section Shared

variable (h : SameBut a m k)

include h

theorem readByte {b : UInt8} (hb : b ≠ a) : (k.readByte b).1 = (m.readByte b).1 := by
  have herased := congrArg (fun m => (Machine.readByte m b).1) (Eq.symm h)
  simpa only [readByte_writeByte_of_ne _ hb] using herased

theorem get {r : Register} (hr : r.address ≠ a) : k.get r = m.get r := by
  rw [get_eq_readByte, get_eq_readByte, h.readByte hr]

theorem state : k.state = m.state := by
  simpa only [state_writeByte] using congrArg Machine.state (Eq.symm h)

theorem ledger : k.ledger = m.ledger := by
  simpa only [ledger_writeByte] using congrArg Machine.ledger (Eq.symm h)

/-! ### What leaves them so -/

/-- A byte written alike, be it the one that differs, keeps the machines the same but for it. -/
theorem writeByte (b v : UInt8) : SameBut a (m.writeByte b v) (k.writeByte b v) := by
  by_cases hb : b = a
  · subst hb
    rw [SameBut, writeByte_writeByte, writeByte_writeByte]
    exact h
  · rw [SameBut, writeByte_comm _ hb, writeByte_comm _ hb, h]

theorem set (r : Register) (v : UInt8) : SameBut a (m.set r v) (k.set r v) := by
  rw [set_eq_writeByte, set_eq_writeByte]
  exact h.writeByte r.address v

theorem jumpTo (b : UInt8) : SameBut a (m.jumpTo b) (k.jumpTo b) :=
  h.set .p b

theorem note (e : Entry) : SameBut a (m.note e) (k.note e) := by
  rw [SameBut, note_writeByte, note_writeByte, h]

theorem withState (state : RunState) :
    SameBut a { m with state } ({ k with state } : Machine Memory) := by
  have herased := congrArg (fun m : Machine Memory => { m with state }) h
  exact (m.withState_writeByte a 0 state).trans
    (herased.trans (k.withState_writeByte a 0 state).symm)

theorem withLedger (l : Ledger) : SameBut a (m.withLedger l) (k.withLedger l) := by
  have hl := transparent_withLedger (β := Memory) l
  rw [SameBut, hl.writeByte, hl.writeByte, h]

end Shared

/-! ### Instructions that do not read the byte -/

/-- Only OCA, OCB, OCX and the input are registers that no step uses without their address. -/
theorem ne_of_not_mem_worked (ha : a ∉ [0o000, 0o001, 0o002, 0o003, 0o200]) {r : Register}
    (hr : r ∉ [.oca, .ocb, .ocx, .input]) : r.address ≠ a := by
  rintro rfl
  revert ha hr
  cases r <;> decide

section Unread

variable (h : SameBut a m k)

include h

theorem effectiveAddress (hx : Register.x.address ≠ a) {mode : Mode} {x : UInt8}
    (hcell : mode = .indirect ∨ mode = .indirectIndexed → x ≠ a) :
    (k.effectiveAddress mode x).1 = (m.effectiveAddress mode x).1 := by
  have hindex : k.bank.x = m.bank.x := h.get hx
  cases mode with
  | constant | memory => rfl
  | indirect => simp [Machine.effectiveAddress, h.readByte (hcell (.inl rfl))]
  | indexed => simp [Machine.effectiveAddress, hindex]
  | indirectIndexed => simp [Machine.effectiveAddress, hindex, h.readByte (hcell (.inr rfl))]

theorem readOperand (hx : Register.x.address ≠ a) {mode : Mode} {x : UInt8}
    (hcell : mode = .indirect ∨ mode = .indirectIndexed → x ≠ a)
    (hdata : ∀ b ∈ (m.effectiveAddress mode x).1, b ≠ a) :
    (k.readOperand mode x).1 = (m.readOperand mode x).1 := by
  unfold Machine.readOperand
  simp only [effectiveAddress_plain, h.effectiveAddress hx hcell]
  cases htarget : (m.effectiveAddress mode x).1 with
  | none => rfl
  | some b => exact h.readByte (hdata b htarget)

theorem writeOperand (hx : Register.x.address ≠ a) {mode : Mode} {x : UInt8}
    (hcell : mode = .indirect ∨ mode = .indirectIndexed → x ≠ a) (v : UInt8) :
    SameBut a (m.writeOperand mode x v) (k.writeOperand mode x v) := by
  rw [writeOperand_plain, writeOperand_plain, h.effectiveAddress hx hcell]
  cases (m.effectiveAddress mode x).1 with
  | none => exact h
  | some b => exact h.writeByte b v

theorem take (hp : Register.p.address ≠ a) {mode : Mode} {x : UInt8}
    (hcell : mode = .indirect → x ≠ a) (mark : Bool) :
    SameBut a (m.take mode mark x) (k.take mode mark x) := by
  have htarget : (k.jumpTarget mode x).1 = (m.jumpTarget mode x).1 := by
    cases mode with
    | indirect => exact h.readByte (hcell rfl)
    | constant | memory | indexed | indirectIndexed => rfl
  rw [take_plain, take_plain, htarget, h.get hp]
  split
  · exact (h.writeByte _ _).jumpTo _
  · exact h.jumpTo _

/-- An action that does not read the byte, nor works on a register that holds it, does the same
    to both machines. -/
theorem perform (hx : Register.x.address ≠ a) (hp : Register.p.address ≠ a) {action : Action}
    (hregisters : ∀ r ∈ action.registers, r.address ≠ a) {x : UInt8}
    (hreads : a ∉ m.actionReads action x) :
    SameBut a (m.perform action x) (k.perform action x) := by
  simp only [actionReads, List.mem_append, Option.mem_toList, not_or] at hreads
  obtain ⟨hcell, hdata⟩ := hreads
  cases action with
  | combine f r mode =>
    have hpointer : mode = .indirect ∨ mode = .indirectIndexed → x ≠ a := by
      rintro hmode rfl
      exact hcell (if_pos hmode)
    have hvalue := h.readOperand hx hpointer fun b hb e => hdata (e ▸ hb)
    show SameBut a (m.combine f r mode x) (k.combine f r mode x)
    rw [combine_plain, combine_plain, hvalue, h.get (hregisters r (List.mem_singleton_self r))]
    exact h.set r _
  | store r mode =>
    have hpointer : mode = .indirect ∨ mode = .indirectIndexed → x ≠ a := by
      rintro hmode rfl
      exact hcell (if_pos hmode)
    show SameBut a (m.writeOperand mode x (m.get r)) (k.writeOperand mode x (k.get r))
    rw [h.get (hregisters r (List.mem_singleton_self r))]
    exact h.writeOperand hx hpointer _
  | jump test mode mark =>
    have hpointer : m.takes test → mode = .indirect → x ≠ a := by
      rintro htaken hmode rfl
      exact hcell (if_pos ⟨htaken, hmode⟩)
    cases test with
    | none => exact h.take hp (hpointer rfl) mark
    | some test =>
      -- The test is on a register that both share, so both jump or neither.
      simp only [Machine.perform, h.get (hregisters test.2 (List.mem_singleton_self test.2))]
      split
      · next htaken => exact h.take hp (hpointer htaken) mark
      · exact h
  | skip bit wanted =>
    have hx' : x ≠ a := fun e => hcell (congrArg some e)
    show SameBut a (m.skip bit wanted x) (k.skip bit wanted x)
    rw [skip_plain, skip_plain, h.readByte hx', h.get hp]
    split
    · exact h.jumpTo _
    · exact h
  | assign bit value =>
    have hx' : x ≠ a := fun e => hcell (congrArg some e)
    show SameBut a (m.assign bit value x) (k.assign bit value x)
    rw [assign_plain, assign_plain, h.readByte hx']
    exact h.writeByte x _
  | shift shift r places =>
    simp only [Machine.perform, h.get (hregisters r (List.mem_singleton_self r))]
    exact h.set r _
  | noop => exact h
  | halt =>
    have hcounter : k.bank.p = m.bank.p := h.get hp
    simp only [Machine.perform, hcounter]
    exact (h.note _).withState .halted

theorem fetch (hp : Register.p.address ≠ a) (hopcode : m.bank.p ≠ a) :
    k.fetch.1 = m.fetch.1 ∧ SameBut a m.fetch.2 k.fetch.2 := by
  have hcounter : k.bank.p = m.bank.p := h.get hp
  -- The counter moves on before the byte is read.
  have hmoved : SameBut a (m.set .p (m.get .p + 1)) (k.set .p (k.get .p + 1)) := by
    rw [h.get hp]
    exact h.set .p _
  rw [fetch_plain, fetch_plain]
  refine ⟨?_, hmoved⟩
  show ((k.set .p (k.get .p + 1)).readByte k.bank.p).1 = _
  rw [hcounter]
  exact hmoved.readByte hopcode

theorem fetchAll (hp : Register.p.address ≠ a) (hopcode : m.bank.p ≠ a)
    (hoperand : (decode m.fetch.1).hasOperand → m.bank.p + 1 ≠ a) :
    k.fetchAll.1 = m.fetchAll.1 ∧ SameBut a m.fetchAll.2 k.fetchAll.2 := by
  have hcounter : k.bank.p = m.bank.p := h.get hp
  obtain ⟨hbyte, hfetched⟩ := h.fetch hp hopcode
  unfold Machine.fetchAll
  rw [hbyte, hcounter]
  cases hsize : (decode m.fetch.1).hasOperand with
  | false => exact ⟨rfl, hfetched.note _⟩
  | true =>
    -- The operand byte is the one behind the opcode.
    have hnext : m.fetch.2.bank.p = m.bank.p + 1 := by rw [fetch_plain]; rfl
    obtain ⟨hx, hdone⟩ := hfetched.fetch hp (hnext ▸ hoperand hsize)
    simp only [if_true, hx, true_and]
    exact hdone.note _

/-- An instruction that does not read the byte is the same on both machines, and keeps them the
    same but for it. -/
theorem executeNext (ha : a ∉ [0o000, 0o001, 0o002, 0o003, 0o200]) (hm : m.state = .running)
    (hreads : a ∉ m.reads) :
    k.executeNext.1 = m.executeNext.1 ∧ SameBut a m.executeNext.2 k.executeNext.2 := by
  obtain ⟨action, haction⟩ := Instruction.exists_action_decode m.fetch.1
  -- The byte is in no register that the action works on, nor in P.
  have hregisters : ∀ r ∈ action.registers, r.address ≠ a := by
    intro r hr
    obtain rfl | rfl | rfl := Instruction.registers_action_decode m.fetch.1 haction r hr
    · exact ne_of_not_mem_worked ha (by decide)
    · exact ne_of_not_mem_worked ha (by decide)
    · exact ne_of_not_mem_worked ha (by decide)
  have hp : Register.p.address ≠ a := ne_of_not_mem_worked ha (by decide)
  simp only [Machine.reads, hm, haction, List.cons_append, List.mem_cons, List.mem_append,
    not_or] at hreads
  obtain ⟨hopcode, hoperand, hrest⟩ := hreads
  obtain ⟨hbyte, -⟩ := h.fetch hp (Ne.symm hopcode)
  obtain ⟨hx, hfetched⟩ := h.fetchAll hp (Ne.symm hopcode) fun hsize => by
    rw [if_pos hsize, List.mem_singleton] at hoperand
    exact Ne.symm hoperand
  have hexecuted : ∀ l : Machine Memory,
      l.executeNext = (decode l.fetch.1, l.fetchAll.2.execute (decode l.fetch.1) l.fetchAll.1) :=
    fun _ => rfl
  rw [hexecuted, hexecuted, hbyte, hx]
  simp only [execute, haction, true_and]
  exact hfetched.perform (ne_of_not_mem_worked ha (by decide)) hp hregisters hrest

/-- A step that does not read the byte executes the same instruction on both machines, sends the
    same, and keeps them the same but for it. -/
theorem step {σ : Type} [Observer σ] (ha : a ∉ [0o000, 0o001, 0o002, 0o003, 0o200])
    (hreads : a ∉ m.reads) (o : σ) :
    (k.step o).value = (m.step o).value ∧ (k.step o).observer = (m.step o).observer ∧
      SameBut a (m.step o).machine (k.step o).machine := by
  have hledger := h.ledger
  cases hm : m.state with
  | halted =>
    have hbudget : ∀ l : Machine Memory,
        l.withBudget 0 = l.withLedger { l.ledger with budget := 0 } := fun _ => rfl
    rw [step_of_halted hm, step_of_halted (h.state.trans hm)]
    refine ⟨rfl, rfl, ?_⟩
    rw [hbudget, hbudget, hledger]
    exact h.withLedger _
  | running =>
    obtain ⟨hinstruction, hafter⟩ := h.executeNext ha hm hreads
    -- The lamps are sent the output and whether the machine halts, and both are shared.
    have hout : k.executeNext.2.bank.out = m.executeNext.2.bank.out :=
      hafter.get (r := .out) (ne_of_not_mem_worked ha (by decide))
    have hhalted : k.executeNext.2.isHalted = m.executeNext.2.isHalted := by
      rw [isHalted, hafter.state, isHalted]
    have hcount : k.executed = m.executed := congrArg Ledger.executed hledger
    have hbudget : k.budget = m.budget := congrArg Ledger.budget hledger
    have hcost : k.cost = m.cost := congrArg Ledger.cost hledger
    rw [step_of_running hm, step_of_running (h.state.trans hm), hinstruction, hout, hhalted,
      hledger, hcount, hbudget, hcost]
    exact ⟨rfl, rfl, hafter.withLedger _⟩

end Unread

end SameBut

/-! ## Runs -/

/-- Two machines take the same steps, a number of them: the instructions and what is sent are the
    same, and before and after each of them the machines are the same but for one byte. -/
structure Lockstep (a : UInt8) (m k : Machine Memory) (n : Nat) : Prop where
  same : ∀ i ≤ n, SameBut a (m.after i) (k.after i)
  instruction : ∀ i < n, ((k.after i).step ()).value = ((m.after i).step ()).value
  sent : ∀ {σ : Type} [Observer σ] (o : σ), (k.steps n o).2 = (m.steps n o).2

/-- Two machines that are `SameBut` for one byte take the same steps as long as none of the steps of
    the first `reads` it. -/
theorem SameBut.lockstep {a : UInt8} (ha : a ∉ [0o000, 0o001, 0o002, 0o003, 0o200])
    {m k : Machine Memory} (h : SameBut a m k) {n : Nat}
    (hreads : ∀ i < n, a ∉ (m.after i).reads) : Lockstep a m k n := by
  have hsame : ∀ i ≤ n, SameBut a (m.after i) (k.after i) := by
    intro i hi
    induction i with
    | zero => exact h
    | succ i ih =>
      rw [after_succ_eq_next, after_succ_eq_next]
      exact ((ih (by omega)).step ha (hreads i hi) ()).2.2
  refine ⟨hsame, fun i hi => ((hsame i hi.le).step ha (hreads i hi) ()).1, fun o => ?_⟩
  -- Each step starts from what the steps before it sent, which is the same on both.
  have hsent : ∀ i ≤ n, (k.steps i o).2 = (m.steps i o).2 := by
    intro i hi
    induction i with
    | zero => rfl
    | succ i ih =>
      rw [steps_add, steps_add, fst_steps, fst_steps, ih (by omega)]
      exact ((hsame i (by omega)).step ha (hreads i hi) _).2.1
  exact hsent n le_rfl

/-- A byte that is not read disturbs nothing. At every address but those of A, B, X and P, which
    instructions use without their address, and of the output, which is sent: machines that are the
    same but for the byte there (`SameBut`) take the same steps (`Lockstep`) as long as none of them
    reads it (`reads`). So nothing is disturbed in a program that does not read OCA, OCB, OCX or the
    input by a value put there, nor by the buttons of the input. Machines are the same but for a
    byte if the second is the first with a byte of its own; and what is taken to be read is what the
    bus is asked for, where the bus is asked (`traffic`). -/
theorem unread_byte_undisturbing :
    (∀ a ∉ [0o000, 0o001, 0o002, 0o003, 0o200], ∀ (m k : Machine Memory) (n : Nat),
      SameBut a m k → (∀ i < n, a ∉ (m.after i).reads) → Lockstep a m k n) ∧
    (∀ r ∈ [Register.oca, .ocb, .ocx, .input], ∀ (m : Machine Memory) (v : UInt8) (n : Nat),
      (∀ i < n, r.address ∉ (m.after i).reads) → Lockstep r.address m (m.set r v) n) ∧
    (∀ (panel : FrontPanel Memory) (button : Button) (n : Nat),
      (button = .clear ∨ ∃ number, button = .bit number) →
      let m := panel.machine.note (.pressed button)
      (∀ i < n, Register.input.address ∉ (m.after i).reads) →
        Lockstep Register.input.address m (panel.press button).machine n) ∧
    (∀ (a : UInt8) (m k : Machine Memory),
      SameBut a m k ↔ k = m.writeByte a (k.readByte a).1) ∧
    (∀ {β : Type} [Bus β] (m : Machine β), m.state = .running →
      m.traffic.accesses.filter (fun access => !access.isWrite) =
        (m.reads.filterMap onBus).map .read) := by
  have hunworked : ∀ r ∈ [Register.oca, .ocb, .ocx, .input],
      r.address ∉ ([0o000, 0o001, 0o002, 0o003, 0o200] : List UInt8) := by decide
  refine ⟨fun a ha m k n h hreads => h.lockstep ha hreads, fun r hr m v n hreads => ?_, ?_,
    fun _ _ _ => sameBut_iff, fun m => m.filter_accesses⟩
  · exact (SameBut.of_set m r v).lockstep (hunworked r hr) hreads
  · intro panel button n hbutton m hreads
    have hinput : ∀ v, Lockstep Register.input.address m (m.set .input v) n := fun v =>
      (SameBut.of_set m .input v).lockstep (hunworked .input (by decide)) hreads
    obtain rfl | ⟨number, rfl⟩ := hbutton
    · exact hinput 0
    · exact hinput (m.bank.input ||| bitMask (Fin.ofNat 8 number.toNat))

/-- A program that stores A in the input, and halts, reads no input and nothing at 100. Whatever
    stands there, and whichever buttons are pressed before, it does the same; and the input that
    it leaves is A. -/
theorem unread_byte_undisturbing_store_input :
    let m : Machine Memory :=
      { Machine.fresh with
        bank := { a := 7, p := 4 }, bus := (Memory.zero.write 4 0o034).write 5 0o377 }
    let panel : FrontPanel Memory := { machine := m, lamps := {} }
    m.reads = [4, 5] ∧ (m.after 1).reads = [6] ∧
      Lockstep 0o100 m (m.writeByte 0o100 9) 2 ∧
      Lockstep Register.input.address m (m.set .input 0o125) 2 ∧
      ((m.set .input 0o125).after 2).get .input = 7 ∧
      Lockstep Register.input.address (panel.machine.note (.pressed (.bit 3)))
        (panel.press (.bit 3)).machine 2 := by
  intro m panel
  have hfirst : m.reads = [4, 5] := by decide +kernel
  have hsecond : (m.after 1).reads = [6] := by decide +kernel
  have hunread : ∀ a ∉ ([4, 5, 6] : List UInt8), ∀ i < 2, a ∉ (m.after i).reads := by
    intro a ha i hi
    simp only [List.mem_cons, List.not_mem_nil, or_false, not_or] at ha
    obtain rfl | rfl : i = 0 ∨ i = 1 := by omega
    · rw [after_zero, hfirst]
      simp [ha]
    · rw [hsecond]
      simp [ha]
  have hsame : SameBut 0o100 m (m.writeByte 0o100 9) := (m.writeByte_writeByte 0o100 9 0).symm
  obtain ⟨hbyte, hregister, hbutton, -⟩ := unread_byte_undisturbing
  refine ⟨hfirst, hsecond, ?_, ?_, by decide +kernel, ?_⟩
  · exact hbyte 0o100 (by decide) m _ 2 hsame (hunread 0o100 (by decide))
  · exact hregister .input (by decide) m 0o125 2 (hunread _ (by decide))
  · exact hbutton panel (.bit 3) 2 (.inr ⟨3, rfl⟩) (hunread _ (by decide))

end Machine
end Kenbak1
