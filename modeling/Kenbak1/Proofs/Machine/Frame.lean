/-
  Kenbak1.Proofs.Machine.Frame

  What an instruction leaves alone. A `Transparent` change of machines is one that no access to the
  address space notices, and an instruction does not notice it either: it can be made before the
  instruction or behind it (`Transparent.executeNext`). A machine keeps a `Ledger` beside its
  registers, its memory and its run state: the counts of instructions and cycles, the cost of an
  instruction, the address latch and the last instruction. No access notices another ledger in its
  place (`transparent_withLedger`), so an instruction neither reads nor changes a single entry
  (`ledger_executeNext`). The run state is read by no instruction either, and changed by the halt
  instruction alone (`state_executeNext`).
-/
import Kenbak1.Machine.Execute
import Kenbak1.Proofs.Instruction.Decode

namespace Kenbak1

/-- The entries of a machine that no instruction reads or changes. -/
structure Ledger where
  executed : Nat
  budget : Int
  cost : Nat
  latch : UInt8
  last : Option Instruction

namespace Machine

variable {β : Type}

/-- The ledger of a machine. -/
def ledger (m : Machine β) : Ledger where
  executed := m.executed
  budget := m.budget
  cost := m.cost
  latch := m.latch
  last := m.last

/-- The machine with another ledger. -/
def withLedger (m : Machine β) (l : Ledger) : Machine β :=
  { m with
    executed := l.executed
    budget := l.budget
    cost := l.cost
    latch := l.latch
    last := l.last }

@[simp] theorem bank_withLedger (m : Machine β) (l : Ledger) :
    (m.withLedger l).bank = m.bank := rfl

@[simp] theorem state_withLedger (m : Machine β) (l : Ledger) :
    (m.withLedger l).state = m.state := rfl

@[simp] theorem ledger_withLedger (m : Machine β) (l : Ledger) :
    (m.withLedger l).ledger = l := rfl

@[simp] theorem state_set (m : Machine β) (r : Register) (v : UInt8) :
    (m.set r v).state = m.state := rfl

@[simp] theorem state_jumpTo (m : Machine β) (a : UInt8) : (m.jumpTo a).state = m.state := rfl

@[simp] theorem state_note (m : Machine β) (e : Entry) : (m.note e).state = m.state := rfl

variable {γ : Type} [Bus β] [Bus γ]

/-! ## Changes that no instruction notices -/

/-- A change of machines that can be made before an access or behind it: registers, run state
    and journal are out of its reach, and every byte of the address space is read and written
    alike on both sides. -/
structure Transparent (f : Machine β → Machine γ) : Prop where
  bank : ∀ m, (f m).bank = m.bank
  setBank : ∀ m b, { f m with bank := b } = f { m with bank := b }
  setState : ∀ m s, { f m with state := s } = f { m with state := s }
  note : ∀ m e, (f m).note e = f (m.note e)
  readByte : ∀ m a, (f m).readByte a = ((m.readByte a).1, f (m.readByte a).2)
  writeByte : ∀ m a v, (f m).writeByte a v = f (m.writeByte a v)

namespace Transparent

variable {f : Machine β → Machine γ} (hf : Transparent f)

include hf

theorem get (m : Machine β) (r : Register) : (f m).get r = m.get r := by
  show (f m).bank.get r = m.bank.get r
  rw [hf.bank]

theorem set (m : Machine β) (r : Register) (v : UInt8) : (f m).set r v = f (m.set r v) := by
  show { f m with bank := (f m).bank.set r v } = f { m with bank := m.bank.set r v }
  rw [hf.bank, hf.setBank]

theorem jumpTo (m : Machine β) (a : UInt8) : (f m).jumpTo a = f (m.jumpTo a) :=
  hf.set m .p a

/-! ### Operands -/

theorem effectiveAddress (m : Machine β) (mode : Mode) (x : UInt8) :
    (f m).effectiveAddress mode x
      = ((m.effectiveAddress mode x).1, f (m.effectiveAddress mode x).2) := by
  cases mode <;> simp [Machine.effectiveAddress, hf.readByte, hf.bank]

theorem readOperand (m : Machine β) (mode : Mode) (x : UInt8) :
    (f m).readOperand mode x = ((m.readOperand mode x).1, f (m.readOperand mode x).2) := by
  have htarget := hf.effectiveAddress m mode x
  rcases h : m.effectiveAddress mode x with ⟨target, after⟩
  rw [h] at htarget
  cases target with
  | none => simp [Machine.readOperand, h, htarget]
  | some a => simp [Machine.readOperand, h, htarget, hf.readByte]

theorem writeOperand (m : Machine β) (mode : Mode) (x v : UInt8) :
    (f m).writeOperand mode x v = f (m.writeOperand mode x v) := by
  have htarget := hf.effectiveAddress m mode x
  rcases h : m.effectiveAddress mode x with ⟨target, after⟩
  rw [h] at htarget
  cases target with
  | none => simp [Machine.writeOperand, h, htarget]
  | some a => simp [Machine.writeOperand, h, htarget, hf.writeByte]

theorem jumpTarget (m : Machine β) (mode : Mode) (x : UInt8) :
    (f m).jumpTarget mode x = ((m.jumpTarget mode x).1, f (m.jumpTarget mode x).2) := by
  cases mode <;> simp [Machine.jumpTarget, hf.readByte]

/-! ### Actions -/

theorem fetch (m : Machine β) : (f m).fetch = (m.fetch.1, f m.fetch.2) := by
  show { f m with bank := (f m).bank.advance }.readByte (f m).bank.p = _
  rw [hf.bank, hf.setBank]
  exact hf.readByte { m with bank := m.bank.advance } m.bank.p

theorem combine (m : Machine β) (c : Combination) (r : Register) (mode : Mode) (x : UInt8) :
    (f m).combine c r mode x = f (m.combine c r mode x) := by
  simp only [Machine.combine, hf.readOperand, hf.get, hf.set]

theorem take (m : Machine β) (mode : Mode) (mark : Bool) (x : UInt8) :
    (f m).take mode mark x = f (m.take mode mark x) := by
  cases mark <;> simp [Machine.take, hf.jumpTarget, hf.bank, hf.writeByte, hf.jumpTo]

theorem skip (m : Machine β) (bit : Fin 8) (wanted : Bool) (x : UInt8) :
    (f m).skip bit wanted x = f (m.skip bit wanted x) := by
  simp only [Machine.skip, hf.readByte, hf.bank, hf.jumpTo]
  split <;> rfl

theorem assign (m : Machine β) (bit : Fin 8) (value : Bool) (x : UInt8) :
    (f m).assign bit value x = f (m.assign bit value x) := by
  simp only [Machine.assign, hf.readByte, hf.writeByte]

/-- Every action can be carried out before the change or behind it. -/
theorem perform (m : Machine β) (action : Action) (x : UInt8) :
    (f m).perform action x = f (m.perform action x) := by
  cases action with
  | combine c r mode => exact hf.combine m c r mode x
  | store r mode =>
    simp only [Machine.perform, hf.get]
    exact hf.writeOperand m mode x (m.get r)
  | jump test mode mark =>
    cases test with
    | none => exact hf.take m mode mark x
    | some test =>
      simp only [Machine.perform, hf.get, hf.take]
      split <;> rfl
  | skip bit wanted => exact hf.skip m bit wanted x
  | assign bit value => exact hf.assign m bit value x
  | shift shift r places => simp only [Machine.perform, hf.get, hf.set]
  | noop => rfl
  | halt =>
    show { (f m).note (.halted ((f m).bank.p - 1)) with state := RunState.halted } = _
    rw [hf.bank, hf.note, hf.setState]
    rfl

theorem execute (m : Machine β) (i : Instruction) (x : UInt8) :
    (f m).execute i x = f (m.execute i x) := by
  unfold Machine.execute
  cases i.action with
  | ok action => exact hf.perform m action x
  | error fault => simp only [hf.note, hf.setState]

/-- The instruction at P is executed alike on both sides of the change. -/
theorem executeNext (m : Machine β) :
    (f m).executeNext = (m.executeNext.1, f m.executeNext.2) := by
  unfold Machine.executeNext
  simp only [hf.fetch, hf.bank]
  cases (decode m.fetch.1).hasOperand <;> simp [hf.note, hf.execute]

end Transparent

/-! ## The ledger -/

/-- No access notices another ledger. -/
theorem transparent_withLedger (l : Ledger) :
    Transparent (fun m : Machine β => m.withLedger l) where
  bank _ := rfl
  setBank _ _ := rfl
  setState _ _ := rfl
  note _ _ := rfl
  readByte m a := by
    unfold readByte
    cases Register.ofAddress? a <;> rfl
  writeByte m a v := by
    unfold writeByte
    cases Register.ofAddress? a <;> rfl

/-- `executeNext` is alike under every `Ledger`. -/
@[simp] theorem executeNext_withLedger (m : Machine β) (l : Ledger) :
    (m.withLedger l).executeNext = (m.executeNext.1, m.executeNext.2.withLedger l) :=
  (transparent_withLedger l).executeNext m

/-- An instruction leaves the ledger as it was. -/
@[simp] theorem ledger_executeNext (m : Machine β) : m.executeNext.2.ledger = m.ledger := by
  -- Putting a machine's own ledger in its place changes nothing, before or after.
  have h : m.executeNext.2 = m.executeNext.2.withLedger m.ledger :=
    congrArg Prod.snd (executeNext_withLedger m m.ledger)
  rw [h, ledger_withLedger]

/-! ## Reads and writes -/

/-- A read changes the bus alone. -/
theorem readByte_eq (m : Machine β) (a : UInt8) :
    (m.readByte a).2 = { m with bus := (m.readByte a).2.bus } := by
  unfold readByte
  cases Register.ofAddress? a <;> rfl

/-- A write changes registers and bus alone. -/
theorem writeByte_eq (m : Machine β) (a v : UInt8) :
    m.writeByte a v = { m with bank := (m.writeByte a v).bank, bus := (m.writeByte a v).bus } := by
  unfold writeByte
  cases Register.ofAddress? a <;> rfl

/-! ## The run state -/

@[simp] theorem state_readByte (m : Machine β) (a : UInt8) :
    (m.readByte a).2.state = m.state := by
  rw [readByte_eq]

@[simp] theorem state_writeByte (m : Machine β) (a v : UInt8) :
    (m.writeByte a v).state = m.state := by
  rw [writeByte_eq]

@[simp] theorem state_effectiveAddress (m : Machine β) (mode : Mode) (x : UInt8) :
    (m.effectiveAddress mode x).2.state = m.state := by
  cases mode <;> simp [effectiveAddress]

@[simp] theorem state_readOperand (m : Machine β) (mode : Mode) (x : UInt8) :
    (m.readOperand mode x).2.state = m.state := by
  have hstate := state_effectiveAddress m mode x
  rcases h : m.effectiveAddress mode x with ⟨target, after⟩
  rw [h] at hstate
  cases target with
  | none => simpa [readOperand, h] using hstate
  | some a => simpa [readOperand, h] using hstate

@[simp] theorem state_writeOperand (m : Machine β) (mode : Mode) (x v : UInt8) :
    (m.writeOperand mode x v).state = m.state := by
  have hstate := state_effectiveAddress m mode x
  rcases h : m.effectiveAddress mode x with ⟨target, after⟩
  rw [h] at hstate
  cases target with
  | none => simpa [writeOperand, h] using hstate
  | some a => simpa [writeOperand, h] using hstate

@[simp] theorem state_jumpTarget (m : Machine β) (mode : Mode) (x : UInt8) :
    (m.jumpTarget mode x).2.state = m.state := by
  cases mode <;> simp [jumpTarget]

@[simp] theorem state_fetch (m : Machine β) : m.fetch.2.state = m.state :=
  state_readByte { m with bank := m.bank.advance } m.bank.p

@[simp] theorem state_take (m : Machine β) (mode : Mode) (mark : Bool) (x : UInt8) :
    (m.take mode mark x).state = m.state := by
  cases mark <;> simp [take]

/-- The halt action stops the machine, and no other action does. -/
theorem state_perform (m : Machine β) (action : Action) (x : UInt8) :
    (m.perform action x).state = if action = .halt then .halted else m.state := by
  cases action with
  | combine f r mode => simp [perform, combine]
  | store r mode => simp [perform]
  | jump test mode mark =>
    cases test with
    | none => simp [perform]
    | some test =>
      simp only [perform]
      split <;> simp
  | skip bit wanted =>
    simp only [perform, skip]
    split <;> simp
  | assign bit value => simp [perform, assign]
  | shift shift r places => simp [perform]
  | noop => simp [perform]
  | halt => simp [perform]

/-- `executeNext` stops the machine exactly if the instruction at P is a halt. -/
theorem state_executeNext (m : Machine β) :
    m.executeNext.2.state
      = if m.executeNext.1.operation = .halt then .halted else m.state := by
  obtain ⟨action, haction⟩ := Instruction.exists_action_decode m.fetch.1
  have hhalt := Instruction.action_eq_halt_iff haction
  unfold executeNext
  simp only [execute, haction, state_perform, hhalt, state_note]
  cases (decode m.fetch.1).hasOperand <;> simp

end Machine

end Kenbak1
