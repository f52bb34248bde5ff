/-
  Kenbak1.Proofs.Machine.Isolation

  What stays true of a machine. A machine is changed in few ways: its registers, its run state and
  its ledger are set, entries go into its journal, and its bus is used at addresses that no register
  answers at. An `Invariant` is something that these leave true of a machine; it stays true through
  steps, runs and bursts (`Invariant.step`, `Invariant.run`, `Invariant.runBursts`), whatever the
  bus answers. In particular the machine leaves true of its bus what such uses of the bus leave true
  of it (`Bus.Stable`).
-/
import Kenbak1.Proofs.Machine.Frame

namespace Kenbak1

/-! ## Invariants -/

/-- Something true of a machine that does not hang on its registers, its run state and its
    ledger, and that stays true as entries other than faults go into its journal and as its bus
    is used away from the addresses that registers answer at. -/
structure Machine.Invariant {β : Type} [Bus β] (P : Machine β → Prop) : Prop where
  bank : ∀ m bank, P m → P { m with bank }
  state : ∀ m state, P m → P { m with state }
  ledger : ∀ m l, P m → P (m.withLedger l)
  note : ∀ m e, e.level ≠ .error → P m → P (m.note e)
  read : ∀ m a, Register.ofAddress? a = none → P m → P { m with bus := (Bus.read m.bus a).2 }
  write : ∀ m a v, Register.ofAddress? a = none → P m → P { m with bus := Bus.write m.bus a v }

namespace Machine.Invariant

variable {β σ : Type} [Bus β] [Observer σ] {P : Machine β → Prop} (hi : Invariant P)
  {m : Machine β}

include hi

/-! ### The address space -/

theorem readByte (h : P m) (a : UInt8) : P (m.readByte a).2 := by
  unfold Machine.readByte
  cases ha : Register.ofAddress? a with
  | some r => exact h
  | none => exact hi.read m a ha h

theorem writeByte (h : P m) (a v : UInt8) : P (m.writeByte a v) := by
  unfold Machine.writeByte
  cases ha : Register.ofAddress? a with
  | some r => exact hi.bank m _ h
  | none => exact hi.write m a v ha h

theorem set (h : P m) (r : Register) (v : UInt8) : P (m.set r v) :=
  hi.bank m _ h

/-! ### Operands -/

theorem effectiveAddress (h : P m) (mode : Mode) (x : UInt8) :
    P (m.effectiveAddress mode x).2 := by
  cases mode with
  | constant | memory | indexed => exact h
  | indirect | indirectIndexed => exact hi.readByte h x

theorem readOperand (h : P m) (mode : Mode) (x : UInt8) : P (m.readOperand mode x).2 := by
  have htarget := hi.effectiveAddress h mode x
  unfold Machine.readOperand
  dsimp only
  split
  · next a _ => exact hi.readByte htarget a
  · exact htarget

theorem writeOperand (h : P m) (mode : Mode) (x v : UInt8) : P (m.writeOperand mode x v) := by
  have htarget := hi.effectiveAddress h mode x
  unfold Machine.writeOperand
  dsimp only
  split
  · next a _ => exact hi.writeByte htarget a v
  · exact htarget

theorem jumpTarget (h : P m) (mode : Mode) (x : UInt8) : P (m.jumpTarget mode x).2 := by
  cases mode with
  | indirect => exact hi.readByte h x
  | constant | memory | indexed | indirectIndexed => exact h

/-! ### Instructions -/

theorem fetch (h : P m) : P m.fetch.2 :=
  hi.readByte (hi.bank m m.bank.advance h) m.bank.p

theorem take (h : P m) (mode : Mode) (mark : Bool) (x : UInt8) : P (m.take mode mark x) := by
  have htarget := hi.jumpTarget h mode x
  unfold Machine.take
  cases mark with
  | false => exact hi.bank _ _ htarget
  | true => exact hi.bank _ _ (hi.writeByte htarget _ _)

theorem perform (h : P m) (action : Action) (x : UInt8) : P (m.perform action x) := by
  cases action with
  | combine f r mode => exact hi.set (hi.readOperand h mode x) r _
  | store r mode => exact hi.writeOperand h mode x (m.get r)
  | jump test mode mark =>
    cases test with
    | none => exact hi.take h mode mark x
    | some test =>
      simp only [Machine.perform]
      split
      · exact hi.take h mode mark x
      · exact h
  | skip bit wanted =>
    simp only [Machine.perform, Machine.skip]
    split
    · exact hi.bank _ _ (hi.readByte h x)
    · exact hi.readByte h x
  | assign bit value => exact hi.writeByte (hi.readByte h x) x _
  | shift shift r places => exact hi.set h r _
  | noop => exact h
  | halt => exact hi.state _ _ (hi.note m _ (by simp [Entry.level]) h)

/-- No opcode stands for an instruction that ends in a fault. -/
theorem executeNext (h : P m) : P m.executeNext.2 := by
  obtain ⟨action, haction⟩ := Instruction.exists_action_decode m.fetch.1
  have hopcode := hi.fetch h
  unfold Machine.executeNext Machine.execute
  simp only [haction]
  refine hi.perform (hi.note _ _ (by simp [Entry.level]) ?_) action _
  split
  · exact hi.fetch hopcode
  · exact hopcode

/-! ### Runs -/

theorem step (h : P m) (o : σ) : P (m.step o).machine := by
  unfold Machine.step
  split
  · exact hi.ledger m { m.ledger with budget := 0 } h
  · exact hi.ledger m.executeNext.2
      { m.executeNext.2.ledger with
        budget := m.executeNext.2.budget - m.executeNext.2.cost
        executed := m.executeNext.2.executed + 1
        last := some m.executeNext.1 } (hi.executeNext h)

theorem spend (h : P m) (bound : Nat) (o : σ) : P (Machine.spend bound m o).1 := by
  induction bound generalizing m o with
  | zero => exact h
  | succ bound ih =>
    have hstep := hi.step h o
    rw [Machine.spend_succ]
    split
    · exact hstep
    · exact ih hstep _

theorem run (h : P m) (budget : Int) (o : σ) : P (m.run budget o).machine :=
  hi.spend (hi.ledger m { m.ledger with budget } h) _ o

theorem bursts (h : P m) (burst : Int) (limit rounds executed : Nat) (o : σ) :
    P (Machine.bursts burst limit rounds executed m o).machine := by
  induction rounds generalizing m executed o with
  | zero => exact h
  | succ rounds ih =>
    rw [Machine.bursts_succ]
    split
    · exact ih (hi.run h _ o) _ _
    · exact h

theorem runBursts (h : P m) (burst : Int) (limit : Nat) (o : σ) :
    P (m.runBursts burst limit o).machine :=
  hi.bursts h burst limit limit 0 o

/-! ### From outside -/

theorem latch (h : P m) (latch : UInt8) : P { m with latch } :=
  hi.ledger m { m.ledger with latch } h

theorem setHalt (h : P m) (halt : Bool) (o : σ) : P (m.setHalt halt o).1 :=
  hi.state _ _ (hi.note m _ (by simp [Entry.level]) h)

theorem reset (h : P m) : P m.reset :=
  hi.ledger _ { m.ledger with executed := 0, budget := 0, last := none }
    (hi.state _ .running (hi.bank _ .zero (hi.note m .reset (by simp [Entry.level]) h)))

end Machine.Invariant

/-! ## The bus -/

/-- Something true of a bus that reading and writing leave true, as long as they keep away from
    the addresses that registers answer at. -/
structure Bus.Stable {β : Type} [Bus β] (P : β → Prop) : Prop where
  read : ∀ bus a, Register.ofAddress? a = none → P bus → P (Bus.read bus a).2
  write : ∀ bus a v, Register.ofAddress? a = none → P bus → P (Bus.write bus a v)

/-- What is `Stable` on a bus is an `Invariant` of the machines on it. -/
theorem Bus.Stable.invariant {β : Type} [Bus β] {P : β → Prop} (hs : Bus.Stable P) :
    Machine.Invariant (fun m : Machine β => P m.bus) where
  bank _ _ h := h
  state _ _ h := h
  ledger _ _ h := h
  note _ _ _ h := h
  read m := hs.read m.bus
  write m := hs.write m.bus

end Kenbak1
