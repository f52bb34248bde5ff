/-
  Kenbak1.Proofs.Faults

  Internal faults. A machine meets one if an instruction lacks a field that its operation needs, or
  if its memory lacks a cell. The first go into the journal (`Journal.faults`); the second are
  recorded by `Watched`, a watch on the memory that changes nothing about the answers of the memory
  (`preserves_memory`). `Machine.invariant_faultless` shows that a machine adds to neither record
  where the memory `Covers` the addresses that it needs. With memory of full size none is ever met,
  whatever is done with a machine and its panel (`Act`), in whatever order.
-/
import Kenbak1.Proofs.Queries

namespace Kenbak1

/-! ## Memory under watch -/

/-- Every address that no register answers at has a cell. -/
def Memory.Covers (m : Memory) : Prop :=
  ∀ a : UInt8, Register.ofAddress? a = none → a.toNat < m.cells.size

theorem Memory.covers_of_full {m : Memory} (h : m.cells.size = memorySize) : m.Covers :=
  fun a _ => h ▸ a.toNat_lt

/-- A memory with the faults of accesses to cells that it lacks, oldest first. -/
structure Watched where
  memory : Memory
  faults : List Fault := []

namespace Watched

/-- The record after an access at an address. -/
def touch (w : Watched) (a : UInt8) : Watched :=
  if a.toNat < w.memory.cells.size then w
  else { w with faults := w.faults ++ [.missingCell w.memory.cells.size a.toNat] }

instance : Bus Watched where
  read w a := (w.memory.read a, w.touch a)
  write w a v := { w.touch a with memory := w.memory.write a v }

theorem memory_touch (w : Watched) (a : UInt8) : (w.touch a).memory = w.memory := by
  unfold touch
  split <;> rfl

/-- Forgetting the record leaves the accesses as they are. -/
theorem preserves_memory : Bus.Preserves Watched.memory where
  read w a := congrArg (Prod.mk (w.memory.read a)) (w.memory_touch a).symm
  write _ _ _ := rfl

theorem touch_of_covers {w : Watched} (h : w.memory.Covers) {a : UInt8}
    (ha : Register.ofAddress? a = none) : w.touch a = w :=
  if_pos (h a ha)

end Watched

/-- The machine on its memory under watch. -/
def Machine.watched (m : Machine Memory) : Machine Watched :=
  m.mapBus fun memory => { memory }

/-- The panel of the machine on its memory under watch. -/
def FrontPanel.watched (panel : FrontPanel Memory) : FrontPanel Watched :=
  panel.mapBus fun memory => { memory }

/-! ## Faults in the journal -/

/-- The fault that an entry reports, if it reports one. -/
def Entry.fault? : Entry → Option Fault
  | .fault f => some f
  | _ => none

/-- The faults that a journal reports. -/
def Journal.faults (j : Journal) : List Fault :=
  j.entries.toList.filterMap Entry.fault?

theorem Journal.faults_note (j : Journal) {e : Entry} (h : e.level ≠ .error) :
    (j.note e).faults = j.faults := by
  have hnone : e.fault? = none := by
    cases e with
    | fault f => exact absurd rfl h
    | executed | halted | reset | haltSet | pressed | loaded => rfl
  unfold Journal.note
  split
  · simp [Journal.faults, hnone]
  · rfl

/-! ## No faults -/

/-- Where every address that no register answers at has a cell (`Covers`), a machine adds no fault
    to the record of the watch, and none to those that its journal reports. -/
theorem Machine.invariant_faultless (before : List Fault) :
    Machine.Invariant fun m : Machine Watched =>
      m.bus.memory.Covers ∧ m.bus.faults = [] ∧ m.journal.faults = before where
  bank _ _ h := h
  state _ _ h := h
  ledger _ _ h := h
  note m e he h := ⟨h.1, h.2.1, (m.journal.faults_note he).trans h.2.2⟩
  read m a ha h := by
    show (m.bus.touch a).memory.Covers ∧ (m.bus.touch a).faults = [] ∧ _
    rw [Watched.touch_of_covers h.1 ha]
    exact h
  write m a v ha h := by
    show (m.bus.memory.write a v).Covers ∧ (m.bus.touch a).faults = [] ∧ _
    rw [Watched.touch_of_covers h.1 ha, Memory.Covers, Memory.size_write]
    exact h

/-- What can be done with a panel: a query to its machine, watched by its lamps, or a request to
    the panel itself. -/
inductive Act where
  | query (query : Query)
  | request (request : FrontPanel.Request)

namespace FrontPanel

variable {β : Type} [Bus β]

/-- The panel after an act. -/
def act (panel : FrontPanel β) : Act → FrontPanel β
  | .query query =>
    let turn := panel.machine.ask panel.lamps query
    { machine := turn.machine, lamps := turn.observer }
  | .request request => panel.serve request

/-- The panel after acts one after another. -/
def actAll (panel : FrontPanel β) (acts : List Act) : FrontPanel β :=
  acts.foldl act panel

theorem act_mapBus {γ : Type} [Bus γ] {f : β → γ} (hf : Bus.Preserves f) (panel : FrontPanel β)
    (a : Act) : (panel.mapBus f).act a = (panel.act a).mapBus f := by
  cases a with
  | query query =>
    have hask := Machine.ask_mapBus hf panel.machine panel.lamps query
    exact congrArg (fun t => FrontPanel.mk t.machine t.observer) hask
  | request request => exact serve_mapBus hf panel request

theorem actAll_mapBus {γ : Type} [Bus γ] {f : β → γ} (hf : Bus.Preserves f)
    (panel : FrontPanel β) (acts : List Act) :
    (panel.mapBus f).actAll acts = (panel.actAll acts).mapBus f :=
  List.foldl_hom (mapBus f) (act_mapBus hf)

end FrontPanel

/-- An invariant stays true, whatever is done with a panel. -/
theorem Machine.Invariant.actAll {β : Type} [Bus β] {P : Machine β → Prop}
    (hi : Machine.Invariant P) {panel : FrontPanel β} (h : P panel.machine) (acts : List Act) :
    P (panel.actAll acts).machine := by
  refine List.foldlRecOn (motive := fun panel => P panel.machine) acts FrontPanel.act h ?_
  intro panel h a _
  cases a with
  | query query => exact hi.ask h panel.lamps query
  | request request => exact hi.servePanel h request

/-- No fault is met where the memory `Covers` every address that no register answers at. -/
theorem FrontPanel.faultless {panel : FrontPanel Memory} (h : panel.machine.bus.Covers)
    (acts : List Act) :
    (panel.watched.actAll acts).machine.bus.faults = [] ∧
      (panel.watched.actAll acts).machine.journal.faults = panel.machine.journal.faults := by
  have hi := Machine.invariant_faultless panel.machine.journal.faults
  have hstart : panel.watched.machine.bus.memory.Covers ∧ panel.watched.machine.bus.faults = [] ∧
      panel.watched.machine.journal.faults = panel.machine.journal.faults := ⟨h, rfl, rfl⟩
  exact (hi.actAll hstart acts).2

/-- The shift of an action is the one of its operation. -/
theorem Instruction.shiftRotate_of_action {i : Instruction} {shift : Shift} {r : Register}
    {places : UInt8} (h : i.action = .ok (.shift shift r places)) (v : UInt8) :
    shiftRotate i.operation v places = .ok (shift.apply v places) := by
  unfold Instruction.action at h
  -- Four operations shift; the others have no such action.
  cases hop : i.operation with
  | sftl | sftr | rotl | rotr =>
    simp only [hop, shiftAction_eq_ok] at h
    obtain ⟨q, n, -, -, haction⟩ := h
    cases haction
    rfl
  | noop | halt => simp [hop, pure, Except.pure] at h
  | add | sub | load | or | and | lneg =>
    simp only [hop, combination_eq_ok] at h
    obtain ⟨mode, q, -, -, haction⟩ := h
    cases haction
  | store | skp0 | skp1 | set0 | set1 =>
    simp [hop, bind_eq_ok, pure, Except.pure] at h
  | jpd | jpi | jmd | jmi =>
    simp only [hop] at h
    obtain ⟨mode, -, ⟨-, haction⟩ | ⟨c, q, -, -, haction⟩⟩ := jump_eq_ok h
    · cases haction
    · cases haction

/-- No internal fault is reachable. With a memory of full size, from every state of the machine and
    the panel and through everything that is done with them (`actAll`): the panel does as it does
    under watch (`watched`), no access is to a cell that the memory lacks, and the journal reports
    no fault that it did not report before (`Journal.faults`). Every opcode has all the fields that
    its operation needs, a bit number is below eight, and a shift that is carried out is one
    (`shiftRotate`). -/
theorem faults_unreachable (panel : FrontPanel Memory)
    (h : panel.machine.bus.cells.size = memorySize) (acts : List Act) :
    (panel.watched.actAll acts).mapBus Watched.memory = panel.actAll acts ∧
    (panel.watched.actAll acts).machine.bus.faults = [] ∧
    (panel.actAll acts).machine.journal.faults = panel.machine.journal.faults ∧
    (∀ opcode, ∃ action, (decode opcode).action = .ok action ∧
      ∀ shift r places, action = .shift shift r places → ∀ v,
        shiftRotate (decode opcode).operation v places = .ok (shift.apply v places)) := by
  have hforget : (panel.watched.actAll acts).mapBus Watched.memory = panel.actAll acts :=
    (FrontPanel.actAll_mapBus Watched.preserves_memory panel.watched acts).symm
  obtain ⟨hbus, hjournal⟩ := FrontPanel.faultless (Memory.covers_of_full h) acts
  refine ⟨hforget, hbus, ?_, fun opcode => ?_⟩
  · rw [← hforget]
    exact hjournal
  · obtain ⟨action, haction⟩ := Instruction.exists_action_decode opcode
    refine ⟨action, haction, ?_⟩
    rintro shift r places rfl v
    exact Instruction.shiftRotate_of_action haction v

/-- A panel with a journal of errors, its program keyed in by hand: a shift, a jump through a
    pointer and what lies behind it. -/
theorem faults_unreachable_keyed_in :
    let panel : FrontPanel Memory :=
      .ofMachine { Machine.fresh with journal := { detail := some .error } }
    let acts : List Act :=
      [.request (.press (.bit 255)), .request (.keyIn 4 [0o301, 0o354, 0o020]),
        .request (.keyIn 3 [4]), .query (.request (.runBursts 2000 9)), .request .step]
    panel.machine.bus.cells.size = memorySize ∧
      (panel.watched.actAll acts).machine.bus.faults = [] ∧
      (panel.actAll acts).machine.journal.faults = [] ∧
      (panel.actAll acts).machine.executed = 3 := by
  intro panel acts
  have hsize : panel.machine.bus.cells.size = memorySize := by
    show Memory.zero.cells.size = memorySize
    simp [Memory.zero]
  obtain ⟨-, hbus, hjournal, -⟩ := faults_unreachable panel hsize acts
  exact ⟨hsize, hbus, hjournal, by decide +kernel⟩

/-- A memory of two cells is at fault where its first instruction is fetched. -/
example :
    let m : Machine Memory := { bus := { cells := #[1, 2] }, bank := { p := 4 } }
    (m.watched.step ()).machine.bus.faults = [.missingCell 2 4] := by
  decide +kernel

/-- An instruction that no opcode stands for is reported. -/
example :
    let m : Machine Memory := { Machine.fresh with journal := { detail := some .error } }
    (m.execute { opcode := 0o003, operation := .add } 0).journal.faults
      = [.missingMode .add 0o003] := by
  decide +kernel

end Kenbak1
