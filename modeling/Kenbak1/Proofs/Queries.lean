/-
  Kenbak1.Proofs.Queries

  A bus out of reach. Whatever is asked of a machine (`Query`) or of a panel, and whatever the bus
  answers, no access on the bus is to an address that a register answers at. `Traced.Isolated` says
  so of a record; it is stable on the bus (`Traced.stable_isolated`), so it is an invariant of the
  machines on it.
-/
import Kenbak1.Proofs.Machine.Traffic

namespace Kenbak1

/-! ## Queries -/

/-- What can be asked of a machine: requests, bursts of the largest size up to a limit, and the
    address that an operand stands for. -/
inductive Query where
  | request (request : Request)
  | runLimited (limit : Nat)
  | effectiveAddress (mode : Mode) (operand : UInt8)

/-- What a query is answered with. -/
inductive Answer where
  | reply (reply : Reply)
  | address (a : Option UInt8)
  deriving DecidableEq

namespace Machine

variable {β σ : Type} [Bus β] [Observer σ]

/-- Answers a query. -/
def ask (m : Machine β) (o : σ) : Query → Turn Answer β σ
  | .request request =>
    let turn := m.serve o request
    { turn with value := .reply turn.value }
  | .runLimited limit =>
    let turn := m.runLimited limit o
    { turn with value := .reply (.count turn.value) }
  | .effectiveAddress mode operand =>
    let answer := m.effectiveAddress mode operand
    { value := .address answer.1, machine := answer.2, observer := o }

/-- Answers queries one after another. -/
def askAll (m : Machine β) (o : σ) : List Query → Turn (List Answer) β σ
  | [] => { value := [], machine := m, observer := o }
  | query :: rest =>
    let first := m.ask o query
    let others := first.machine.askAll first.observer rest
    { others with value := first.value :: others.value }

theorem ask_mapBus {γ : Type} [Bus γ] {f : β → γ} (hf : Bus.Preserves f) (m : Machine β) (o : σ)
    (query : Query) : (m.mapBus f).ask o query = (m.ask o query).mapBus f := by
  cases query with
  | request request =>
    simp only [ask, serve_mapBus hf]
    rfl
  | runLimited limit =>
    simp only [ask, runLimited, runBursts_mapBus hf]
    rfl
  | effectiveAddress mode operand =>
    simp only [ask, (transparent_mapBus hf).effectiveAddress]
    rfl

theorem askAll_mapBus {γ : Type} [Bus γ] {f : β → γ} (hf : Bus.Preserves f) (m : Machine β)
    (o : σ) (queries : List Query) :
    (m.mapBus f).askAll o queries = (m.askAll o queries).mapBus f := by
  induction queries generalizing m o with
  | nil => rfl
  | cons query rest ih =>
    have hfirst := ask_mapBus hf m o query
    have hrest := ih (m.ask o query).machine (m.ask o query).observer
    simp only [askAll, hfirst, Turn.mapBus, hrest]

end Machine

/-! ## Invariants -/

namespace Machine.Invariant

variable {β σ : Type} [Bus β] [Observer σ] {P : Machine β → Prop} (hi : Invariant P)

include hi

theorem ask {m : Machine β} (h : P m) (o : σ) (query : Query) : P (m.ask o query).machine := by
  cases query with
  | request request => exact hi.serve h request o
  | runLimited limit => exact hi.runBursts h maxBudget limit o
  | effectiveAddress mode operand => exact hi.effectiveAddress h mode operand

theorem askAll {m : Machine β} (h : P m) (o : σ) (queries : List Query) :
    P (m.askAll o queries).machine := by
  induction queries generalizing m o with
  | nil => exact h
  | cons query rest ih => exact ih (hi.ask h o query) _

theorem press {panel : FrontPanel β} (h : P panel.machine) (button : Button) :
    P (panel.press button).machine := by
  have hnoted : P (panel.machine.note (.pressed button)) := hi.note _ _ (by simp [Entry.level]) h
  cases button with
  | bit | clear | display => exact hi.set hnoted _ _
  | set => exact hi.latch hnoted panel.machine.bank.input
  | read => exact hi.set (hi.readByte hnoted panel.machine.latch) .out _
  | store =>
    exact hi.latch (hi.writeByte hnoted panel.machine.latch panel.machine.bank.input) _
  | start => exact hi.setHalt hnoted false panel.lamps
  | stop => exact hi.setHalt hnoted true panel.lamps

theorem pressAll {panel : FrontPanel β} (h : P panel.machine) (buttons : List Button) :
    P (panel.pressAll buttons).machine :=
  List.foldlRecOn (motive := fun panel => P panel.machine) buttons FrontPanel.press h
    fun _ h button _ => hi.press h button

theorem load {panel : FrontPanel β} (h : P panel.machine) (image : Image) (fallback : UInt8) :
    P (panel.load image fallback).machine := by
  have hwritten : P (image.cells.foldl (fun m cell => m.writeByte cell.1 cell.2) panel.machine) :=
    List.foldlRecOn (motive := P) image.cells _ h fun _ h cell _ => hi.writeByte h cell.1 cell.2
  exact hi.note _ _ (by simp [Entry.level]) (hi.bank _ _ hwritten)

theorem servePanel {panel : FrontPanel β} (h : P panel.machine) (request : FrontPanel.Request) :
    P (panel.serve request).machine := by
  cases request with
  | press button => exact hi.press h button
  | keyIn address bytes => exact hi.pressAll h _
  | load image fallback => exact hi.load h image fallback
  | runBurst budget => exact hi.run h budget panel.lamps
  | step => exact hi.step h panel.lamps
  | reset => exact hi.reset h

theorem servePanelAll {panel : FrontPanel β} (h : P panel.machine)
    (requests : List FrontPanel.Request) : P (panel.serveAll requests).machine :=
  List.foldlRecOn (motive := fun panel => P panel.machine) requests FrontPanel.serve h
    fun _ h request _ => hi.servePanel h request

end Machine.Invariant

namespace Bus.Stable

variable {β σ : Type} [Bus β] [Observer σ] {P : β → Prop} (hs : Bus.Stable P)

include hs

theorem askAll {m : Machine β} (h : P m.bus) (o : σ) (queries : List Query) :
    P (m.askAll o queries).machine.bus :=
  hs.invariant.askAll h o queries

theorem servePanelAll {panel : FrontPanel β} (h : P panel.machine.bus)
    (requests : List FrontPanel.Request) : P (panel.serveAll requests).machine.bus :=
  hs.invariant.servePanelAll h requests

end Bus.Stable

/-! ## Isolation -/

/-- No register answers at the address of any access on record. -/
def Traced.Isolated {β : Type} (t : Traced β) : Prop :=
  ∀ access ∈ t.accesses, Register.ofAddress? access.address = none

theorem Traced.stable_isolated {β : Type} [Bus β] :
    Bus.Stable (fun t : Traced β => t.Isolated) where
  read t a ha h access hmem := by
    rcases Array.mem_push.mp hmem with hold | rfl
    · exact h access hold
    · exact ha
  write t a v ha h access hmem := by
    rcases Array.mem_push.mp hmem with hold | rfl
    · exact h access hold
    · exact ha

/-- The machine with a record on its bus, empty at first. -/
def Machine.recorded {β : Type} (m : Machine β) : Machine (Traced β) :=
  m.mapBus fun bus => { inner := bus }

theorem Machine.isolated_recorded {β : Type} (m : Machine β) : m.recorded.bus.Isolated :=
  fun _ hmem => absurd hmem (Array.not_mem_empty _)

/-- The panel with a record on its bus, empty at first. -/
def FrontPanel.recorded {β : Type} (panel : FrontPanel β) : FrontPanel (Traced β) :=
  panel.mapBus fun bus => { inner := bus }

namespace Machine

variable {β σ : Type} [Bus β] [Observer σ]

/-- The bus of a machine never sees a register address, whatever it answers. A record of the traffic
    (`Machine.recorded`, `FrontPanel.recorded`) changes nothing about the answers to any queries or
    requests, and no access on it is to an address that a register answers at (`Isolated`). The
    accesses of a step are those of the instruction that it executes (`traffic`): the opcode, the
    operand byte, the cell that the operand byte names and the data, as far as they are needed and
    on the bus. They are four at most, and none but the last is a write; a jump that is not taken
    and a store to a constant (`Idle`) access neither cell nor data. -/
theorem traffic_isolated :
    (∀ (m : Machine β) (o : σ) (queries : List Query),
      (m.recorded.askAll o queries).mapBus Traced.inner = m.askAll o queries ∧
      (m.recorded.askAll o queries).machine.bus.Isolated) ∧
    (∀ (panel : FrontPanel β) (requests : List FrontPanel.Request),
      (panel.recorded.serveAll requests).mapBus Traced.inner = panel.serveAll requests ∧
      (panel.recorded.serveAll requests).machine.bus.Isolated) ∧
    (∀ (k : Machine (Traced β)) (o : σ),
      (k.step o).machine.record
        = k.record ++ (if k.state = .running then k.traffic.accesses else []) ∧
      k.traffic.accesses.length ≤ 4 ∧
      (∀ access ∈ k.traffic.accesses.dropLast, access.isWrite = false) ∧
      (∀ action, (decode k.fetch.1).action = .ok action → k.fetchAll.2.Idle action →
        k.traffic.cell = none ∧ k.traffic.data = none)) := by
  refine ⟨fun m o queries => ⟨?_, ?_⟩, fun panel requests => ⟨?_, ?_⟩, fun k o => ⟨?_, ?_, ?_, ?_⟩⟩
  · exact (askAll_mapBus Traced.preserves_inner m.recorded o queries).symm
  · exact Traced.stable_isolated.askAll m.isolated_recorded o queries
  · exact (FrontPanel.serveAll_mapBus Traced.preserves_inner panel.recorded requests).symm
  · have hrecorded : panel.recorded.machine.bus.Isolated := panel.machine.isolated_recorded
    exact Traced.stable_isolated.servePanelAll hrecorded requests
  · exact k.record_step o
  · exact k.traffic.length_accesses_le
  · exact fun _ => k.traffic.not_isWrite_of_mem_dropLast
  · exact fun _ => k.traffic_of_idle

/-- A jump on A that is not taken, A being zero: its two bytes are all that is read. -/
theorem traffic_isolated_untaken_jump :
    let k : Machine (Traced Memory) := recorded
      { Machine.fresh with bank := { p := 4 }, bus := (Memory.zero.write 4 0o043).write 5 0o020 }
    (decode k.fetch.1).action = .ok (.jump (some (.nonZero, .a)) .memory false) ∧
      k.fetchAll.2.Idle (.jump (some (.nonZero, .a)) .memory false) ∧
      k.traffic.cell = none ∧ k.traffic.data = none ∧
      (k.step ()).machine.record = [.read 4, .read 5] := by
  intro k
  have haction : (decode k.fetch.1).action = .ok (.jump (some (.nonZero, .a)) .memory false) := by
    decide +kernel
  have hidle : k.fetchAll.2.Idle (.jump (some (.nonZero, .a)) .memory false) := by
    show k.fetchAll.2.takes _ = false
    decide +kernel
  obtain ⟨hrecord, -, -, hnone⟩ := (traffic_isolated (σ := Unit)).2.2 k ()
  obtain ⟨hcell, hdata⟩ := hnone _ haction hidle
  refine ⟨haction, hidle, hcell, hdata, ?_⟩
  rw [hrecord]
  decide +kernel

/-- A store through a pointer makes all four accesses. -/
example :
    let k : Machine (Traced Memory) := recorded
      { Machine.fresh with bank := { a := 7, p := 4 }
                           bus := ((Memory.zero.write 4 0o035).write 5 0o020).write 0o020 0o030 }
    (k.step ()).machine.record = [.read 4, .read 5, .read 0o020, .write 0o030 7] := by
  decide +kernel

end Machine
end Kenbak1
