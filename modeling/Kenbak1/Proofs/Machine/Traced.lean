/-
  Kenbak1.Proofs.Machine.Traced

  A record between a machine and its bus. A map of buses that `Preserves` every answer is carried
  through everything that is asked of a machine (`step_mapBus`, `run_mapBus`, `runBursts_mapBus`,
  `serve_mapBus`). Forgetting the record of a `Traced` bus is such a map (`Traced.preserves_inner`):
  the record shows what a machine does on its bus, and changes nothing about it.
-/
import Kenbak1.Proofs.Coherence
import Kenbak1.Proofs.Flat.Refinement

namespace Kenbak1

/-- A map of buses under which every access answers alike and leaves what the map makes of it. -/
structure Bus.Preserves {β γ : Type} [Bus β] [Bus γ] (f : β → γ) : Prop where
  read : ∀ bus a, Bus.read (f bus) a = ((Bus.read bus a).1, f (Bus.read bus a).2)
  write : ∀ bus a v, Bus.write (f bus) a v = f (Bus.write bus a v)

/-- The machine on the bus that a map makes of its own. -/
def Machine.mapBus {β γ : Type} (f : β → γ) (m : Machine β) : Machine γ :=
  { m with bus := f m.bus }

/-- A turn on the bus that a map makes of its own. -/
def Turn.mapBus {α β γ σ : Type} (f : β → γ) (t : Turn α β σ) : Turn α γ σ :=
  { t with machine := t.machine.mapBus f }

/-- Forgetting the record of a `Traced` bus leaves every answer as it was. -/
theorem Traced.preserves_inner {β : Type} [Bus β] :
    Bus.Preserves (fun t : Traced β => t.inner) where
  read _ _ := rfl
  write _ _ _ := rfl

namespace Machine

variable {β γ σ : Type} [Bus β] [Bus γ] [Observer σ] {f : β → γ}

theorem transparent_mapBus (hf : Bus.Preserves f) : Transparent (mapBus f) where
  bank _ := rfl
  setBank _ _ := rfl
  setState _ _ := rfl
  note _ _ := rfl
  readByte m a := by
    unfold readByte
    cases Register.ofAddress? a with
    | some r => rfl
    | none =>
      show ((Bus.read (f m.bus) a).1, { m.mapBus f with bus := (Bus.read (f m.bus) a).2 }) = _
      rw [hf.read]
      rfl
  writeByte m a v := by
    unfold writeByte
    cases Register.ofAddress? a with
    | some r => rfl
    | none =>
      show { m.mapBus f with bus := Bus.write (f m.bus) a v } = _
      rw [hf.write]
      rfl

/-! ## Runs -/

variable (hf : Bus.Preserves f) (m : Machine β) (o : σ)

include hf

theorem step_mapBus : (m.mapBus f).step o = (m.step o).mapBus f := by
  have hnext := (transparent_mapBus hf).executeNext m
  have hstate : (m.mapBus f).state = m.state := rfl
  unfold step
  rw [hstate, hnext]
  cases m.state <;> rfl

theorem spend_mapBus (bound : Nat) :
    spend bound (m.mapBus f) o = ((spend bound m o).1.mapBus f, (spend bound m o).2) := by
  induction bound generalizing m o with
  | zero => rfl
  | succ bound ih =>
    rw [spend_succ, spend_succ, step_mapBus hf]
    -- The budget decides whether the burst goes on, and it is the same on both buses.
    by_cases hlast : ((m.step o).value.isNone || (m.step o).machine.budget ≤ 0) = true
    · rw [if_pos hlast]
      exact if_pos hlast
    · rw [if_neg hlast]
      exact (if_neg hlast).trans (ih _ _)

theorem run_mapBus (budget : Int) : (m.mapBus f).run budget o = (m.run budget o).mapBus f := by
  have hspend := spend_mapBus hf { m with budget } o (stepBound m.cost budget)
  have hstart : { m.mapBus f with budget } = mapBus f { m with budget } := rfl
  have hcost : (m.mapBus f).cost = m.cost := rfl
  rw [run_eq_spend, run_eq_spend, hstart, hcost, hspend]
  rfl

theorem bursts_mapBus (burst : Int) (limit rounds executed : Nat) :
    bursts burst limit rounds executed (m.mapBus f) o
      = (bursts burst limit rounds executed m o).mapBus f := by
  induction rounds generalizing m o executed with
  | zero => rfl
  | succ rounds ih =>
    have hruns : (m.mapBus f).isRunning = m.isRunning := rfl
    have hcost : (m.mapBus f).cost = m.cost := rfl
    rw [bursts_succ, bursts_succ, hruns, hcost, run_mapBus hf]
    dsimp only [Turn.mapBus]
    rw [ih]
    split <;> rfl

theorem runBursts_mapBus (burst : Int) (limit : Nat) :
    (m.mapBus f).runBursts burst limit o = (m.runBursts burst limit o).mapBus f :=
  bursts_mapBus hf m o burst limit limit 0

/-! ## Requests -/

omit o in
theorem storeInput_mapBus : (m.mapBus f).storeInput = m.storeInput.mapBus f := by
  have hwrite := (transparent_mapBus hf).writeByte m m.latch m.bank.input
  exact congrArg (fun k : Machine γ => { k with latch := k.latch + 1 }) hwrite

omit o in
theorem showLatched_mapBus : (m.mapBus f).showLatched = m.showLatched.mapBus f := by
  have hread := (transparent_mapBus hf).readByte m m.latch
  exact congrArg (fun answer : UInt8 × Machine γ => answer.2.set .out answer.1) hread

theorem serve_mapBus (request : Request) :
    (m.mapBus f).serve o request = (m.serve o request).mapBus f := by
  have ht := transparent_mapBus hf
  cases request with
  | step =>
    simp only [serve, step_mapBus hf]
    rfl
  | run budget =>
    simp only [serve, run_mapBus hf]
    rfl
  | runBursts burst limit =>
    simp only [serve, runBursts_mapBus hf]
    rfl
  | setHalt | reset | setInputBit | clearInput | latchInput | showLatch => rfl
  | storeInput =>
    simp only [serve, storeInput_mapBus hf]
    rfl
  | showLatched =>
    simp only [serve, showLatched_mapBus hf]
    rfl
  | readByte a =>
    simp only [serve, ht.readByte]
    rfl
  | writeByte a v =>
    simp only [serve, ht.writeByte]
    rfl
  | readOperand mode operand =>
    simp only [serve, ht.readOperand]
    rfl
  | writeOperand mode operand v =>
    simp only [serve, ht.writeOperand]
    rfl
  | jumpTarget mode operand =>
    simp only [serve, ht.jumpTarget]
    rfl

end Machine

/-! ## Panels -/

namespace FrontPanel

variable {β γ : Type} [Bus β] [Bus γ] {f : β → γ}

/-- The panel of the machine on the bus that a map makes of its own. -/
def mapBus (f : β → γ) (panel : FrontPanel β) : FrontPanel γ :=
  { machine := panel.machine.mapBus f, lamps := panel.lamps }

variable (hf : Bus.Preserves f) (panel : FrontPanel β)

include hf

theorem press_mapBus (button : Button) :
    (panel.mapBus f).press button = (panel.press button).mapBus f := by
  cases button with
  | bit | clear | display | set | start | stop => rfl
  | read =>
    have hshown := Machine.showLatched_mapBus hf (panel.machine.note (.pressed .read))
    exact congrArg (fun m => (panel.mapBus f).showRegister m .memory .out) hshown
  | store =>
    have hstored := Machine.storeInput_mapBus hf (panel.machine.note (.pressed .store))
    exact congrArg (fun m => (panel.mapBus f).showRegister m .memory .out) hstored

theorem pressAll_mapBus (buttons : List Button) :
    (panel.mapBus f).pressAll buttons = (panel.pressAll buttons).mapBus f :=
  List.foldl_hom (mapBus f) (press_mapBus hf)

theorem load_mapBus (image : Image) (fallback : UInt8) :
    (panel.mapBus f).load image fallback = (panel.load image fallback).mapBus f := by
  have hwritten : image.cells.foldl (fun m cell => m.writeByte cell.1 cell.2)
        (panel.machine.mapBus f)
      = (image.cells.foldl (fun m cell => m.writeByte cell.1 cell.2) panel.machine).mapBus f :=
    List.foldl_hom (Machine.mapBus f) fun m cell =>
      (Machine.transparent_mapBus hf).writeByte m cell.1 cell.2
  unfold load
  simp only [mapBus, hwritten]
  rfl

theorem serve_mapBus (request : Request) :
    (panel.mapBus f).serve request = (panel.serve request).mapBus f := by
  cases request with
  | press button => exact press_mapBus hf panel button
  | keyIn address bytes => exact pressAll_mapBus hf panel _
  | load image fallback => exact load_mapBus hf panel image fallback
  | runBurst budget =>
    have hrun := Machine.run_mapBus hf panel.machine panel.lamps budget
    exact congrArg (fun t => FrontPanel.mk t.machine t.observer) hrun
  | step =>
    have hstep := Machine.step_mapBus hf panel.machine panel.lamps
    exact congrArg (fun t => FrontPanel.mk t.machine t.observer) hstep
  | reset => rfl

theorem serveAll_mapBus (requests : List Request) :
    (panel.mapBus f).serveAll requests = (panel.serveAll requests).mapBus f :=
  List.foldl_hom (mapBus f) (serve_mapBus hf)

end FrontPanel
end Kenbak1
