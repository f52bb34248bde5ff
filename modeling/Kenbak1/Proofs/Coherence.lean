/-
  Kenbak1.Proofs.Coherence

  Lamps that never lie. A `FrontPanel`, a `Console` and a `Remote` each have a type of requests
  (`FrontPanel.Request`, `Console.Request`, `Remote.Request`) and a `serve` that answers one. Each
  `inStep_serve` shows that the answer keeps `FrontPanel.InStep`, the lamps being in step with the
  machine, and each `inStep_serveAll` carries that over all requests. What an onlooker may rely on,
  `FrontPanel.Coherent`, is read off it.
-/
import Kenbak1.Proofs.Console.Loop
import Kenbak1.Proofs.FrontPanel
import Kenbak1.Remote

namespace Kenbak1

/-! ## Panels -/

namespace FrontPanel

/-- A request to a panel. -/
inductive Request where
  | press (button : Button)
  | keyIn (address : UInt8) (bytes : List UInt8)
  | load (image : Image) (fallback : UInt8)
  | runBurst (budget : Int)
  | step
  | reset

variable {β : Type} [Bus β]

/-- The panel after a request. -/
def serve (panel : FrontPanel β) : Request → FrontPanel β
  | .press button => panel.press button
  | .keyIn address bytes => panel.keyIn address bytes
  | .load image fallback => panel.load image fallback
  | .runBurst budget => (panel.runBurst budget).2
  | .step => panel.step.2
  | .reset => panel.reset

/-- The panel after requests one after another. -/
def serveAll (panel : FrontPanel β) (requests : List Request) : FrontPanel β :=
  requests.foldl serve panel

namespace InStep

variable {panel : FrontPanel β}

theorem serve (h : panel.InStep) (request : Request) : (panel.serve request).InStep := by
  cases request with
  | press button => exact h.press button
  | keyIn address bytes => exact h.keyIn address bytes
  | load image fallback => exact h.load image fallback
  | runBurst budget => exact h.runBurst budget
  | step => exact h.step
  | reset => exact h.reset

theorem serveAll (h : panel.InStep) (requests : List Request) :
    (panel.serveAll requests).InStep :=
  List.foldlRecOn requests FrontPanel.serve h fun _ h request _ => h.serve request

end InStep

end FrontPanel

/-! ## Consoles -/

namespace Console

/-- A request to a console. -/
inductive Request where
  | press (button : Button)
  | step
  | tick
  | toggleBreakpoint
  | reset
  | window (lines : Nat)

/-- The console after a request. -/
def serve (c : Console) : Request → Console
  | .press button => c.press button
  | .step => c.step
  | .tick => c.tick
  | .toggleBreakpoint => c.toggleBreakpoint
  | .reset => c.reset
  | .window lines => (c.window lines).2

/-- The console after requests one after another. -/
def serveAll (c : Console) (requests : List Request) : Console :=
  requests.foldl serve c

theorem inStep_resetPanel (program : Image) (config : Config) (journal : Journal) :
    (resetPanel program config journal).InStep :=
  ((FrontPanel.InStep.ofMachine _).load program config.loadAddress).press .stop

variable {c : Console}

theorem inStep_step (h : c.panel.InStep) : c.step.panel.InStep := by
  have hready : c.ready.InStep := by
    unfold ready
    split
    · exact h.setHalt false
    · exact h
  rw [panel_step]
  split
  · exact hready.step.setHalt true
  · exact hready.step

theorem inStep_tick (h : c.panel.InStep) : c.tick.panel.InStep := by
  rw [tick_eq]
  split
  · exact h
  · split
    · exact h.runBurst _
    · exact guarded_keeps (P := fun c => c.panel.InStep) (fun _ h => h)
        (fun _ _ h => h.press .stop) (fun _ h => h.step) _ _ h

theorem inStep_serve (h : c.panel.InStep) (request : Request) :
    (c.serve request).panel.InStep := by
  cases request with
  | press button => exact h.press button
  | step => exact inStep_step h
  | tick => exact inStep_tick h
  | toggleBreakpoint =>
    rw [serve, panel_toggleBreakpoint]
    exact h
  | reset => exact inStep_resetPanel c.program c.config _
  | window lines =>
    rw [serve, window_eq]
    exact h

theorem inStep_serveAll (h : c.panel.InStep) (requests : List Request) :
    (c.serveAll requests).panel.InStep :=
  List.foldlRecOn (motive := fun c => c.panel.InStep) requests serve h
    fun _ h request _ => inStep_serve h request

end Console

/-! ## Remote machines -/

namespace Remote

/-- A call that may change a remote machine. -/
inductive Request where
  | loadText (text : String)
  | step
  | run (budget : UInt32)
  | reset
  | press (index : Nat)
  | bytesAt (addresses : List UInt8)

/-- The remote machine after a call. -/
def serve (r : Remote) : Request → Remote
  | .loadText text => (r.loadText text).2
  | .step => r.step.2
  | .run budget => (r.run budget).2
  | .reset => r.reset
  | .press index => (r.press index).2
  | .bytesAt addresses => (r.bytesAt addresses).2

/-- The remote machine after calls one after another. -/
def serveAll (r : Remote) (requests : List Request) : Remote :=
  requests.foldl serve r

variable {r : Remote}

theorem inStep_panelOf (program : Image) : (panelOf program).InStep :=
  (FrontPanel.InStep.ofMachine Machine.fresh).load program defaultOrigin

theorem inStep_serve (h : r.panel.InStep) (request : Request) :
    (r.serve request).panel.InStep := by
  cases request with
  | loadText text =>
    cases hparse : Image.parse text defaultOrigin with
    | ok program =>
      simp only [serve, loadText, hparse]
      exact inStep_panelOf program
    | error error =>
      simp only [serve, loadText, hparse]
      exact h
  | step =>
    rw [serve, step_eq]
    dsimp only
    split
    · rw [Machine.disassembleAt_plain]
      exact h.step
    · exact h
  | run budget => exact h.runBurst _
  | reset => exact inStep_panelOf r.program
  | press index =>
    cases hbutton : Button.byIndex[index]? with
    | some button =>
      simp only [serve, press, hbutton]
      exact h.press button
    | none =>
      simp only [serve, press, hbutton]
      exact h
  | bytesAt addresses =>
    simp only [serve, bytesAt, Machine.readEach_plain]
    exact h

theorem inStep_serveAll (h : r.panel.InStep) (requests : List Request) :
    (r.serveAll requests).panel.InStep :=
  List.foldlRecOn (motive := fun r => r.panel.InStep) requests serve h
    fun _ h request _ => inStep_serve h request

end Remote

/-! ## Coherence -/

/-- The lamps are `Coherent` after any requests: on the panel of any machine, on the console of any
    program and on any remote machine. -/
theorem lamps_coherent :
    (∀ {β : Type} [Bus β] (m : Machine β) (requests : List FrontPanel.Request),
      ((FrontPanel.ofMachine m).serveAll requests).Coherent) ∧
    (∀ (program : Image) (config : Config) (requests : List Console.Request),
      ((Console.new program config).serveAll requests).panel.Coherent) ∧
    (∀ requests : List Remote.Request, (({} : Remote).serveAll requests).panel.Coherent) := by
  refine ⟨fun m requests => ?_, fun program config requests => ?_, fun requests => ?_⟩
  · exact ((FrontPanel.InStep.ofMachine m).serveAll requests).coherent
  · have hnew : (Console.new program config).panel.InStep :=
      Console.inStep_resetPanel program config .off
    exact (Console.inStep_serveAll hnew requests).coherent
  · have hfresh : ({} : Remote).panel.InStep := FrontPanel.InStep.ofMachine Machine.fresh
    exact (Remote.inStep_serveAll hfresh requests).coherent

end Kenbak1
