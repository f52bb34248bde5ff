/-
  Kenbak1.Proofs.FrontPanel

  Lamps in step with their machine. `InStep` says that at most one mode lamp is lit, the run lamp
  shows the run state, and the data lamps show the output or, under the INPUT lamp, the input.
  Buttons (`press`), notices (`of_notices`) and a program being loaded (`load`) each change the
  lamps in a way of their own, and keep them in step.
-/
import Kenbak1.FrontPanel
import Kenbak1.Proofs.Lamps
import Kenbak1.Proofs.Machine.Counts

namespace Kenbak1
namespace FrontPanel

variable {β : Type}

/-- The lamps are in step with the machine. -/
structure InStep (panel : FrontPanel β) : Prop where
  spare : panel.lamps.spare = 0
  mode : ∃ mode, panel.lamps.select mode = panel.lamps
  run : panel.lamps.run = panel.machine.isRunning
  data : panel.lamps.data = panel.machine.bank.out ∨
    (panel.lamps.input = true ∧ panel.lamps.data = panel.machine.bank.input)

namespace InStep

variable {panel : FrontPanel β}

/-! ## Changes of the lamps -/

/-- Of the machine nothing matters but the output, the input and the run state. -/
theorem of_view (h : panel.InStep) {m : Machine β} (hout : m.bank.out = panel.machine.bank.out)
    (hinput : m.bank.input = panel.machine.bank.input)
    (hstate : m.state = panel.machine.state) : InStep { panel with machine := m } where
  spare := h.spare
  mode := h.mode
  run := h.run.trans (by rw [Machine.isRunning, Machine.isRunning, hstate])
  data := by
    simp only [hout, hinput]
    exact h.data

/-- After both notices of a machine (`Notice`) the lamps are in step with it, whatever they
    showed. -/
theorem of_notices {lamps : Lamps} (hspare : lamps.spare = 0)
    (hmode : ∃ mode, lamps.select mode = lamps) (m : Machine β) :
    InStep
      { machine := m
        lamps := Observer.notify (Observer.notify lamps (.out m.bank.out)) (.halt m.isHalted) } where
  spare := hspare
  mode := by
    obtain ⟨mode, hmode⟩ := hmode
    exact ⟨mode, congrArg (fun l : Lamps => { l with data := m.bank.out, run := !m.isHalted }) hmode⟩
  run := by
    have hflag : (!m.isHalted) = m.isRunning := by
      unfold Machine.isHalted Machine.isRunning
      cases m.state <;> rfl
    exact hflag
  data := .inl rfl

/-- The notice of the output will do where the run state stays. -/
theorem notifyOut (h : panel.InStep) {m : Machine β} (hstate : m.state = panel.machine.state) :
    InStep { machine := m, lamps := Observer.notify panel.lamps (.out m.bank.out) } where
  spare := h.spare
  mode := by
    obtain ⟨mode, hmode⟩ := h.mode
    exact ⟨mode, congrArg (·.display m.bank.out) hmode⟩
  run := h.run.trans (by rw [Machine.isRunning, Machine.isRunning, hstate])
  data := .inl rfl

/-- The notice of the halt flag goes with every stop and start from outside. -/
theorem setHalt (h : panel.InStep) (halt : Bool) : (panel.setHalt halt).InStep where
  spare := h.spare
  mode := by
    obtain ⟨mode, hmode⟩ := h.mode
    exact ⟨mode, congrArg (fun l : Lamps => { l with run := !halt }) hmode⟩
  run := by cases halt <;> rfl
  data := h.data

/-- A register that a button shows is the input, under INPUT, or the output. -/
theorem showRegister (h : panel.InStep) {m : Machine β} (hstate : m.state = panel.machine.state)
    {mode : ModeLamp} {r : Register} (hr : r = .out ∨ (r = .input ∧ mode = .input)) :
    (panel.showRegister m mode r).InStep where
  spare := h.spare
  mode := ⟨some mode, rfl⟩
  run := h.run.trans (by rw [Machine.isRunning, ← hstate]; rfl)
  data := by
    rcases hr with rfl | ⟨rfl, rfl⟩
    · exact .inl rfl
    · exact .inr ⟨rfl, rfl⟩

theorem ofMachine (m : Machine β) : (FrontPanel.ofMachine m).InStep :=
  of_notices rfl ⟨none, rfl⟩ m

theorem reset (h : panel.InStep) : panel.reset.InStep := by
  have hspare : (panel.lamps.select none).spare = 0 := h.spare
  exact of_notices hspare ⟨none, rfl⟩ panel.machine.reset

/-! ## Steps and bursts -/

variable [Bus β]

theorem step (h : panel.InStep) : panel.step.2.InStep := by
  unfold FrontPanel.step
  cases hm : panel.machine.state with
  | halted =>
    rw [Machine.step_of_halted hm]
    exact h.of_view rfl rfl rfl
  | running =>
    rw [Machine.step_of_running hm]
    exact (of_notices h.spare h.mode panel.machine.executeNext.2).of_view rfl rfl rfl

theorem spend (h : panel.InStep) (bound : Nat) :
    InStep
      { machine := (Machine.spend bound panel.machine panel.lamps).1
        lamps := (Machine.spend bound panel.machine panel.lamps).2 } := by
  induction bound generalizing panel with
  | zero => exact h
  | succ bound ih =>
    rw [Machine.spend_succ]
    split
    · exact h.step
    · exact ih h.step

theorem runBurst (h : panel.InStep) (budget : Int) : (panel.runBurst budget).2.InStep := by
  have hstart : InStep { panel with machine := panel.machine.withBudget budget } :=
    h.of_view rfl rfl rfl
  exact hstart.spend (Machine.stepBound panel.machine.cost budget)

/-! ## Buttons -/

theorem press (h : panel.InStep) (button : Button) : (panel.press button).InStep := by
  have hnoted : InStep { panel with machine := panel.machine.note (.pressed button) } :=
    h.of_view rfl rfl rfl
  unfold FrontPanel.press
  cases button with
  | bit number | clear =>
    refine hnoted.showRegister ?_ (.inr ⟨rfl, rfl⟩)
    rfl
  | display | set =>
    refine hnoted.showRegister ?_ (.inl rfl)
    rfl
  | read =>
    refine hnoted.showRegister ?_ (.inl rfl)
    exact Machine.state_readByte _ panel.machine.latch
  | store =>
    refine hnoted.showRegister ?_ (.inl rfl)
    exact Machine.state_writeByte _ panel.machine.latch panel.machine.bank.input
  | start => exact hnoted.setHalt false
  | stop => exact hnoted.setHalt true

theorem pressAll (h : panel.InStep) (buttons : List Button) : (panel.pressAll buttons).InStep := by
  induction buttons generalizing panel with
  | nil => exact h
  | cons button rest ih => exact ih (h.press button)

theorem keyIn (h : panel.InStep) (address : UInt8) (bytes : List UInt8) :
    (panel.keyIn address bytes).InStep :=
  h.pressAll _

/-! ## Programs -/

theorem load (h : panel.InStep) (image : Image) (fallback : UInt8) :
    (panel.load image fallback).InStep := by
  have hstate := Machine.view_writeAll Machine.state Machine.state_writeByte panel.machine
    image.cells
  exact (h.notifyOut hstate).of_view rfl rfl rfl

end InStep

/-! ## What the lamps show -/

/-- What an onlooker may rely on: no bits above the lamps, a run lamp that tells whether the
    machine runs, at most one mode lamp, and data lamps that show the output, or the input
    under INPUT. -/
structure Coherent (panel : FrontPanel β) : Prop where
  bits : panel.lamps.word < 0x1000
  run : panel.lamps.isLit Lamps.runMask = panel.machine.isRunning
  mode : [Lamps.inputMask, Lamps.addressMask, Lamps.memoryMask].countP panel.lamps.isLit ≤ 1
  data : panel.lamps.word.toUInt8 = panel.machine.bank.out ∨
    (panel.lamps.isLit Lamps.inputMask ∧ panel.lamps.word.toUInt8 = panel.machine.bank.input)

/-- Lamps that are `InStep` with the machine tell all that. -/
theorem InStep.coherent {panel : FrontPanel β} (h : panel.InStep) : panel.Coherent where
  bits := Lamps.word_lt _ h.spare
  run := by rw [Lamps.isLit_run, h.run]
  mode := by
    obtain ⟨mode, hmode⟩ := h.mode
    rw [← hmode]
    simp only [List.countP_cons, List.countP_nil, Lamps.isLit_input, Lamps.isLit_address,
      Lamps.isLit_memory, Lamps.select]
    -- The three lamps are lit for three different modes.
    rcases mode with _ | _ | _ | _ <;> decide
  data := by
    rw [Lamps.toUInt8_word, Lamps.isLit_input]
    exact h.data

end FrontPanel
end Kenbak1
