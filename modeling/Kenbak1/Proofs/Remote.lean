/-
  Kenbak1.Proofs.Remote

  Calls to a remote machine. A call that is refused (`refusal?`) changes nothing
  (`serve_of_refused`). A program that `loadText` loads takes the place of everything there was
  before (`loadText_of_parse`); and since only loading changes the program (`program_serveAll`),
  `reset` comes back to the program that was loaded last, whatever was called in between
  (`reset_serveAll`).
-/
import Kenbak1.Proofs.Coherence
import Kenbak1.Proofs.Console.Overflow

namespace Kenbak1

/-- The error that a call came to, if it failed. -/
def RemoteError.of? {α : Type} : Except RemoteError α → Option RemoteError
  | .ok _ => none
  | .error error => some error

namespace Remote

variable (r : Remote)

/-! ## Refused calls -/

/-- Why a call is refused, if it is. -/
def refusal? : Request → Option RemoteError
  | .loadText text => RemoteError.of? (r.loadText text).1
  | .step => RemoteError.of? r.step.1
  | .press index => RemoteError.of? (r.press index).1
  | .run _ | .reset | .bytesAt _ => none

/-- A text is refused exactly if it is no image, for the reason that the image is refused. -/
theorem refusal?_loadText (text : String) (error : RemoteError) :
    r.refusal? (.loadText text) = some error ↔
      ∃ fault, Image.parse text defaultOrigin = .error fault ∧ error = .image fault := by
  show RemoteError.of? (r.loadText text).1 = some error ↔ _
  unfold loadText
  cases Image.parse text defaultOrigin with
  | ok program => simp [RemoteError.of?]
  | error fault => simp [RemoteError.of?, eq_comm]

/-- A machine that stands refuses to step. -/
theorem refusal?_step :
    r.refusal? .step = if r.panel.machine.state = .halted then some .halted else none := by
  show RemoteError.of? r.step.1 = _
  rw [step_eq, Machine.isRunning]
  cases r.panel.machine.state <;> rfl

theorem getElem?_byIndex {index : Nat} (h : 15 ≤ index) : Button.byIndex[index]? = none :=
  List.getElem?_eq_none h

/-- There are fifteen buttons. -/
theorem refusal?_press (index : Nat) :
    r.refusal? (.press index) = if 15 ≤ index then some (.noButton index) else none := by
  show RemoteError.of? (r.press index).1 = _
  unfold press
  by_cases h : 15 ≤ index
  · rw [getElem?_byIndex h, if_pos h]
    rfl
  · have hlt : index < Button.byIndex.length := Nat.lt_of_not_le h
    rw [List.getElem?_eq_getElem hlt, if_neg h]
    rfl

/-- A call that is refused (`refusal?`) leaves panel and program as they were. -/
theorem serve_of_refused {r : Remote} {request : Request} {error : RemoteError}
    (h : r.refusal? request = some error) : r.serve request = r := by
  cases request with
  | loadText text =>
    obtain ⟨fault, hfault, -⟩ := (r.refusal?_loadText text error).mp h
    simp only [serve, loadText, hfault]
  | step =>
    rw [refusal?_step] at h
    split at h
    · next hm => simp [serve, step_eq, Machine.isRunning, hm]
    · cases h
  | press index =>
    rw [refusal?_press] at h
    split at h
    · next hfar => simp only [serve, press, getElem?_byIndex hfar]
    · cases h
  | run | reset | bytesAt => cases h

/-! ## Programs -/

/-- The remote machine of a program, ready to run. -/
def loaded (program : Image) : Remote where
  panel := FrontPanel.fresh.load program defaultOrigin
  program := program

/-- The program that a call loads, if it loads one. -/
def Request.program? : Request → Option Image
  | .loadText text => (Image.parse text defaultOrigin).toOption
  | .step | .run _ | .reset | .press _ | .bytesAt _ => none

/-- `loadText` forgets what there was before. -/
theorem loadText_of_parse {text : String} {program : Image}
    (h : Image.parse text defaultOrigin = .ok program) :
    r.loadText text = (.ok program.size, loaded program) := by
  unfold loadText
  rw [h]
  rfl

theorem program_serve (request : Request) :
    (r.serve request).program = request.program?.getD r.program := by
  cases request with
  | loadText text =>
    cases h : Image.parse text defaultOrigin with
    | ok program => simp [serve, r.loadText_of_parse h, loaded, Request.program?, h, Except.toOption]
    | error fault => simp [serve, loadText, Request.program?, h, Except.toOption]
  | step =>
    rw [serve, step_eq]
    dsimp only
    split <;> rfl
  | press index =>
    show (r.press index).2.program = r.program
    unfold press
    split <;> rfl
  | run | reset | bytesAt => rfl

/-- The program is the one that was loaded last (`Request.program?`). -/
theorem program_serveAll (requests : List Request) :
    (r.serveAll requests).program =
      (requests.filterMap Request.program?).getLast?.getD r.program := by
  -- The induction is on the calls; the first one says what the program is if no later one does.
  induction requests generalizing r with
  | nil => rfl
  | cons request rest ih =>
    have hrest := ih (r.serve request)
    rw [program_serve] at hrest
    show ((r.serve request).serveAll rest).program = _
    rw [hrest, List.filterMap_cons]
    cases request.program? with
    | none => rfl
    | some program =>
      simp only [List.getLast?_cons, Option.getD_some]

/-- `reset` comes back to the program that was loaded last (`Request.program?`). -/
theorem reset_serveAll (requests : List Request) :
    (r.serveAll requests).reset =
      loaded ((requests.filterMap Request.program?).getLast?.getD r.program) := by
  rw [← program_serveAll]
  rfl

/-- Calls fail without a trace, and loading forgets. `refusal?` is the error of a call that fails: a
    text is refused exactly if `Image.parse` refuses it, a step exactly if the machine stands, and a
    button exactly if its number is 15 or more; and `serve` leaves panel, lamps and program as they
    were when the call is refused. A text that is an image is `loaded` into a fresh panel, whatever
    there was before, and `reset` comes back to that panel until another text is loaded
    (`Request.program?`); before any is, it comes back to the program there was. -/
theorem refused_calls_change_nothing (text : String) :
    (∀ error, r.refusal? (.loadText text) = some error ↔
      ∃ fault, Image.parse text defaultOrigin = .error fault ∧ error = .image fault) ∧
    (r.refusal? .step = if r.panel.machine.state = .halted then some .halted else none) ∧
    (∀ index, r.refusal? (.press index) = if 15 ≤ index then some (.noButton index) else none) ∧
    (∀ request error, r.refusal? request = some error → r.serve request = r) ∧
    (∀ program, Image.parse text defaultOrigin = .ok program →
      r.loadText text = (.ok program.size, loaded program) ∧
        ∀ requests : List Request, (∀ request ∈ requests, request.program? = none) →
          ((r.loadText text).2.serveAll requests).reset = loaded program) ∧
    ∀ requests : List Request, (r.serveAll requests).reset =
      loaded ((requests.filterMap Request.program?).getLast?.getD r.program) := by
  refine ⟨r.refusal?_loadText text, r.refusal?_step, r.refusal?_press,
    fun request error => serve_of_refused, fun program hprogram => ?_, r.reset_serveAll⟩
  have hload := r.loadText_of_parse hprogram
  refine ⟨hload, fun requests hrequests => ?_⟩
  have hnone : requests.filterMap Request.program? = [] := List.filterMap_eq_nil_iff.mpr hrequests
  rw [hload, reset_serveAll, hnone]
  rfl

/-- A program that stores A over itself is loaded and run; a text that is no image and a button
    that there is not are refused; and a reset comes back to the program. -/
theorem refused_calls_change_nothing_between :
    let program : Image := { cells := [(0o004, 0o034), (0o005, 0o004)] }
    let requests : List Request := [.run 2000, .loadText "8", .press 15, .step]
    let r : Remote := { program := { cells := [(0o003, 7)] } }
    r.loadText "034 004" = (.ok 2, loaded program) ∧
      (r.loadText "034 004").2.serve (.press 15) = loaded program ∧
      (((r.loadText "034 004").2.serveAll requests).reset = loaded program) := by
  intro program requests r
  have hparse : Image.parse "034 004" defaultOrigin = .ok program := by rfl
  have hbad : (Image.parse "8" defaultOrigin).toOption = none := by rfl
  obtain ⟨-, -, -, -, hloads, -⟩ := refused_calls_change_nothing r "034 004"
  obtain ⟨-, -, hpress, hrefused, -, -⟩ := refused_calls_change_nothing (loaded program) "8"
  obtain ⟨hload, hreset⟩ := hloads program hparse
  refine ⟨hload, ?_, hreset requests ?_⟩
  · rw [hload]
    exact hrefused (.press 15) _ (hpress 15)
  · simp [requests, Request.program?, hbad]

/-! ## Counters of 64 bits -/

/-- `tryStep` breaks off where its instruction overflows a counter; to list the instruction takes
    nothing from them. -/
theorem comes_tryStep : Machine.Comes r.tryStep r.panel.machine.overflow? r.step := by
  have hline : (r.panel.machine.disassembleAt r.panel.machine.bank.p).2 = r.panel.machine :=
    r.panel.machine.disassembleAt_plain r.panel.machine.bank.p
  unfold tryStep stepBy
  rw [step_eq]
  dsimp only
  cases hm : r.panel.machine.state with
  | halted =>
    have hstands : ¬ r.panel.machine.isRunning = true := by simp [Machine.isRunning, hm]
    rw [if_neg hstands, if_neg hstands, Machine.overflow?_of_halted hm]
    exact .ok _
  | running =>
    have hruns : r.panel.machine.isRunning = true := by simp [Machine.isRunning, hm]
    rw [if_pos hruns, if_pos hruns, hline]
    exact (FrontPanel.comes_tryStep r.panel).bind_pure _

/-- A budget that a call names is never overdrawn from the start, so `tryRun` is carried out to its
    end exactly if the count has room for all that a running machine executes. -/
theorem tryRun_eq_ok_iff (hc : 1 ≤ r.panel.machine.cost)
    (hsize : r.panel.machine.cost < UInt32.size) (budget : UInt32) (t : Nat × Remote) :
    r.tryRun budget = .ok t ↔
      (r.panel.machine.state = .running →
        (r.run budget).2.panel.machine.executed < UInt64.size) ∧
      t = r.run budget := by
  have hroom : Machine.minBudget ≤ (budget.toNat : Int) - r.panel.machine.cost := by
    unfold Machine.minBudget UInt32.size at *
    omega
  have hcomes : Machine.Comes (r.tryRun budget) _ (r.run budget) :=
    (FrontPanel.comes_tryRunBurst (.inl hc)).bind_pure _
  rw [hcomes.eq_ok_iff,
    Machine.overflowWithin_payable_eq_none_iff hc hsize _ r.panel.lamps]
  exact and_congr_left fun _ => forall_congr' fun _ => and_iff_right hroom

end Remote
end Kenbak1
