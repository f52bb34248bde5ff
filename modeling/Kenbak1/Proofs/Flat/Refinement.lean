/-
  Kenbak1.Proofs.Flat.Refinement

  The machine with registers is the flat machine in another form. `serve_shows` has each `Request`
  answered as `Flat.serve` answers it, with the same said to the observer and the same left in view
  (`Shows`); `keeps_serve` says that what stands in memory behind the registers is out of reach.
  Both hold for every sequence of requests (`serveAll`).

  The budget and the count of the machine are counters of 64 bits, and those of the flat machine
  have no end. `tryServe` answers a request with the counters of the machine, and it answers exactly
  those that the machine has room for (`HasRoom`, `exists_comes_tryServe`).
-/
import Kenbak1.Machine.Entry
import Kenbak1.Proofs.Flat.Instruction
import Kenbak1.Proofs.Machine.Bursts
import Kenbak1.Proofs.Machine.Overflow

namespace Kenbak1
namespace Machine

/-! ## Requests -/

section Requests

variable {β σ : Type} [Bus β] [Observer σ]

/-- Answers a request. -/
def serve (m : Machine β) (o : σ) : Request → Turn Reply β σ
  | .step =>
    let turn := m.step o
    { turn with value := .instruction turn.value }
  | .run budget =>
    let turn := m.run budget o
    { turn with value := .count turn.value }
  | .runBursts burst limit =>
    let turn := m.runBursts burst limit o
    { turn with value := .count turn.value }
  | .setHalt halt =>
    let after := m.setHalt halt o
    { value := .done, machine := after.1, observer := after.2 }
  | .reset => { value := .done, machine := m.reset, observer := o }
  | .setInputBit number => { value := .done, machine := m.setInputBit number, observer := o }
  | .clearInput => { value := .done, machine := m.clearInput, observer := o }
  | .latchInput => { value := .done, machine := m.latchInput, observer := o }
  | .showLatch => { value := .done, machine := m.showLatch, observer := o }
  | .storeInput => { value := .done, machine := m.storeInput, observer := o }
  | .showLatched => { value := .done, machine := m.showLatched, observer := o }
  | .readByte a =>
    let answer := m.readByte a
    { value := .byte answer.1, machine := answer.2, observer := o }
  | .writeByte a v => { value := .done, machine := m.writeByte a v, observer := o }
  | .readOperand mode operand =>
    let answer := m.readOperand mode operand
    { value := .byte answer.1, machine := answer.2, observer := o }
  | .writeOperand mode operand v =>
    { value := .done, machine := m.writeOperand mode operand v, observer := o }
  | .jumpTarget mode operand =>
    let answer := m.jumpTarget mode operand
    { value := .byte answer.1, machine := answer.2, observer := o }

/-- What a request does and returns does not depend on who watches. -/
theorem serve_unwatched (m : Machine β) (o : σ) (request : Request) :
    (m.serve o request).value = (m.serve () request).value ∧
      (m.serve o request).machine = (m.serve () request).machine := by
  cases request with
  | step =>
    obtain ⟨hvalue, hmachine⟩ := step_unwatched m o
    exact ⟨congrArg Reply.instruction hvalue, hmachine⟩
  | run budget =>
    obtain ⟨hvalue, hmachine⟩ := run_unwatched m budget o
    exact ⟨congrArg Reply.count hvalue, hmachine⟩
  | runBursts burst limit =>
    obtain ⟨hvalue, hmachine⟩ := bursts_unwatched burst limit limit 0 m o
    exact ⟨congrArg Reply.count hvalue, hmachine⟩
  | setHalt | reset | setInputBit | clearInput | latchInput | showLatch | storeInput
  | showLatched | readByte | writeByte | readOperand | writeOperand | jumpTarget =>
    exact ⟨rfl, rfl⟩

/-- Answers requests one after another. -/
def serveAll (m : Machine β) (o : σ) : List Request → Turn (List Reply) β σ
  | [] => { value := [], machine := m, observer := o }
  | request :: rest =>
    let first := m.serve o request
    let others := first.machine.serveAll first.observer rest
    { others with value := first.value :: others.value }

/-- Answers a request, and breaks off where a counter overflows. -/
def tryServe (m : Machine β) (o : σ) : Request → Except (Failure β σ) (Turn Reply β σ)
  | .step => do
    let turn ← m.tryStep o
    return { turn with value := .instruction turn.value }
  | .run budget => do
    let turn ← m.tryRun budget o
    return { turn with value := .count turn.value }
  | .runBursts burst limit => do
    let turn ← m.tryRunBursts burst limit o
    return { turn with value := .count turn.value }
  | request => .ok (m.serve o request)

/-- Answers requests one after another, and breaks off where a counter overflows. -/
def tryServeAll (m : Machine β) (o : σ) :
    List Request → Except (Failure β σ) (Turn (List Reply) β σ)
  | [] => .ok { value := [], machine := m, observer := o }
  | request :: rest => do
    let first ← m.tryServe o request
    let others ← first.machine.tryServeAll first.observer rest
    return { others with value := first.value :: others.value }

/-- The counters of a machine have room for a request. A running machine needs it in the budget for
    one instruction, which `run` and `runBursts` begin with anew, and in the count for all that are
    executed. -/
def HasRoom (m : Machine β) : Request → Prop
  | .step => m.state = .running →
      minBudget ≤ m.budget - m.cost ∧ (m.step ()).machine.executed < UInt64.size
  | .run budget => m.state = .running →
      minBudget ≤ budget - m.cost ∧ (m.run budget ()).machine.executed < UInt64.size
  | .runBursts burst limit => m.state = .running ∧ 0 < limit →
      minBudget ≤ burst - m.cost ∧ (m.runBursts burst limit ()).machine.executed < UInt64.size
  | _ => True

/-- The counters have room for requests one after another. -/
def HasRoomAll (m : Machine β) : List Request → Prop
  | [] => True
  | request :: rest => m.HasRoom request ∧ (m.serve () request).machine.HasRoomAll rest

end Requests

end Machine

/-- An invariant stays true, whatever is asked of the machine. -/
theorem Machine.Invariant.serve {β σ : Type} [Bus β] [Observer σ] {P : Machine β → Prop}
    (hi : Machine.Invariant P) {m : Machine β} (h : P m) (request : Request) (o : σ) :
    P (m.serve o request).machine := by
  cases request with
  | step => exact hi.step h o
  | run budget => exact hi.run h budget o
  | runBursts burst limit => exact hi.runBursts h burst limit o
  | setHalt halt => exact hi.setHalt h halt o
  | reset => exact hi.reset h
  | setInputBit | clearInput | showLatch => exact hi.set h _ _
  | latchInput => exact hi.latch h m.bank.input
  | storeInput => exact hi.latch (hi.writeByte h m.latch m.bank.input) _
  | showLatched => exact hi.set (hi.readByte h m.latch) .out _
  | readByte a => exact hi.readByte h a
  | writeByte a v => exact hi.writeByte h a v
  | readOperand mode operand => exact hi.readOperand h mode operand
  | writeOperand mode operand v => exact hi.writeOperand h mode operand v
  | jumpTarget mode operand => exact hi.jumpTarget h mode operand

namespace Machine

variable {α σ : Type} [Observer σ] {m : Machine Memory}

/-- A turn is what an effect looks like: it returned the same, said the same to the observer
    it found, and left a machine with the same view. -/
structure Shows (t : Turn α Memory σ) (o : σ) (e : Flat.Effect α) : Prop where
  value : t.value = e.value
  observer : t.observer = e.notices.foldl Observer.notify o
  after : t.machine.flatten = e.after

/-! ## Steps -/

theorem size_of_keeps {k : Machine Memory} (h : Keeps m k)
    (hm : m.bus.cells.size = memorySize) : k.bus.cells.size = memorySize :=
  h.size.trans hm

/-- Executing the instruction at P (`executeNext`) is what `Flat.step` does, but for the count. -/
theorem flatten_executeNext (hm : m.bus.cells.size = memorySize) :
    m.executeNext.1 = decode m.flatten.fetch.1 ∧
    m.executeNext.2.flatten =
      let opcode := m.flatten.fetch
      let i := decode opcode.1
      let operand := if i.hasOperand then opcode.2.fetch else (0, opcode.2)
      operand.2.execute i operand.1 := by
  rw [fetch_flatten]
  refine ⟨rfl, ?_⟩
  have hone : m.fetch.2.bus.cells.size = memorySize := by
    rw [fetch_plain]
    exact hm
  have htwo : m.fetch.2.fetch.2.bus.cells.size = memorySize := by
    rw [fetch_plain]
    exact hone
  -- The journal is not in view, so the entry of the instruction makes no difference.
  have hnoted : ∀ (k : Machine Memory) (e : Entry), k.bus.cells.size = memorySize →
      (k.note e).bus.cells.size = memorySize := fun _ _ h => h
  unfold executeNext
  by_cases hmode : (decode m.fetch.1).hasOperand = true
  · simp only [if_pos hmode, fetch_flatten]
    rw [flatten_execute (hnoted _ _ htwo), flatten_note]
  · simp only [if_neg hmode]
    rw [flatten_execute (hnoted _ _ hone), flatten_note]

theorem step_shows (hm : m.bus.cells.size = memorySize) (o : σ) :
    Shows (m.step o) o m.flatten.step := by
  have hstate : m.flatten.state = m.state := rfl
  unfold Flat.step
  cases h : m.state with
  | halted =>
    rw [step_of_halted h, hstate, h]
    exact ⟨rfl, rfl, flatten_withBudget m 0⟩
  | running =>
    -- Count, cost and latch come from the ledger; all else is what the instruction left.
    obtain ⟨hfirst, hsecond⟩ := flatten_executeNext hm
    rw [step_of_running h, hstate, h]
    simp only at hsecond ⊢
    rw [← hfirst] at hsecond ⊢
    rw [← hsecond]
    have hledger := ledger_executeNext m
    simp only [ledger, Ledger.mk.injEq] at hledger
    obtain ⟨-, -, hcost, hlatch, -⟩ := hledger
    have hout : m.executeNext.2.flatten.reg .out = m.executeNext.2.bank.out :=
      reg_flatten m.executeNext.2 .out
    refine ⟨rfl, ?_, ?_⟩
    · show _ = Observer.notify (Observer.notify o (.out (m.executeNext.2.flatten.reg .out)))
        (.halt m.executeNext.2.isHalted)
      rw [hout]
    · rw [flatten_withLedger]
      exact Flat.ext rfl rfl rfl hcost.symm hlatch.symm

/-- Steps in view, until the machine stands. -/
theorem steps_shows (hm : m.bus.cells.size = memorySize) (n : Nat) (o : σ) :
    Shows { value := (m.after n).executed - m.executed, machine := m.after n,
            observer := (m.steps n o).2 } o (m.flatten.steps n) := by
  induction n generalizing m o with
  | zero => exact ⟨Nat.sub_self _, rfl, rfl⟩
  | succ n ih =>
    have hstate : m.flatten.state = m.state := rfl
    unfold Flat.steps
    cases h : m.state with
    | halted =>
      obtain ⟨hmachine, hobserver⟩ := steps_quiet_of_halted h (n + 1) o
      have hcount := executed_eq_of_withBudget hmachine
      have hview := congrArg Machine.flatten hmachine
      rw [flatten_withBudget, flatten_withBudget] at hview
      rw [hstate, h]
      exact ⟨by rw [hcount, Nat.sub_self], hobserver, hview⟩
    | running =>
      -- The notices of the first step come before those of the rest.
      have hstep := step_shows hm o
      have hmachine : (m.step o).machine = m.next := (step_unwatched m o).2
      have hnext : m.next.flatten = m.flatten.step.after := hmachine ▸ hstep.after
      have hkeeps : m.next.bus.cells.size = memorySize :=
        size_of_keeps (hmachine ▸ Keeps.step o) hm
      have hrest := ih hkeeps (m.step o).observer
      rw [hnext] at hrest
      rw [hstate, h]
      refine ⟨?_, ?_, ?_⟩
      · have hcount := executed_next_of_running h
        have hmono := executed_le_after m.next n
        have hvalue := hrest.value
        simp only [after_succ] at hvalue ⊢
        omega
      · have hobserver := hrest.observer
        simp only [hstep.observer] at hobserver
        simp only [steps, hmachine, List.foldl_append, ← hobserver, hstep.observer]
      · exact hrest.after

/-! ## Bursts -/

theorem run_shows (hm : m.bus.cells.size = memorySize) (hc : 1 ≤ m.cost) (b : Int) (o : σ) :
    Shows (m.run b o) o (m.flatten.steps (payable m.cost b)) := by
  have hshows := steps_shows (m := m.withBudget b) hm (payable m.cost b) o
  rw [flatten_withBudget, (steps_withBudget m b _ o).2] at hshows
  rw [run_eq_steps (.inl hc)]
  exact hshows

theorem runBursts_shows (hm : m.bus.cells.size = memorySize) (hc : 1 ≤ m.cost) (burst : Int)
    (limit : Nat) (o : σ) :
    Shows (m.runBursts burst limit o) o (m.flatten.steps limit) := by
  have hshows := steps_shows hm limit o
  have hturn := runBursts_eq_steps burst (.inl hc) limit o
  have hvalue := congrArg Turn.value hturn
  have hobserver := congrArg Turn.observer hturn
  have hview := congrArg (fun t => t.machine.flatten) hturn
  simp only [Turn.withBudget, flatten_withBudget] at hvalue hobserver hview
  exact ⟨hvalue.trans hshows.value, hobserver.trans hshows.observer, hview.trans hshows.after⟩

/-! ## Operations from outside -/

theorem flatten_reset : m.reset.flatten = m.flatten.reset := by
  refine Flat.ext ?_ rfl rfl rfl rfl
  funext a
  show (m.reset.readByte a).1
    = if a ∈ Register.all.map Register.address then 0 else (m.readByte a).1
  -- A reset zeroes the registers and leaves what memory answers.
  cases h : Register.ofAddress? a with
  | some r =>
    have ha : a ∈ Register.all.map Register.address :=
      List.mem_map.mpr ⟨r, r.mem_all, (Register.ofAddress?_eq_some_iff.mp h).symm⟩
    rw [if_pos ha]
    simp only [readByte, h]
    cases r <;> rfl
  | none =>
    have ha : a ∉ Register.all.map Register.address := by
      intro hmem
      obtain ⟨r, -, rfl⟩ := List.mem_map.mp hmem
      rw [Register.ofAddress?_address] at h
      cases h
    rw [if_neg ha]
    simp only [readByte, h]
    rfl

/-- The number of a bit counts modulo eight. -/
theorem bitMask_eq (number : UInt8) :
    bitMask (Fin.ofNat 8 number.toNat) = 1 <<< (number &&& 7) := by
  have hmod : UInt8.ofNat (number.toNat % 8) = number &&& 7 := by
    rw [← UInt8.toNat_inj, UInt8.toNat_ofNat', UInt8.toNat_and]
    show number.toNat % 8 % 256 = number.toNat &&& 2 ^ 3 - 1
    rw [Nat.and_two_pow_sub_one_eq_mod]
    omega
  show 1 <<< UInt8.ofNat (number.toNat % 8) = 1 <<< (number &&& 7)
  rw [hmod]

theorem flatten_setInputBit (number : UInt8) :
    (m.setInputBit number).flatten = m.flatten.setInputBit number := by
  unfold setInputBit Flat.setInputBit
  rw [flatten_set, reg_flatten, bitMask_eq]
  rfl

theorem flatten_withLatch (a : UInt8) :
    ({ m with latch := a } : Machine Memory).flatten = { m.flatten with latch := a } :=
  flatten_withLedger m { m.ledger with latch := a }

theorem latch_writeByte (a v : UInt8) : (m.writeByte a v).latch = m.latch := by
  rw [writeByte_eq]

theorem flatten_storeInput (hm : m.bus.cells.size = memorySize) :
    m.storeInput.flatten = m.flatten.storeInput := by
  unfold storeInput Flat.storeInput
  simp only [flatten_withLatch, flatten_writeByte hm, latch_writeByte, reg_flatten]
  rfl

theorem flatten_showLatched :
    m.showLatched.flatten = m.flatten.setReg .out (m.flatten.cells m.latch) := by
  unfold showLatched
  simp only [readByte_plain, flatten_set, cells_flatten]

/-! ## Requests in view -/

/-- A request is answered (`serve`) as `Flat.serve` answers it. -/
theorem serve_shows (hm : m.bus.cells.size = memorySize) (request : Request)
    (hc : request.IsBurst → 1 ≤ m.cost) (o : σ) :
    Shows (m.serve o request) o (m.flatten.serve request) := by
  -- Reads, and what only moves a register or the latch, show by computing both sides.
  cases request with
  | step =>
    have h := step_shows hm o
    exact ⟨congrArg Reply.instruction h.value, h.observer, h.after⟩
  | run budget =>
    have h := run_shows hm (hc trivial) budget o
    exact ⟨congrArg Reply.count h.value, h.observer, h.after⟩
  | runBursts burst limit =>
    have h := runBursts_shows hm (hc trivial) burst limit o
    exact ⟨congrArg Reply.count h.value, h.observer, h.after⟩
  | setHalt halt =>
    refine ⟨rfl, rfl, (flatten_withState _ _).trans ?_⟩
    rw [flatten_note]
    rfl
  | reset => exact ⟨rfl, rfl, flatten_reset⟩
  | setInputBit number => exact ⟨rfl, rfl, flatten_setInputBit number⟩
  | clearInput => exact ⟨rfl, rfl, flatten_set m .input 0⟩
  | latchInput =>
    refine ⟨rfl, rfl, (flatten_withLatch m.bank.input).trans ?_⟩
    simp only [Flat.serve, reg_flatten]
    rfl
  | showLatch => exact ⟨rfl, rfl, flatten_set m .out m.latch⟩
  | storeInput => exact ⟨rfl, rfl, flatten_storeInput hm⟩
  | showLatched => exact ⟨rfl, rfl, flatten_showLatched⟩
  | readByte a =>
    exact ⟨rfl, rfl, congrArg flatten (readByte_plain m a)⟩
  | writeByte a v => exact ⟨rfl, rfl, flatten_writeByte hm a v⟩
  | readOperand mode operand =>
    exact ⟨congrArg Reply.byte (read_flatten m mode operand).symm, rfl,
      congrArg flatten (readOperand_plain m mode operand)⟩
  | writeOperand mode operand v => exact ⟨rfl, rfl, flatten_writeOperand hm mode operand v⟩
  | jumpTarget mode operand =>
    exact ⟨congrArg Reply.byte (target_flatten m mode operand).symm, rfl,
      congrArg flatten (jumpTarget_plain m mode operand)⟩

/-- No request reaches what stands behind the registers (`Keeps`). -/
theorem keeps_serve (request : Request) (o : σ) : Keeps m (m.serve o request).machine := by
  have h := (Keeps.stable (m := m)).invariant.serve (m := m) .refl request o
  exact ⟨h.size, h.behind⟩

/-- No request changes what an instruction costs. -/
theorem cost_serve (request : Request) (hc : request.IsBurst → 1 ≤ m.cost) (o : σ) :
    (m.serve o request).machine.cost = m.cost := by
  -- Runs are bare steps, and no step, read or write changes the cost.
  cases request with
  | step =>
    have hnext : (m.step o).machine = m.next := (step_unwatched m o).2
    exact (congrArg Machine.cost hnext).trans (cost_next m)
  | run budget =>
    have hrun := congrArg (fun t => t.machine.cost) (run_eq_steps (b := budget) (.inl (hc trivial)) o)
    exact hrun.trans (cost_after _ _)
  | runBursts burst limit =>
    have hturn := runBursts_eq_steps burst (.inl (hc trivial)) limit o
    have hcost : (m.runBursts burst limit o).machine.cost = (m.after limit).cost :=
      congrArg (fun t => t.machine.cost) hturn
    exact hcost.trans (cost_after m limit)
  | storeInput => exact cost_writeByte m m.latch m.bank.input
  | showLatched => simp only [serve, showLatched, readByte_plain, set]
  | readByte a => exact congrArg Machine.cost (readByte_plain m a)
  | writeByte a v => exact cost_writeByte m a v
  | readOperand mode operand => exact congrArg Machine.cost (readOperand_plain m mode operand)
  | writeOperand mode operand v =>
    simp only [serve, writeOperand_plain]
    cases (m.effectiveAddress mode operand).1 with
    | none => rfl
    | some a => exact cost_writeByte m a v
  | jumpTarget mode operand => exact congrArg Machine.cost (jumpTarget_plain m mode operand)
  | setHalt | reset | setInputBit | clearInput | latchInput | showLatch => rfl

/-! ## Room in the counters -/

/-- `tryServe` answers a request to its end exactly if the counters have room for it (`HasRoom`). -/
theorem exists_comes_tryServe {β : Type} [Bus β] {m : Machine β} (request : Request)
    (hc : request.IsBurst → 1 ≤ m.cost) (hsize : m.cost < UInt32.size) (o : σ) :
    ∃ overflow, Comes (m.tryServe o request) overflow (m.serve o request) ∧
      (overflow = none ↔ m.HasRoom request) := by
  cases request with
  | step =>
    refine ⟨_, (comes_tryStep m o).bind_pure _, ?_⟩
    cases hm : m.state with
    | halted => simp [HasRoom, overflow?_of_halted hm, hm]
    | running =>
      have hcount : (m.step ()).machine.executed = m.executed + 1 := executed_next_of_running hm
      rw [overflow?_eq_none_iff hm, HasRoom, hcount]
      exact ⟨fun h _ => h, fun h => h hm⟩
  | run budget =>
    exact ⟨_, (comes_tryRun (.inl (hc trivial)) o).bind_pure _,
      overflowWithin_payable_eq_none_iff (hc trivial) hsize budget ()⟩
  | runBursts burst limit =>
    obtain ⟨overflow, hcomes, hnone⟩ :=
      exists_comes_burstsBy burst limit (hc trivial) hsize (Nat.sub_le limit 0) o
    refine ⟨overflow, hcomes.bind_pure _, ?_⟩
    rw [hnone, (bursts_unwatched burst limit limit 0 m o).2]
    rfl
  | setHalt | reset | setInputBit | clearInput | latchInput | showLatch | storeInput
  | showLatched | readByte | writeByte | readOperand | writeOperand | jumpTarget =>
    exact ⟨none, .ok _, iff_of_true rfl trivial⟩

/-! ## The refinement -/

/-- A machine with 256 cells answers every sequence of requests as the flat machine `flatten` does
    that it looks like (`Shows`): the answers, what the observer is told, the cells in view, the run
    state, the address latch and the count of instructions are the same. What stands in memory
    behind the nine register addresses is never changed.

    In counters of 64 bits, `tryServeAll` comes to these answers exactly if the counters have room
    for the requests (`HasRoomAll`); else it breaks off. -/
theorem serveAll_refines_flat (m : Machine Memory) (o : σ) (requests : List Request)
    (hm : m.bus.cells.size = memorySize)
    (hc : ∀ request ∈ requests, request.IsBurst → 1 ≤ m.cost) :
    Shows (m.serveAll o requests) o (m.flatten.serveAll requests) ∧
      (∀ r : Register,
        (m.serveAll o requests).machine.bus.read r.address = m.bus.read r.address) ∧
      (m.cost < UInt32.size → ∀ t,
        m.tryServeAll o requests = .ok t ↔ m.HasRoomAll requests ∧ t = m.serveAll o requests) := by
  suffices h : Shows (m.serveAll o requests) o (m.flatten.serveAll requests) ∧
      Keeps m (m.serveAll o requests).machine ∧
      (m.cost < UInt32.size → ∃ overflow,
        Comes (m.tryServeAll o requests) overflow (m.serveAll o requests) ∧
        (overflow = none ↔ m.HasRoomAll requests)) by
    refine ⟨h.1, h.2.1.behind, fun hsize t => ?_⟩
    obtain ⟨overflow, hcomes, hnone⟩ := h.2.2 hsize
    exact (hcomes.eq_ok_iff t).trans (and_congr_left fun _ => hnone)
  -- The induction is on the requests; each leaves a machine of the same size and costs.
  induction requests generalizing m o with
  | nil => exact ⟨⟨rfl, rfl, rfl⟩, .refl, fun _ => ⟨none, .ok _, iff_of_true rfl trivial⟩⟩
  | cons request rest ih =>
    have hfirst : request.IsBurst → 1 ≤ m.cost := hc request (List.mem_cons_self ..)
    have hshows := serve_shows hm request hfirst o
    have hkeeps := keeps_serve (m := m) request o
    have hcost := cost_serve request hfirst o
    obtain ⟨hrest, hkept, hlater⟩ := ih (m.serve o request).machine (m.serve o request).observer
      (size_of_keeps hkeeps hm)
      (fun q hq hburst => hcost ▸ hc q (List.mem_cons_of_mem request hq) hburst)
    rw [hshows.after] at hrest
    refine ⟨⟨?_, ?_, hrest.after⟩, hkeeps.trans hkept, fun hsize => ?_⟩
    · simp only [serveAll, Flat.serveAll, hshows.value, hrest.value]
    · simp only [serveAll, Flat.serveAll, List.foldl_append, ← hshows.observer]
      exact hrest.observer
    · obtain ⟨overflow, hcomes, hnone⟩ := exists_comes_tryServe request hfirst hsize o
      obtain ⟨next, hothers, hnext⟩ := hlater (hcost.symm ▸ hsize)
      refine ⟨overflow.or next, hcomes.bind (hothers.bind_pure _), ?_⟩
      rw [Option.or_eq_none_iff, hnone, hnext, HasRoomAll, (serve_unwatched m o request).2]

/-- A program that stores A in the cell of P, and so jumps to a halt. -/
theorem serveAll_refines_flat_store_to_p :
    let requests : List Request :=
      [.writeByte 0o004 0o023, .writeByte 0o005 0o100, .writeByte 0o006 0o034,
        .writeByte 0o007 0o003, .writeByte 0o003 0o004, .run 20000, .readByte 0o003]
    Machine.fresh.bus.cells.size = memorySize ∧
      (∀ request ∈ requests, request.IsBurst → 1 ≤ Machine.fresh.cost) ∧
      (Machine.fresh.serveAll () requests).value
        = (Machine.fresh.flatten.serveAll requests).value ∧
      (Machine.fresh.serveAll () requests).value
        = [.done, .done, .done, .done, .done, .count 3, .byte 0o101] := by
  intro requests
  have hm : Machine.fresh.bus.cells.size = memorySize := Array.size_replicate
  have hc : ∀ request ∈ requests, request.IsBurst → 1 ≤ Machine.fresh.cost :=
    fun _ _ _ => by decide
  exact ⟨hm, hc, (serveAll_refines_flat Machine.fresh () requests hm hc).1.value,
    by decide +kernel⟩

/-- A burst that is overdrawn from the start leaves a budget that has no room for the step behind
    it: the flat machine goes on, and `tryServeAll` breaks off. -/
theorem tryServeAll_breaks_off :
    let m : Machine Memory :=
      { Machine.fresh with
        bank := { p := 4 }, cost := 0xffffffff, bus := (Memory.zero.write 4 0o200).write 5 0o200 }
    let requests : List Request := [.run (-9223372030412324865), .step]
    m.bus.cells.size = memorySize ∧ (∀ request ∈ requests, request.IsBurst → 1 ≤ m.cost) ∧
      (m.flatten.serveAll requests).after.executed = 2 ∧
      ∃ failure, m.tryServeAll () requests = .error failure ∧ failure.overflow = .budget ∧
        failure.machine.executed = 1 := by
  intro m requests
  have hone : payable m.flatten.cost (-9223372030412324865) = 1 := payable_of_le (by decide)
  refine ⟨by decide +kernel, fun _ _ _ => by decide, ?_, by decide +kernel⟩
  show (m.flatten.steps (payable m.flatten.cost _)).after.step.after.executed = 2
  rw [hone]
  decide +kernel

end Machine
end Kenbak1
