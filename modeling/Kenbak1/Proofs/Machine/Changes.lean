/-
  Kenbak1.Proofs.Machine.Changes

  What a run may have changed. A step changes one address at most, P apart
  (`writesNext_of_differsAt`); and outside A, B, X and P only an instruction that stores a byte
  changes anything, at the address that it resolves its operand to (`StoresAt`,
  `storesAt_of_writesNext`). So a cell that reads differently behind a run was stored to by one of
  its steps (`exists_storesAt_of_differsAt`).
-/
import Kenbak1.Proofs.Machine.Calls
import Kenbak1.Proofs.Machine.Notices

namespace Kenbak1

/-! ## Instructions that store -/

/-- The operations that store a byte. -/
def Operation.storing : List Operation :=
  [.store, .set0, .set1, .jmd, .jmi]

namespace Instruction

/-- The condition of a jump, with the register that has to meet it. -/
def test (i : Instruction) : Option (Condition × Register) :=
  i.condition.bind fun condition => i.register.map (condition, ·)

/-- The fields that an action was made from. -/
theorem fields_of_action {i : Instruction} {action : Action} (h : i.action = .ok action) :
    match action with
    | .store _ mode => i.operation = .store ∧ i.mode = some mode
    | .assign .. => i.operation = .set0 ∨ i.operation = .set1
    | .jump test mode mark =>
      i.operation ∈ Operation.jumps ∧ i.mode = some mode ∧ i.test = test ∧ i.mark = mark
    | .combine .. | .skip .. | .shift .. | .noop | .halt => True := by
  unfold Instruction.action at h
  -- Which action is made depends on the operation alone.
  cases hop : i.operation with
  | store =>
    simp only [hop, bind_eq_ok, needMode_eq_ok, pure, Except.pure, Except.ok.injEq] at h
    obtain ⟨r, -, mode, hmode, rfl⟩ := h
    exact ⟨rfl, hmode⟩
  | set0 | set1 =>
    simp only [hop, bind_eq_ok, pure, Except.pure, Except.ok.injEq] at h
    obtain ⟨bit, -, rfl⟩ := h
    simp
  | jpd | jpi | jmd | jmi =>
    simp only [hop] at h
    obtain ⟨mode, hmode, ⟨hcondition, rfl⟩ | ⟨c, r, hcondition, hregister, rfl⟩⟩ := jump_eq_ok h
    · exact ⟨by decide, hmode, by simp [test, hcondition], rfl⟩
    · exact ⟨by decide, hmode, by simp [test, hcondition, hregister], rfl⟩
  | add | sub | load | or | and | lneg =>
    simp only [hop, combination_eq_ok] at h
    obtain ⟨mode, r, -, -, rfl⟩ := h
    trivial
  | skp0 | skp1 =>
    simp only [hop, bind_eq_ok, pure, Except.pure, Except.ok.injEq] at h
    obtain ⟨bit, -, rfl⟩ := h
    trivial
  | sftl | sftr | rotl | rotr =>
    simp only [hop, shiftAction_eq_ok] at h
    obtain ⟨r, n, -, -, rfl⟩ := h
    trivial
  | noop | halt =>
    simp only [hop, pure, Except.pure, Except.ok.injEq] at h
    subst h
    trivial

end Instruction

namespace Machine

variable {m : Machine Memory} {a : UInt8}

/-- The next step stores a byte at an address: it executes a STORE whose operand resolves to the
    address, a SET whose operand byte is the address, or a jump and mark that is taken and leads
    there. Operands are resolved with P behind the instruction. -/
inductive StoresAt (m : Machine Memory) (a : UInt8) : Prop
  | store {i : Instruction} {mode : Mode} (executed : (m.step ()).value = some i)
      (operation : i.operation = .store) (addressing : i.mode = some mode)
      (resolved : (m.fetchAll.2.effectiveAddress mode m.fetchAll.1).1 = some a)
  | assign {i : Instruction} (executed : (m.step ()).value = some i)
      (operation : i.operation = .set0 ∨ i.operation = .set1) (resolved : m.fetchAll.1 = a)
  | mark {i : Instruction} {mode : Mode} (executed : (m.step ()).value = some i)
      (operation : i.operation = .jmd ∨ i.operation = .jmi) (addressing : i.mode = some mode)
      (taken : m.fetchAll.2.takes i.test = true)
      (resolved : (m.fetchAll.2.jumpTarget mode m.fetchAll.1).1 = a)

/-- What stores a byte has an operation that does so. -/
theorem StoresAt.storing (h : m.StoresAt a) :
    ∃ i, (m.step ()).value = some i ∧ i.operation ∈ Operation.storing := by
  cases h with
  | store executed operation => exact ⟨_, executed, by rw [operation]; decide⟩
  | assign executed operation =>
    exact ⟨_, executed, by rcases operation with h | h <;> rw [h] <;> decide⟩
  | mark executed operation =>
    exact ⟨_, executed, by rcases operation with h | h <;> rw [h] <;> decide⟩

/-- What a step writes outside A, B, X and P (`writesNext`) it stores there. -/
theorem storesAt_of_writesNext (h : m.writesNext = some a) (ha : a ∉ changed) : m.StoresAt a := by
  unfold writesNext at h
  cases hm : m.state with
  | halted =>
    rw [hm] at h
    cases h
  | running =>
    obtain ⟨action, haction⟩ := Instruction.exists_action_decode m.fetch.1
    have hexecuted : (m.step ()).value = some (decode m.fetch.1) := by
      rw [step_of_running hm]
      rfl
    have hregisters := Instruction.registers_action_decode _ haction
    have hfields := Instruction.fields_of_action haction
    simp only [hm, haction, Except.toOption, Option.bind_some] at h
    -- The registers that instructions work on are A, B and X.
    have hregister : ∀ r ∈ action.registers, r.address ≠ a := by
      rintro r hr rfl
      rcases hregisters r hr with rfl | rfl | rfl <;> exact ha (by decide)
    cases action with
    | combine f r mode => exact absurd (Option.some.inj h) (hregister r (List.mem_singleton_self r))
    | shift shift r places =>
      exact absurd (Option.some.inj h) (hregister r (List.mem_singleton_self r))
    | store r mode =>
      obtain ⟨hoperation, hmode⟩ := hfields
      refine .store hexecuted hoperation hmode ?_
      simpa [writesAt, stores] using h
    | assign bit value => exact .assign hexecuted hfields (Option.some.inj h)
    | jump test mode mark =>
      obtain ⟨hjumps, hmode, rfl, rfl⟩ := hfields
      simp only [writesAt, stores, Option.map_if, Option.ite_none_right_eq_some,
        Option.some.injEq] at h
      obtain ⟨⟨htaken, hmark⟩, htarget⟩ := h
      have hwf := (Instruction.wellFormed_decode m.fetch.1).mark
      rw [hmark] at hwf
      refine .mark hexecuted ?_ hmode htaken htarget
      simpa using hwf.symm
    | skip | noop | halt => cases h

/-! ## Steps -/

/-- The address differs between two machines. -/
def DiffersAt (m k : Machine Memory) (a : UInt8) : Prop :=
  (k.readByte a).1 ≠ (m.readByte a).1

/-- An address that a step changes, other than P, is the one that it writes. -/
theorem writesNext_of_differsAt (hp : a ≠ Register.p.address) (h : DiffersAt m m.next a) :
    m.writesNext = some a := by
  by_contra hwrites
  exact h (readByte_next_of_ne hp hwrites)

theorem latch_next (m : Machine Memory) : m.next.latch = m.latch := by
  cases hm : m.state with
  | halted => rw [next_of_halted hm]; rfl
  | running => rw [next_of_running hm]; rfl

theorem latch_after (m : Machine Memory) (n : Nat) : (m.after n).latch = m.latch := by
  induction n with
  | zero => rfl
  | succ n ih => rw [after_succ_eq_next, latch_next, ih]

/-! ## Runs -/

/-- A request that executes instructions. -/
def Request.runs : Request → Bool
  | .step | .run _ | .runBursts .. => true
  | _ => false

variable {σ : Type} [Observer σ]

/-- Requests that execute instructions come to a number of steps. -/
theorem exists_reports_serveAll (m : Machine Memory) (o : σ) {requests : List Request}
    (h : requests.all Request.runs = true) :
    ∃ n, Reports m o (m.serveAll o requests).machine (m.serveAll o requests).observer n := by
  induction requests generalizing m o with
  | nil => exact ⟨0, .none m m.budget o⟩
  | cons request rest ih =>
    rw [List.all_cons, Bool.and_eq_true] at h
    obtain ⟨hruns, hrest⟩ := h
    obtain ⟨later, hlater⟩ := ih (m.serve o request).machine (m.serve o request).observer hrest
    have hfirst : ∃ n, Reports m o (m.serve o request).machine (m.serve o request).observer n := by
      cases request with
      | step => exact ⟨_, reports_step m o⟩
      | run budget => exact ⟨_, reports_run m budget o⟩
      | runBursts burst limit => exact ⟨_, reports_runBursts m burst limit o⟩
      | setHalt | reset | setInputBit | clearInput | latchInput | showLatch | storeInput
      | showLatched | readByte | writeByte | readOperand | writeOperand | jumpTarget => cases hruns
    obtain ⟨first, hfirst⟩ := hfirst
    exact ⟨first + later, hfirst.trans hlater⟩

/-- A cell that reads differently behind some steps was stored to by one of them (`StoresAt`). -/
theorem exists_storesAt_of_differsAt {n : Nat} (ha : a ∉ changed)
    (h : DiffersAt m (m.after n) a) : ∃ i < n, (m.after i).StoresAt a := by
  have hp : a ≠ Register.p.address := by
    rintro rfl
    exact ha (by decide)
  by_contra hnone
  refine h (readByte_after_of_ne hp fun i hi hwrites => hnone ⟨i, hi, ?_⟩)
  exact storesAt_of_writesNext hwrites ha

/-- What instructions change. A step changes at most one address besides P (`DiffersAt`), and none
    outside A, B, X and P (`changed`) unless its operation stores (`Operation.storing`). Over steps,
    bursts and bursts up to a limit in any order, an address outside those four that reads
    differently at the end was stored to by one of the instructions executed (`StoresAt`): a STORE,
    a SET or a jump and mark that was taken, whose operand resolved to the address. The latch and
    the cost of an instruction never change. -/
theorem runs_change_stored (m : Machine Memory) (o : σ) :
    (∀ a b, a ≠ Register.p.address → b ≠ Register.p.address →
      DiffersAt m (m.step o).machine a → DiffersAt m (m.step o).machine b → a = b) ∧
    (∀ i, (m.step o).value = some i → i.operation ∉ Operation.storing →
      ∀ a, a ∉ changed → ¬ DiffersAt m (m.step o).machine a) ∧
    ∀ requests : List Request, requests.all Request.runs = true →
      let k := (m.serveAll o requests).machine
      k.latch = m.latch ∧ k.cost = m.cost ∧
        ∃ n, m.Executes k n ∧
          ∀ a, a ∉ changed → DiffersAt m k a → ∃ i < n, (m.after i).StoresAt a := by
  obtain ⟨hvalue, hnext⟩ := step_unwatched m o
  rw [hvalue, hnext]
  -- One step twice, for the address and for the operation, and then whole runs.
  refine ⟨?_, ?_, ?_⟩
  · intro a b ha hb hdiffers hdiffers'
    have hwrites := writesNext_of_differsAt ha hdiffers
    rw [writesNext_of_differsAt hb hdiffers'] at hwrites
    exact (Option.some.inj hwrites).symm
  · intro i hi hstoring a ha hdiffers
    obtain ⟨j, hj, hstores⟩ := exists_storesAt_of_differsAt (n := 1) ha hdiffers
    obtain rfl : j = 0 := by omega
    obtain ⟨i', hi', hstoring'⟩ := hstores.storing
    obtain rfl : i = i' := Option.some.inj (hi.symm.trans hi')
    exact hstoring hstoring'
  · intro requests hruns k
    obtain ⟨n, hreports⟩ := exists_reports_serveAll m o hruns
    have hexecutes := hreports.executes
    have hlatch := congrArg Machine.latch hreports.same
    have hcost := congrArg Machine.cost hreports.same
    refine ⟨hlatch.trans (m.latch_after n), hcost.trans (m.cost_after n), n, hexecutes, ?_⟩
    intro a ha hdiffers
    refine exists_storesAt_of_differsAt ha fun hsame => hdiffers ?_
    exact (readByte_congr hexecutes.bank hexecutes.bus a).trans hsame

/-- A program that stores A over the instruction behind the store, and runs on into it. -/
theorem runs_change_stored_own_code :
    let m : Machine Memory :=
      { Machine.fresh with
        bank := { a := 0o200, p := 0o004 }
        bus := (Memory.zero.write 0o004 0o034).write 0o005 0o006 }
    let k := (m.serveAll () [.step, .run 2000]).machine
    (∀ b, b ≠ Register.p.address → DiffersAt m m.next b → b = 0o006) ∧
      (∀ b, b ∉ changed → ¬ DiffersAt m.next m.next.next b) ∧
      k.latch = m.latch ∧ ∃ n, m.Executes k n ∧ ∃ i < n, (m.after i).StoresAt 0o006 := by
  intro m k
  have hstep : DiffersAt m m.next 0o006 := by
    unfold DiffersAt
    decide +kernel
  have hrun : DiffersAt m k 0o006 := by
    unfold DiffersAt
    decide +kernel
  have hnoop : (m.next.step ()).value = some (decode 0o200) := by decide +kernel
  obtain ⟨hone, -, hruns⟩ := runs_change_stored m ()
  obtain ⟨-, hquiet, -⟩ := runs_change_stored m.next ()
  obtain ⟨hlatch, -, n, hexecutes, hstored⟩ := hruns [.step, .run 2000] rfl
  refine ⟨fun b hb hdiffers => ?_, ?_, hlatch, n, hexecutes, ?_⟩
  · exact hone b 0o006 hb (by decide) hdiffers hstep
  · exact hquiet _ hnoop (by decide)
  · exact hstored 0o006 (by decide) hrun

end Machine
end Kenbak1
