/-
  Kenbak1.Proofs.Machine.Listed

  What is listed is what runs. `disassembleAt` reads an instruction at plain addresses; a machine
  fetches it by moving P on before each byte (`fetches`). In general-purpose memory both come to the
  same bytes (`fetches_of_isRam`), so the line at P is the instruction that the next step executes,
  has as many bytes as the step fetches, and is what the journal says of the step. Behind the bytes
  fetched P stays, unless the instruction is a jump or a skip or stores a byte over P
  (`destination`).
-/
import Kenbak1.Proofs.Machine.Fetch
import Kenbak1.Proofs.Machine.Stores

namespace Kenbak1

/-- No register answers in general-purpose memory. -/
theorem Register.ofAddress?_of_isRam {a : UInt8} (h : isRam a = true) : ofAddress? a = none := by
  cases ha : ofAddress? a with
  | none => rfl
  | some r =>
    obtain rfl := ofAddress?_eq_some_iff.mp ha
    exact absurd h (by cases r <;> decide)

/-- An instruction in general-purpose memory does not reach P's own address. -/
theorem ne_p_address_of_isRam {a : UInt8} (h : isRam a = true) :
    a ≠ Register.p.address ∧ a + 1 ≠ Register.p.address := by
  have hplain := Register.ofAddress?_of_isRam h
  constructor
  · rintro rfl
    cases hplain
  · intro hnext
    have hbefore : a = Register.p.address - 1 := by rw [← hnext, UInt8.add_sub_cancel]
    rw [hbefore] at hplain
    cases hplain

/-! ## The journal -/

namespace Journal

/-- The trace records of a journal, oldest first. -/
def traces (j : Journal) : List Entry :=
  j.entries.toList.filter fun e => e.level = .trace

theorem traces_note_of_ne {e : Entry} (h : e.level ≠ .trace) (j : Journal) :
    (j.note e).traces = j.traces := by
  unfold note
  split
  · simp [traces, h]
  · rfl

/-- A trace record goes into a journal that keeps such detail. -/
theorem traces_note {e : Entry} (h : e.level = .trace) (j : Journal) :
    (j.note e).traces = j.traces ++ if j.keeps .trace then [e] else [] := by
  unfold note
  rw [h]
  split
  · simp [traces, h]
  · exact (List.append_nil _).symm

end Journal

namespace Machine

/-! ## Fetching -/

section Fetches

variable {β : Type} [Bus β]

/-- Fetches a number of bytes one after another. -/
def fetches : (count : Nat) → Machine β → List UInt8 × Machine β
  | 0, m => ([], m)
  | count + 1, m =>
    let byte := m.fetch
    let others := fetches count byte.2
    (byte.1 :: others.1, others.2)

/-- The instruction at P is fetched byte by byte, and noted with the second byte as its operand. -/
theorem fetchAll_eq_fetches (m : Machine β) :
    let fetched := m.fetches (decode m.fetch.1).size
    m.fetchAll =
      (fetched.1.getD 1 0,
        fetched.2.note (.executed m.bank.p (decode m.fetch.1) (fetched.1.getD 1 0))) := by
  unfold fetchAll Instruction.size
  cases (decode m.fetch.1).hasOperand <;> rfl

end Fetches

variable (m : Machine Memory)

/-- The bytes fetched from P on are those that stand there, as long as P does not come to its own
    address. -/
theorem fetches_plain (count : Nat)
    (h : ∀ k < count, m.bank.p + k.toUInt8 ≠ Register.p.address) :
    m.fetches count =
      ((List.range count).map fun k => (m.readByte (m.bank.p + k.toUInt8)).1,
        m.jumpTo (m.bank.p + count.toUInt8)) := by
  have hzero : m.bank.p + (0 : Nat).toUInt8 = m.bank.p := UInt8.add_zero _
  -- The induction is on the bytes: the first is fetched at P, the others from the next address on.
  induction count generalizing m with
  | zero =>
    rw [hzero]
    rfl
  | succ count ih =>
    have hnext : ∀ k : Nat, m.fetch.2.bank.p + k.toUInt8 = m.bank.p + (k + 1).toUInt8 := by
      intro k
      rw [fetch_plain, ← add_one_add_toUInt8]
      rfl
    have hfirst : m.fetch.1 = (m.readByte m.bank.p).1 := by
      have hp := h 0 count.succ_pos
      rw [hzero] at hp
      rw [fetch_eq, if_neg hp]
    have hothers := ih m.fetch.2
      (fun k hk => by rw [hnext]; exact h (k + 1) (Nat.succ_lt_succ hk)) (UInt8.add_zero _)
    have hbytes : ∀ k ∈ List.range count, (m.fetch.2.readByte (m.fetch.2.bank.p + k.toUInt8)).1 =
        (m.readByte (m.bank.p + (k + 1).toUInt8)).1 := by
      intro k hk
      rw [hnext, fetch_plain]
      exact m.readByte_withP (h (k + 1) (Nat.succ_lt_succ (List.mem_range.mp hk))) _
    have hplace : m.fetch.2.jumpTo (m.fetch.2.bank.p + count.toUInt8) =
        m.jumpTo (m.bank.p + (count + 1).toUInt8) := by
      rw [hnext, fetch_plain]
      rfl
    rw [fetches, hothers, List.map_congr_left hbytes, hplace, List.range_succ_eq_map, List.map_cons,
      List.map_map, hfirst, hzero]
    rfl

/-! ## Where P goes -/

/-- Where an action moves P, if it does: to the target of a jump that is taken, or behind it if the
    jump marks; two bytes on, if a skip finds its bit as wanted; or to the byte that is stored over
    P. -/
def destination {β : Type} [Bus β] (m : Machine β) (action : Action) (x : UInt8) : Option UInt8 :=
  match action with
  | .jump test mode mark =>
    let target := (m.jumpTarget mode x).1
    if m.takes test then some (if mark then target + 1 else target) else none
  | .skip bit wanted =>
    if ((m.readByte x).1 &&& bitMask bit != 0) = wanted then some (m.bank.p + 2) else none
  | .store .. | .assign .. =>
    (m.stores action x).bind fun cell => if cell.1 = Register.p.address then some cell.2 else none
  | .combine .. | .shift .. | .noop | .halt => none

theorem p_writeByte (a v : UInt8) :
    (m.writeByte a v).bank.p = if a = Register.p.address then v else m.bank.p := by
  split
  · next h =>
    subst h
    rfl
  · next h => exact m.readByte_writeByte_of_ne (b := Register.p.address) (Ne.symm h) v

theorem p_set_of_ne {r : Register} (h : r = .a ∨ r = .b ∨ r = .x) (v : UInt8) :
    (m.set r v).bank.p = m.bank.p := by
  rcases h with rfl | rfl | rfl <;> rfl

theorem p_take (mode : Mode) (mark : Bool) (x : UInt8) :
    (m.take mode mark x).bank.p =
      if mark then (m.jumpTarget mode x).1 + 1 else (m.jumpTarget mode x).1 := by
  rw [take_plain]
  cases mark <;> rfl

/-- P stays where it is, unless the action moves it (`destination`). -/
theorem p_perform {action : Action}
    (hregisters : ∀ r ∈ action.registers, r = .a ∨ r = .b ∨ r = .x) (x : UInt8) :
    (m.perform action x).bank.p = (m.destination action x).getD m.bank.p := by
  cases action with
  | combine f r mode =>
    show (m.combine f r mode x).bank.p = m.bank.p
    rw [combine_plain]
    exact m.p_set_of_ne (hregisters r (List.mem_singleton_self r)) _
  -- A store moves P if it stores over it.
  | store r mode =>
    show (m.writeOperand mode x (m.get r)).bank.p = _
    rw [writeOperand_plain]
    cases h : (m.effectiveAddress mode x).1 with
    | none => simp [destination, stores, h]
    | some a =>
      rw [p_writeByte]
      by_cases ha : a = Register.p.address <;> simp [destination, stores, h, ha]
  | jump test mode mark =>
    rw [perform_jump, destination]
    split
    · exact m.p_take mode mark x
    · rfl
  | skip bit wanted =>
    show (m.skip bit wanted x).bank.p = _
    rw [skip_plain, destination]
    split <;> rfl
  | assign bit value =>
    show (m.assign bit value x).bank.p = _
    rw [assign_plain, p_writeByte]
    by_cases hx : x = Register.p.address <;> simp [destination, stores, hx]
  | shift shift r places => exact m.p_set_of_ne (hregisters r (List.mem_singleton_self r)) _
  | noop | halt => rfl

/-! ## What goes into the journal -/

theorem journal_writeByte (a v : UInt8) : (m.writeByte a v).journal = m.journal := by
  rw [writeByte_eq]

theorem journal_take (mode : Mode) (mark : Bool) (x : UInt8) :
    (m.take mode mark x).journal = m.journal := by
  rw [take_plain]
  cases mark with
  | false => rfl
  | true => exact m.journal_writeByte _ _

/-- A halt is noted, and nothing else that an action does. -/
theorem journal_perform (action : Action) (x : UInt8) :
    (m.perform action x).journal =
      if action = .halt then m.journal.note (.halted (m.bank.p - 1)) else m.journal := by
  -- Only the halt notes anything.
  cases action with
  | combine f r mode =>
    show (m.combine f r mode x).journal = m.journal
    rw [combine_plain]
    rfl
  | store r mode =>
    show (m.writeOperand mode x (m.get r)).journal = m.journal
    rw [writeOperand_plain]
    split
    · exact m.journal_writeByte _ _
    · rfl
  | jump test mode mark =>
    rw [perform_jump]
    split
    · exact m.journal_take mode mark x
    · rfl
  | skip bit wanted =>
    show (m.skip bit wanted x).journal = m.journal
    rw [skip_plain]
    split <;> rfl
  | assign bit value =>
    show (m.assign bit value x).journal = m.journal
    rw [assign_plain]
    exact m.journal_writeByte _ _
  | shift shift r places => rfl
  | noop => rfl
  | halt => rfl

/-- So an action adds no trace record. -/
theorem traces_perform (action : Action) (x : UInt8) :
    (m.perform action x).journal.traces = m.journal.traces := by
  rw [journal_perform]
  split
  · exact Journal.traces_note_of_ne (by simp [Entry.level]) _
  · rfl

/-! ## The line at P -/

variable {σ : Type} [Observer σ] {m}

/-- The bytes of an instruction in general-purpose memory (`isRam`) are fetched as they stand
    there. -/
theorem fetches_of_isRam (hp : isRam m.bank.p = true) :
    let i := decode (m.readByte m.bank.p).1
    let x := if i.hasOperand then (m.readByte (m.bank.p + 1)).1 else 0
    m.fetches i.size =
      (i.opcode :: (if i.hasOperand then [x] else []), m.jumpTo (m.bank.p + i.size.toUInt8)) := by
  intro i x
  obtain ⟨hopcode, hoperand⟩ := ne_p_address_of_isRam hp
  have hzero : m.bank.p + (0 : Nat).toUInt8 = m.bank.p := UInt8.add_zero _
  have hcode : i.opcode = (m.readByte m.bank.p).1 := Instruction.opcode_decode _
  -- One byte or two; none of them is fetched from the address of P.
  cases hsize : i.hasOperand with
  | false =>
    have hone : i.size = 1 := by simp [Instruction.size, hsize]
    have hapart : ∀ k < 1, m.bank.p + k.toUInt8 ≠ Register.p.address := by
      intro k hk
      obtain rfl : k = 0 := by omega
      rwa [hzero]
    rw [hone, m.fetches_plain 1 hapart, hcode]
    simp
  | true =>
    have htwo : i.size = 2 := by simp [Instruction.size, hsize]
    have hapart : ∀ k < 2, m.bank.p + k.toUInt8 ≠ Register.p.address := by
      intro k hk
      obtain rfl | rfl : k = 0 ∨ k = 1 := by omega
      · rwa [hzero]
      · exact hoperand
    have hx : x = (m.readByte (m.bank.p + 1)).1 := if_pos hsize
    rw [htwo, m.fetches_plain 2 hapart, hcode, hx]
    simp [List.range_succ]

/-- The instruction at P as it is dispatched: with the operand byte behind it, if it has one, after
    as many bytes as it has, and noted. -/
theorem fetchAll_of_isRam (hp : isRam m.bank.p = true) :
    let i := decode (m.readByte m.bank.p).1
    let x := if i.hasOperand then (m.readByte (m.bank.p + 1)).1 else 0
    m.fetch.1 = (m.readByte m.bank.p).1 ∧
      m.fetchAll = (x, (m.fetches i.size).2.note (.executed m.bank.p i x)) := by
  intro i x
  have hopcode : m.fetch.1 = (m.readByte m.bank.p).1 := by
    rw [fetch_eq, if_neg (ne_p_address_of_isRam hp).1]
  have hoperand : (m.fetches i.size).1.getD 1 0 = x := by
    rw [fetches_of_isRam hp]
    show (if i.hasOperand then [_] else []).getD 0 0 = x
    cases hsize : i.hasOperand with
    | false => exact (if_neg (by simp [hsize])).symm
    | true => exact (if_pos hsize).symm
  have hfetched := m.fetchAll_eq_fetches
  rw [hopcode] at hfetched
  refine ⟨hopcode, hfetched.trans ?_⟩
  rw [hoperand]

/-- The line at P, in general-purpose memory (`isRam`), is what the next step runs. Its text is that
    of the instruction executed, with the operand byte that it uses, be that the output or the input
    behind the last address of a band. The step fetches as many bytes as the line has (`fetches`)
    and executes the instruction with P behind them; P stays there unless the instruction moves it
    (`destination`). And the one trace record of the step (`Journal.traces`) says P and the same
    text. -/
theorem step_runs_listed (m : Machine Memory) (o : σ) (hm : m.state = .running)
    (hp : isRam m.bank.p = true) :
    let p := m.bank.p
    let line := (m.disassembleAt p).1
    let i := decode (m.readByte p).1
    let x := if i.hasOperand then (m.readByte (p + 1)).1 else 0
    let dispatched := (m.fetches line.size).2.note (.executed p i x)
    (m.step o).value = some i ∧ line.text = i.text x ∧
      (m.fetches line.size).1 = i.opcode :: (if i.hasOperand then [x] else []) ∧
      dispatched.bank = { m.bank with p := p + line.size.toUInt8 } ∧
      (m.step o).machine.withLedger m.ledger = dispatched.execute i x ∧
      (∃ action, i.action = .ok action ∧
        (m.step o).machine.bank.p =
          (dispatched.destination action x).getD (p + line.size.toUInt8)) ∧
      (m.step o).machine.journal.traces =
        m.journal.traces ++ (if m.journal.keeps .trace then [.executed p i x] else []) ∧
      (Entry.executed p i x).text = octal p ++ ": " ++ line.text := by
  intro p line i x dispatched
  obtain ⟨action, haction⟩ := Instruction.exists_action_decode (m.readByte p).1
  have hregisters := Instruction.registers_action_decode _ haction
  obtain ⟨hopcode, hfetched⟩ := fetchAll_of_isRam hp
  have hline : line = { text := i.text x, size := i.size } := by
    show (m.disassembleAt p).1 = _
    rw [disassembleAt_eq, Register.ofAddress?_of_isRam hp]
  have hbytes := fetches_of_isRam hp
  have hsize : line.size = i.size := by rw [hline]
  have hdispatched : m.fetchAll = (x, dispatched) := by
    rw [hfetched, ← hsize]
  -- So the step dispatches the instruction that is listed.
  have hexecuted : m.executeNext = (i, dispatched.execute i x) := by
    have hexecute : m.executeNext =
        (decode m.fetch.1, m.fetchAll.2.execute (decode m.fetch.1) m.fetchAll.1) := rfl
    rw [hexecute, hdispatched, hopcode]
  have hbank : dispatched.bank = { m.bank with p := p + line.size.toUInt8 } := by
    show (m.fetches line.size).2.bank = _
    rw [hsize, hbytes]
    rfl
  -- Only this has to be looked into for P and the journal.
  have hperformed : dispatched.execute i x = dispatched.perform action x := by
    rw [execute, haction]
  refine ⟨?_, ?_, ?_, hbank, ?_, ⟨action, haction, ?_⟩, ?_, ?_⟩
  · rw [step_of_running hm, hexecuted]
  · rw [hline]
  · rw [hsize, hbytes]
  · have hledger : m.executeNext.2.ledger = m.ledger := m.ledger_executeNext
    rw [hexecuted] at hledger
    rw [step_of_running hm, hexecuted, ← hledger]
    rfl
  · rw [step_of_running hm, hexecuted]
    show (dispatched.execute i x).bank.p = _
    rw [hperformed, dispatched.p_perform hregisters, hbank]
  · rw [step_of_running hm, hexecuted]
    show (dispatched.execute i x).journal.traces = _
    rw [hperformed, traces_perform]
    show ((m.fetches line.size).2.journal.note (.executed p i x)).traces = _
    rw [Journal.traces_note rfl, hsize, hbytes]
    rfl
  · rw [hline]
    rfl

/-- A load at the last address of memory, which has the input as its operand byte. -/
theorem step_runs_listed_input :
    let m : Machine Memory :=
      { Machine.fresh with
        bank := { p := 0o376, input := 7 }
        bus := Memory.zero.write 0o376 0o023
        journal := { detail := some .trace } }
    m.state = .running ∧ isRam m.bank.p = true ∧
      (m.step ()).value = some (decode 0o023) ∧
      (m.disassembleAt m.bank.p).1.text = (decode 0o023).text 7 ∧
      (m.step ()).machine.journal.traces = [.executed 0o376 (decode 0o023) 7] := by
  intro m
  have hopcode : (m.readByte m.bank.p).1 = 0o023 := by decide +kernel
  have hoperand : (m.readByte (m.bank.p + 1)).1 = 7 := rfl
  obtain ⟨hvalue, htext, -, -, -, -, htraces, -⟩ := step_runs_listed m () rfl rfl
  rw [hopcode, hoperand] at htext htraces
  rw [hopcode] at hvalue
  exact ⟨rfl, rfl, hvalue, htext, htraces⟩

end Machine
end Kenbak1
