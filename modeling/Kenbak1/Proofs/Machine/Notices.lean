/-
  Kenbak1.Proofs.Machine.Notices

  What a machine says. Each instruction is followed by two notices, of the output register and of
  the halt flag (`notices`), and a halt flag set from outside by one; nothing else is ever said. So
  the notices of a run are those of the states that its instructions leave, one after another
  (`said`), whoever takes them: `Reports` says this of a run, and `observer_serveAll` of all
  requests.
-/
import Kenbak1.Proofs.Flat.Refinement

namespace Kenbak1

/-! ## Notices one after another -/

/-- A recorder keeps all that it is told. -/
theorem Recorder.toList_foldl_notify (notices : List Notice) (r : Recorder) :
    (notices.foldl Observer.notify r).notices.toList = r.notices.toList ++ notices := by
  induction notices generalizing r with
  | nil => rw [List.foldl_nil, List.append_nil]
  | cons notice rest ih =>
    have hfirst : (Observer.notify r notice).notices.toList = r.notices.toList ++ [notice] :=
      Array.toList_push
    rw [List.foldl_cons, ih, hfirst, List.append_assoc, List.singleton_append]

/-- Notices reach the data lamps and the run lamp, and no others. -/
theorem Lamps.exists_foldl_notify (notices : List Notice) (lamps : Lamps) :
    ∃ data run, notices.foldl Observer.notify lamps = { lamps with data, run } := by
  induction notices generalizing lamps with
  | nil => exact ⟨lamps.data, lamps.run, rfl⟩
  | cons notice rest ih =>
    obtain ⟨data, run, hrest⟩ := ih (Observer.notify lamps notice)
    refine ⟨data, run, ?_⟩
    rw [List.foldl_cons, hrest]
    cases notice <;> rfl

namespace Machine

variable {β σ : Type} [Bus β] [Observer σ]

/-! ## The notices of instructions -/

/-- The notices of a machine in a state: what its output register holds, and whether it
    stands. -/
def notices (m : Machine β) : List Notice :=
  [.out m.bank.out, .halt m.isHalted]

/-- What a machine says in a number of instructions: the notices of the states behind them. -/
def said (m : Machine β) (count : Nat) : List Notice :=
  (List.range count).flatMap fun i => (m.after (i + 1)).notices

theorem said_add (m : Machine β) (k l : Nat) :
    m.said (k + l) = m.said k ++ (m.after k).said l := by
  have hlater : ∀ i, (m.after (k + i + 1)).notices = ((m.after k).after (i + 1)).notices := by
    intro i
    rw [← after_add, Nat.add_assoc]
  unfold said
  rw [List.range_add, List.flatMap_append, List.flatMap_map]
  simp only [hlater]

theorem said_succ (m : Machine β) (k : Nat) :
    m.said (k + 1) = m.said k ++ (m.after (k + 1)).notices := by
  have hone : (m.after k).said 1 = (m.after (k + 1)).notices := by
    rw [after_succ_eq_next]
    exact List.append_nil _
  rw [said_add, hone]

theorem length_said (m : Machine β) (k : Nat) : (m.said k).length = 2 * k := by
  induction k with
  | zero => rfl
  | succ k ih =>
    rw [said_succ, List.length_append, ih]
    rfl

/-- The cycles left are not told. -/
theorem said_congr {m k : Machine β} (h : m.withBudget 0 = k.withBudget 0) (count : Nat) :
    m.said count = k.said count := by
  have hsame : ∀ n, (m.after n).notices = (k.after n).notices := by
    intro n
    have hm := (steps_withBudget m 0 n ()).1
    have hk := (steps_withBudget k 0 n ()).1
    rw [h] at hm
    have hnotices := congrArg notices (hm.symm.trans hk)
    exact hnotices
  unfold said
  simp only [hsame]

/-- A machine comes from another by a number of instructions, and the observer was told what
    they say. -/
structure Reports (m : Machine β) (o : σ) (m' : Machine β) (o' : σ) (count : Nat) : Prop where
  runs : ∀ i < count, (m.after i).state = .running
  same : m'.withBudget 0 = (m.after count).withBudget 0
  told : o' = (m.said count).foldl Observer.notify o

namespace Reports

variable {m m' m'' : Machine β} {o o' o'' : σ} {k l : Nat}

/-- No instructions, whatever is done to the cycles left. -/
theorem none (m : Machine β) (b : Int) (o : σ) : Reports m o (m.withBudget b) o 0 where
  runs i hi := absurd hi (Nat.not_lt_zero i)
  same := rfl
  told := rfl

theorem trans (h : Reports m o m' o' k) (h' : Reports m' o' m'' o'' l) :
    Reports m o m'' o'' (k + l) := by
  -- The steps from `m'` are those behind the first `k`, but for the cycles left.
  have hsteps : ∀ n, (m'.after n).withBudget 0 = (m.after (k + n)).withBudget 0 := by
    intro n
    have hfirst := (steps_withBudget m' 0 n ()).1
    have hsecond := (steps_withBudget (m.after k) 0 n ()).1
    rw [h.same] at hfirst
    rw [after_add, ← hsecond, hfirst]
  refine ⟨fun i hi => ?_, h'.same.trans (hsteps l), ?_⟩
  · rcases Nat.lt_or_ge i k with hlt | hge
    · exact h.runs i hlt
    · obtain ⟨j, rfl⟩ := Nat.exists_eq_add_of_le hge
      have hj := h'.runs j (by omega)
      rwa [state_eq_of_withBudget (hsteps j)] at hj
  · rw [said_add, List.foldl_append, ← h.told, ← said_congr h.same]
    exact h'.told

theorem count (h : Reports m o m' o' k) : m'.executed = m.executed + k := by
  rw [executed_eq_of_withBudget h.same]
  exact executed_after_of_running h.runs

theorem executes (h : Reports m o m' o' k) : m.Executes m' k := by
  have hbank := congrArg Machine.bank h.same
  have hbus := congrArg Machine.bus h.same
  exact ⟨h.runs, hbank, hbus, h.count⟩

/-- Only the last notice can tell that the machine stands. -/
theorem goes_on (h : Reports m o m' o' k) :
    ∀ notice ∈ (m.said k).dropLast, notice ≠ .halt true := by
  cases k with
  | zero => exact fun _ hmem => absurd hmem List.not_mem_nil
  | succ k =>
    have hlast : (m.said (k + 1)).dropLast
        = (List.range k).flatMap (fun i => (m.after (i + 1)).notices)
          ++ [.out (m.after (k + 1)).bank.out] := by
      rw [said_succ, notices, List.dropLast_append_of_ne_nil (by simp)]
      rfl
    intro notice hmem
    rw [hlast, List.mem_append, List.mem_flatMap, List.mem_singleton] at hmem
    rcases hmem with ⟨i, hi, hmem⟩ | rfl
    · -- Behind each of the other instructions another one follows.
      have hruns := h.runs (i + 1) (Nat.succ_lt_succ (List.mem_range.mp hi))
      rintro rfl
      simp [notices, isHalted, hruns] at hmem
    · simp

/-- The lamps show the last state that they were told of. -/
theorem lamps {before after : Lamps} (h : Reports m before m' after k) :
    after = if k = 0 then before
      else { before with data := m'.bank.out, run := !m'.isHalted } := by
  rw [h.told]
  cases k with
  | zero => rfl
  | succ k =>
    obtain ⟨data, run, hearlier⟩ := Lamps.exists_foldl_notify (m.said k) before
    have hnotices : m'.notices = (m.after (k + 1)).notices := by
      have hsame := congrArg notices h.same
      exact hsame
    rw [said_succ, List.foldl_append, hearlier, ← hnotices, if_neg k.succ_ne_zero]
    rfl

end Reports

/-! ## Runs -/

/-- A step says what the instruction says that it executes. -/
theorem reports_step (m : Machine β) (o : σ) :
    Reports m o (m.step o).machine (m.step o).observer (if m.state = .running then 1 else 0) := by
  cases h : m.state with
  | halted =>
    rw [step_of_halted h]
    exact .none m 0 o
  | running =>
    have hnext := (step_unwatched m o).2
    refine ⟨fun i hi => ?_, congrArg (·.withBudget 0) hnext, ?_⟩
    · obtain rfl : i = 0 := by simpa using hi
      exact h
    · have hsaid : m.said 1 = m.next.notices := List.append_nil _
      rw [if_pos rfl, hsaid, next_of_running h, step_of_running h]
      rfl

theorem exists_reports_spend (bound : Nat) (m : Machine β) (o : σ) :
    ∃ count, Reports m o (spend bound m o).1 (spend bound m o).2 count := by
  -- The induction is on the bound; each step comes before the rest of the burst.
  induction bound generalizing m o with
  | zero => exact ⟨0, .none m m.budget o⟩
  | succ bound ih =>
    have hfirst := reports_step m o
    rw [spend_succ]
    split
    · exact ⟨_, hfirst⟩
    · obtain ⟨count, hrest⟩ := ih (m.step o).machine (m.step o).observer
      exact ⟨_, hfirst.trans hrest⟩

/-- A `run` says what the instructions say that it counts. -/
theorem reports_run (m : Machine β) (budget : Int) (o : σ) :
    Reports m o (m.run budget o).machine (m.run budget o).observer (m.run budget o).value := by
  obtain ⟨count, hspend⟩ := exists_reports_spend (stepBound m.cost budget) (m.withBudget budget) o
  have hrun : Reports m o (m.run budget o).machine (m.run budget o).observer (0 + count) :=
    (Reports.none m budget o).trans hspend
  have hvalue : (m.run budget o).value = 0 + count := by
    show (m.run budget o).machine.executed - m.executed = 0 + count
    rw [hrun.count, Nat.add_sub_cancel_left]
  rw [hvalue]
  exact hrun

theorem exists_reports_bursts (burst : Int) (limit rounds executed : Nat) (m : Machine β) (o : σ) :
    ∃ count, (bursts burst limit rounds executed m o).value = executed + count ∧
      Reports m o (bursts burst limit rounds executed m o).machine
        (bursts burst limit rounds executed m o).observer count := by
  induction rounds generalizing executed m o with
  | zero => exact ⟨0, rfl, .none m m.budget o⟩
  | succ rounds ih =>
    have hfirst := reports_run m (nextBudget m.cost burst (limit - executed)) o
    rw [bursts_succ]
    dsimp only
    split
    · obtain ⟨count, hvalue, hrest⟩ := ih _ _ _
      exact ⟨_, by rw [hvalue, Nat.add_assoc], hfirst.trans hrest⟩
    · exact ⟨0, rfl, .none m m.budget o⟩

/-- `runBursts` says what the instructions say that it counts. -/
theorem reports_runBursts (m : Machine β) (burst : Int) (limit : Nat) (o : σ) :
    Reports m o (m.runBursts burst limit o).machine (m.runBursts burst limit o).observer
      (m.runBursts burst limit o).value := by
  obtain ⟨count, hvalue, hreports⟩ := exists_reports_bursts burst limit limit 0 m o
  have hcount : (m.runBursts burst limit o).value = count := hvalue.trans (Nat.zero_add count)
  rw [hcount]
  exact hreports

/-! ## Requests -/

/-- What a machine says when it answers a request. -/
def saidBy (m : Machine β) : Request → List Notice
  | .step => m.said (if m.state = .running then 1 else 0)
  | .run budget => m.said (m.run budget ()).value
  | .runBursts burst limit => m.said (m.runBursts burst limit ()).value
  | .setHalt halt => [.halt halt]
  | _ => []

/-- What a machine says when it answers requests one after another. -/
def saidByAll (m : Machine β) : List Request → List Notice
  | [] => []
  | request :: rest => m.saidBy request ++ (m.serve () request).machine.saidByAll rest

theorem observer_serve (m : Machine β) (o : σ) (request : Request) :
    (m.serve o request).observer = (m.saidBy request).foldl Observer.notify o := by
  cases request with
  | step => exact (reports_step m o).told
  | run budget =>
    have htold := (reports_run m budget o).told
    rw [(run_unwatched m budget o).1] at htold
    exact htold
  | runBursts burst limit =>
    have htold := (reports_runBursts m burst limit o).told
    have hvalue := (bursts_unwatched burst limit limit 0 m o).1
    rw [runBursts, hvalue] at htold
    exact htold
  | setHalt | reset | setInputBit | clearInput | latchInput | showLatch | storeInput
  | showLatched | readByte | writeByte | readOperand | writeOperand | jumpTarget => rfl

theorem observer_serveAll (m : Machine β) (o : σ) (requests : List Request) :
    (m.serveAll o requests).observer = (m.saidByAll requests).foldl Observer.notify o := by
  induction requests generalizing m o with
  | nil => rfl
  | cons request rest ih =>
    have hmachine := (serve_unwatched m o request).2
    have hfirst := observer_serve m o request
    rw [serveAll, saidByAll, List.foldl_append, ← hfirst, ← hmachine]
    exact ih _ _

/-- Runs and bursts up to a limit, which are the requests that are answered with a count. -/
theorem reports_of_count {m : Machine β} {o : σ} {request : Request} {count : Nat}
    (h : (m.serve o request).value = .count count) :
    m.saidBy request = m.said count ∧
      Reports m o (m.serve o request).machine (m.serve o request).observer count := by
  cases request with
  | run budget =>
    obtain rfl : (m.run budget o).value = count := Reply.count.inj h
    have hvalue := (run_unwatched m budget o).1
    exact ⟨by rw [saidBy, hvalue], reports_run m budget o⟩
  | runBursts burst limit =>
    obtain rfl : (m.runBursts burst limit o).value = count := Reply.count.inj h
    have hvalue := (bursts_unwatched burst limit limit 0 m o).1
    exact ⟨by rw [saidBy, runBursts, runBursts, hvalue], reports_runBursts m burst limit o⟩
  | step | setHalt | reset | setInputBit | clearInput | latchInput | showLatch | storeInput
  | showLatched | readByte | writeByte | readOperand | writeOperand | jumpTarget => cases h

/-- The notices of any requests. Whoever watches is told what the requests say (`saidByAll`), one
    after another, and a `Recorder` keeps just that. A run or bursts that return a count have
    executed that many instructions and say twice as many notices, of the states behind each of them
    (`said`); none but the last tells that the machine stands. `Lamps` that are told of an
    instruction show the output and the run state behind the last, and all other lamps stay. -/
theorem notices_exact (m : Machine β) (requests : List Request) :
    (∀ o : σ, (m.serveAll o requests).observer
      = (m.saidByAll requests).foldl Observer.notify o) ∧
    (∀ r : Recorder, (m.serveAll r requests).observer.notices.toList
      = r.notices.toList ++ m.saidByAll requests) ∧
    (∀ (o : σ) (request : Request) (count : Nat), (m.serve o request).value = .count count →
      m.Executes (m.serve o request).machine count ∧
      m.saidBy request = m.said count ∧ (m.said count).length = 2 * count ∧
      ∀ notice ∈ (m.said count).dropLast, notice ≠ .halt true) ∧
    (∀ (lamps : Lamps) (request : Request) (count : Nat),
      (m.serve lamps request).value = .count count →
      (m.serve lamps request).observer =
        if count = 0 then lamps
        else
          { lamps with
            data := (m.serve lamps request).machine.bank.out
            run := !(m.serve lamps request).machine.isHalted }) := by
  refine ⟨fun o => observer_serveAll m o requests, fun r => ?_, fun o request count h => ?_,
    fun lamps request count h => (reports_of_count h).2.lamps⟩
  · rw [observer_serveAll, Recorder.toList_foldl_notify]
  · obtain ⟨hsaid, hreports⟩ := reports_of_count h
    exact ⟨hreports.executes, hsaid, length_said m count, hreports.goes_on⟩

/-- A no-operation and a halt, between a start and a stop from outside. -/
theorem notices_exact_noop_halt :
    let m : Machine Memory :=
      { Machine.fresh with bank := { p := 4 }, bus := Memory.zero.write 4 0o200 }
    let requests : List Request := [.setHalt false, .runBursts 2000 10, .step, .setHalt true]
    (m.serve () (.runBursts 2000 10)).value = .count 2 ∧
      (m.said 2).length = 4 ∧
      (m.serveAll ({} : Recorder) requests).observer.notices.toList
        = [.halt false, .out 0, .halt false, .out 0, .halt true, .halt true] := by
  intro m requests
  have hcount : (m.serve () (.runBursts 2000 10)).value = .count 2 := by decide +kernel
  obtain ⟨-, hrecorder, hruns, -⟩ := notices_exact (σ := Unit) m requests
  obtain ⟨-, -, hlength, -⟩ := hruns () (.runBursts 2000 10) 2 hcount
  refine ⟨hcount, hlength, ?_⟩
  rw [hrecorder]
  decide +kernel

end Machine
end Kenbak1
