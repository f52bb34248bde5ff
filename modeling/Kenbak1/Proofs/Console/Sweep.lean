/-
  Kenbak1.Proofs.Console.Sweep

  The shape of the window around P. It is one sweep (`windowFrom`): `rowsBelow_eq` has each row
  begin behind the line of the row above, and as every line takes a byte (`lt_behind`) and none goes
  beyond the last address (`behind_le`), the addresses only grow. A sweep has as many rows as were
  asked for, unless it comes to the end of memory first (`length_windowFrom`).
-/
import Kenbak1.Proofs.Console.Window
import Mathlib.Data.List.Chain

namespace Kenbak1

namespace Machine

variable (m : Machine Memory)

/-! ## One line -/

/-- The address behind the line at an address; behind the last line it is the size of memory. -/
def behind (a : UInt8) : Nat :=
  a.toNat + (m.disassembleAt a).1.size

/-- A line takes a byte at least. -/
theorem lt_behind (a : UInt8) : a.toNat < m.behind a := by
  have hsize := m.size_disassembleAt a
  unfold behind
  split at hsize <;> omega

/-- No line goes beyond the last address, which is a register's. -/
theorem behind_le (a : UInt8) : m.behind a ≤ memorySize := by
  have hlt := a.toNat_lt
  have hsize := m.size_disassembleAt a
  unfold behind memorySize
  by_cases hlast : a = 0o377
  · subst hlast
    have hregister : (m.disassembleAt 0o377).1.size = 1 := by rw [disassembleAt_eq]; rfl
    rw [hregister]
    decide
  · have hne : a.toNat ≠ 0o377 := fun e => hlast (UInt8.toNat_inj.mp e)
    split at hsize <;> omega

/-! ## The rows of a sweep -/

/-- A sweep goes on `behind` a line, unless that is the end of memory. -/
theorem rowsBelow_eq (count : Nat) (a : UInt8) :
    m.rowsBelow count a = [] ∧ m.behind a = memorySize ∨
      ∃ b : UInt8, b.toNat = m.behind a ∧ m.rowsBelow count a = (windowFrom count b m).1 := by
  have hle := m.behind_le a
  unfold rowsBelow
  by_cases hroom : a.toNat + (m.disassembleAt a).1.size < memorySize
  · rw [if_pos hroom]
    exact .inr ⟨_, toNat_add_of_lt hroom, rfl⟩
  · rw [if_neg hroom]
    unfold behind at hle ⊢
    exact .inl ⟨rfl, by omega⟩

/-- A sweep begins where it is told to. -/
theorem address_head?_windowFrom {count : Nat} {a : UInt8} :
    ∀ row ∈ (windowFrom count a m).1.head?, row.address = a := by
  cases count with
  | zero =>
    intro row hrow
    cases hrow
  | succ count =>
    rw [windowFrom_succ]
    rintro row ⟨⟩
    rfl

/-- Each row is the row at its own address. -/
theorem eq_rowAt_of_mem_windowFrom {count : Nat} {a : UInt8} {row : WindowRow}
    (h : row ∈ (windowFrom count a m).1) : row = m.rowAt row.address := by
  induction count generalizing a with
  | zero => cases h
  | succ count ih =>
    rw [windowFrom_succ] at h
    rcases List.mem_cons.mp h with rfl | h
    · rfl
    · rcases m.rowsBelow_eq count a with ⟨hnone, -⟩ | ⟨b, -, hbelow⟩
      · rw [hnone] at h
        cases h
      · rw [hbelow] at h
        exact ih h

/-- Rows stand one behind the other. -/
theorem isChain_windowFrom (count : Nat) (a : UInt8) :
    (windowFrom count a m).1.IsChain fun row below =>
      below.address.toNat = m.behind row.address := by
  induction count generalizing a with
  | zero => exact .nil
  | succ count ih =>
    rw [windowFrom_succ, List.isChain_cons]
    rcases m.rowsBelow_eq count a with ⟨hnone, -⟩ | ⟨b, hb, hbelow⟩
    · rw [hnone]
      exact ⟨by simp, .nil⟩
    · rw [hbelow]
      refine ⟨fun below hfirst => ?_, ih b⟩
      rw [m.address_head?_windowFrom below hfirst, hb]
      rfl

/-- A sweep `windowFrom` an address that is shorter than asked for ends with the end of memory. -/
theorem length_windowFrom (count : Nat) (a : UInt8) :
    (windowFrom count a m).1.length = count ∨
      (windowFrom count a m).1.length < count ∧
        ∃ row ∈ (windowFrom count a m).1.getLast?, m.behind row.address = memorySize := by
  -- The induction is on the rows asked for; the first of them is there in any case.
  induction count generalizing a with
  | zero => exact .inl rfl
  | succ count ih =>
    rw [windowFrom_succ, List.length_cons]
    rcases m.rowsBelow_eq count a with ⟨hnone, hend⟩ | ⟨b, -, hbelow⟩
    · rw [hnone]
      cases count with
      | zero => exact .inl rfl
      | succ count => exact .inr ⟨by simp, m.rowAt a, rfl, hend⟩
    · rw [hbelow]
      rcases ih b with hall | ⟨hsome, row, hlast, hend⟩
      · exact .inl (congrArg (· + 1) hall)
      · refine .inr ⟨Nat.succ_lt_succ hsome, row, ?_, hend⟩
        rw [List.getLast?_cons, Option.mem_def.mp hlast]
        rfl

/-- Rows that stand one behind the other have growing addresses. -/
theorem pairwise_of_isChain {rows : List WindowRow}
    (h : rows.IsChain fun row below => below.address.toNat = m.behind row.address) :
    rows.Pairwise fun row below => row.address.toNat < below.address.toNat := by
  have hgrows : rows.IsChain fun row below => row.address.toNat < below.address.toNat :=
    h.imp fun row below hnext => by
      rw [hnext]
      exact m.lt_behind row.address
  have : IsTrans WindowRow fun row below => row.address.toNat < below.address.toNat :=
    ⟨fun _ _ _ => Nat.lt_trans⟩
  exact List.isChain_iff_pairwise.mp hgrows

end Machine

namespace Console

/-- The `window` around P is a sweep from line to line. It begins a quarter of its lines before P,
    as far as there are addresses. Each row begins `behind` the line of the row above, the addresses
    grow, and no line goes beyond the last address. There are as many rows as were asked for, unless
    the sweep comes to the end of memory first; then the last row has the last address in it. Each
    row shows the line at its address (`disassembleAt`), is marked exactly if P stands there, and
    looking changes nothing. -/
theorem window_sweeps (c : Console) {lines : Nat} (hbound : lines < 1024) :
    let m := c.panel.machine
    let p := m.bank.p
    let rows := (c.window lines).1
    (∀ row ∈ rows.head?, row.address.toNat = p.toNat - min p.toNat (lines / 4)) ∧
      (rows.IsChain fun row below => below.address.toNat = m.behind row.address) ∧
      (rows.Pairwise fun row below => row.address.toNat < below.address.toNat) ∧
      (∀ row ∈ rows, m.behind row.address ≤ memorySize) ∧
      (rows.length = lines ∨
        rows.length < lines ∧ ∃ row ∈ rows.getLast?,
          row.address.toNat ≤ 0o377 ∧ 0o377 < m.behind row.address) ∧
      (∀ row ∈ rows,
        row.text = (m.disassembleAt row.address).1.text ∧ (row.current ↔ row.address = p)) ∧
      (c.window lines).2 = c := by
  intro m p rows
  have hchain := m.isChain_windowFrom lines (Machine.windowStart p lines)
  refine ⟨?_, hchain, m.pairwise_of_isChain hchain, fun row _ => m.behind_le row.address, ?_, ?_,
    c.window_eq lines⟩
  · intro row hrow
    have hstart := toNat_windowStart (p := p) hbound
    have haddress : row.address = Machine.windowStart p lines := m.address_head?_windowFrom row hrow
    rw [haddress]
    omega
  · rcases m.length_windowFrom lines (Machine.windowStart p lines) with hall | ⟨hsome, row, hlast, hend⟩
    · exact .inl hall
    · refine .inr ⟨hsome, row, hlast, Nat.le_of_lt_succ row.address.toNat_lt, ?_⟩
      rw [hend]
      decide
  · intro row hrow
    have hat := m.eq_rowAt_of_mem_windowFrom hrow
    refine ⟨congrArg WindowRow.text hat, ?_⟩
    have hcurrent : row.current = decide (row.address = p) := congrArg WindowRow.current hat
    rw [hcurrent, decide_eq_true_iff]

/-- A window of eight lines around the last address: a line of two bytes before it, and the line of
    the input, where the sweep ends. -/
theorem window_sweeps_to_end :
    let c : Console :=
      { panel :=
          { machine :=
              { Machine.fresh with bank := { p := 0o377 }, bus := Memory.zero.write 0o375 0o023 }
            lamps := {} }
        program := {}, config := {} }
    8 < 1024 ∧ (c.window 8).1.map (·.address) = [0o375, 0o377] ∧
      (∃ row ∈ (c.window 8).1.getLast?,
        row.address.toNat ≤ 0o377 ∧ 0o377 < c.panel.machine.behind row.address) ∧
      (c.window 8).2 = c := by
  intro c
  have hrows : (c.window 8).1.map (·.address) = [0o375, 0o377] := by decide +kernel
  obtain ⟨-, -, -, -, hlength, -, hsame⟩ := @window_sweeps c 8 (by decide)
  have htwo : (c.window 8).1.length = 2 := by
    rw [← List.length_map, hrows]
    rfl
  refine ⟨by decide, hrows, ?_, hsame⟩
  rcases hlength with hall | ⟨-, hend⟩
  · rw [htwo] at hall
    cases hall
  · exact hend

end Console
end Kenbak1
