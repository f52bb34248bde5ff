/-
  Kenbak1.Proofs.Console.Window

  Where the window around P shows P. The window begins at `windowStart`, some bytes before P, and
  goes from line to line, so it comes to P only if no line of two bytes (`isWide`) swallows it.
  Behind a line of one byte any sweep comes to the next address; so what matters is `wideBefore`,
  the number of addresses directly before P at which lines of two bytes stand. A sweep takes them in
  pairs, and it comes to P exactly if their number is even (`filter_windowFrom`).
-/
import Kenbak1.Proofs.Console.Panel
import Mathlib.Algebra.Ring.Parity

namespace Kenbak1

namespace Machine

variable (m : Machine Memory)

/-! ## Lines of one and of two bytes -/

/-- The line at an address takes two bytes. -/
def isWide (a : UInt8) : Bool :=
  (m.disassembleAt a).1.size = 2

theorem size_disassembleAt (a : UInt8) :
    (m.disassembleAt a).1.size = if m.isWide a then 2 else 1 := by
  have hsize : (m.disassembleAt a).1.size = 1 ∨ (m.disassembleAt a).1.size = 2 := by
    rw [disassembleAt_eq]
    cases Register.ofAddress? a with
    | some r => exact .inl rfl
    | none =>
      dsimp only [Instruction.size]
      split
      · exact .inr rfl
      · exact .inl rfl
  unfold isWide
  rcases hsize with h | h <;> simp [h]

/-- The number of addresses directly before `p`, counted back from it and at most `back`, at which
    lines of two bytes stand. -/
def wideBefore (back : Nat) (p : UInt8) : Nat :=
  ((List.range back).takeWhile fun i => m.isWide (p - (i + 1).toUInt8)).length

theorem wideBefore_le (back : Nat) (p : UInt8) : m.wideBefore back p ≤ back := by
  have hlength := (List.takeWhile_prefix (l := List.range back)
    (fun i => m.isWide (p - (i + 1).toUInt8))).length_le
  rwa [List.length_range] at hlength

theorem wideBefore_succ (back : Nat) (p : UInt8) :
    m.wideBefore (back + 1) p =
      if m.wideBefore back p = back ∧ m.isWide (p - (back + 1).toUInt8) then back + 1
      else m.wideBefore back p := by
  -- One more address counts only if all those nearer to `p` do.
  have hlast : (List.takeWhile (fun i => m.isWide (p - (i + 1).toUInt8)) [back]).length =
      if m.isWide (p - (back + 1).toUInt8) then 1 else 0 := by
    rw [List.takeWhile_cons]
    split <;> rfl
  unfold wideBefore
  rw [List.range_succ, List.takeWhile_append, List.length_range]
  split
  · next hall =>
    rw [List.length_append, List.length_range, hlast]
    split
    · next hwide => rw [if_pos ⟨hall, hwide⟩]
    · next hnarrow => rw [if_neg fun h => hnarrow h.2, hall, Nat.add_zero]
  · next hsome => rw [if_neg fun h => hsome h.1]

/-- A line of one byte ends the count. -/
theorem wideBefore_of_narrow {back : Nat} {p : UInt8}
    (h : m.isWide (p - (back + 1).toUInt8) = false) :
    m.wideBefore (back + 1) p = m.wideBefore back p := by
  rw [wideBefore_succ, if_neg (fun hwide => Bool.false_ne_true (h.symm.trans hwide.2))]

/-- The address behind a line of two bytes either counts together with the line, or ends the count
    before it. -/
theorem even_wideBefore_of_wide {back : Nat} {p : UInt8}
    (h : m.isWide (p - (back + 2).toUInt8) = true) :
    Even (m.wideBefore (back + 2) p) ↔ Even (m.wideBefore back p) := by
  by_cases hall : m.wideBefore back p = back ∧ m.isWide (p - (back + 1).toUInt8) = true
  · have hone : m.wideBefore (back + 1) p = back + 1 := by rw [wideBefore_succ, if_pos hall]
    have htwo : m.wideBefore (back + 2) p = back + 2 := by
      rw [wideBefore_succ, hone, if_pos ⟨rfl, h⟩]
    rw [htwo, hall.1, Nat.even_add_one, Nat.even_add_one, not_not]
  · -- The count ends before the line, so the line does not count either.
    have hone : m.wideBefore (back + 1) p = m.wideBefore back p := by
      rw [wideBefore_succ, if_neg hall]
    have hle := m.wideBefore_le back p
    have htwo : m.wideBefore (back + 2) p = m.wideBefore back p := by
      rw [wideBefore_succ, hone, if_neg (by omega)]
    rw [htwo]

/-- With a line of one byte directly before `p` there is nothing to count. -/
theorem wideBefore_eq_zero {p : UInt8} (h : (m.disassembleAt (p - 1)).1.size = 1) (back : Nat) :
    m.wideBefore back p = 0 := by
  induction back with
  | zero => rfl
  | succ back ih =>
    rw [wideBefore_succ, ih, if_neg]
    rintro ⟨rfl, hwide⟩
    have htwo : (m.disassembleAt (p - 1)).1.size = 2 := of_decide_eq_true hwide
    omega

/-! ## Sweeps -/

/-- The row of a window at an address. -/
def rowAt (a : UInt8) : WindowRow :=
  { address := a, text := (m.disassembleAt a).1.text, current := a = m.bank.p }

/-- The rows of a window below the one at an address. -/
def rowsBelow (count : Nat) (a : UInt8) : List WindowRow :=
  if a.toNat + (m.disassembleAt a).1.size < memorySize then
    (windowFrom count (a + (m.disassembleAt a).1.size.toUInt8) m).1
  else []

theorem windowFrom_succ (count : Nat) (a : UInt8) :
    (windowFrom (count + 1) a m).1 = m.rowAt a :: m.rowsBelow count a := by
  unfold rowsBelow
  rw [windowFrom, disassembleAt_plain]
  split <;> rfl

theorem current_rowAt_of_ne {a : UInt8} (h : a.toNat ≠ m.bank.p.toNat) :
    (m.rowAt a).current = false :=
  decide_eq_false fun hp => h (congrArg UInt8.toNat hp)

/-- An address is told by how far it is before another. -/
theorem sub_toUInt8_eq {a p : UInt8} {back : Nat} (h : a.toNat + back = p.toNat) :
    p - back.toUInt8 = a := by
  have hroom : a.toNat + back < memorySize := by
    rw [h]
    exact p.toNat_lt
  have hp : a + back.toUInt8 = p := by
    rw [← UInt8.toNat_inj, toNat_add_of_lt hroom, h]
  rw [← hp, UInt8.add_sub_cancel]

/-- A sweep that begins behind P does not show P. -/
theorem filter_windowFrom_behind (count : Nat) {a : UInt8} (h : m.bank.p.toNat < a.toNat) :
    (windowFrom count a m).1.filter (·.current) = [] := by
  -- The induction is on the rows; the sweep stays behind P.
  induction count generalizing a with
  | zero => rfl
  | succ count ih =>
    have hother := m.current_rowAt_of_ne (Nat.ne_of_gt h)
    rw [windowFrom_succ, List.filter_cons_of_neg (by simp [hother]), rowsBelow]
    split
    · next hroom => exact ih (by rw [toNat_add_of_lt hroom]; omega)
    · rfl

/-- Nor does one that a line takes over P. -/
theorem filter_rowsBelow_behind (count : Nat) {a : UInt8}
    (h : m.bank.p.toNat < a.toNat + (m.disassembleAt a).1.size) :
    (m.rowsBelow count a).filter (·.current) = [] := by
  unfold rowsBelow
  split
  · next hroom => exact m.filter_windowFrom_behind count (by rwa [toNat_add_of_lt hroom])
  · rfl

/-- A sweep `windowFrom` a number of addresses before P shows P in one row, or in none if the number
    of wide lines directly before P (`wideBefore`) is odd. -/
theorem filter_windowFrom {count back : Nat} {a : UInt8}
    (hback : a.toNat + back = m.bank.p.toNat) (hcount : back < count) :
    (windowFrom count a m).1.filter (·.current) =
      if Even (m.wideBefore back m.bank.p) then [m.rowAt m.bank.p] else [] := by
  have hp := m.bank.p.toNat_lt
  -- The induction is on the rows: each line brings the sweep one or two addresses nearer to P.
  induction count generalizing back a with
  | zero => omega
  | succ count ih =>
    have hsize := m.size_disassembleAt a
    -- The sweep goes on as long as a line ends before P.
    have hbelow : ∀ rest, a.toNat + (m.disassembleAt a).1.size + rest = m.bank.p.toNat →
        rest < count → (m.rowsBelow count a).filter (·.current) =
          if Even (m.wideBefore rest m.bank.p) then [m.rowAt m.bank.p] else [] := by
      intro rest hrest hrows
      have hroom : a.toNat + (m.disassembleAt a).1.size < memorySize := by
        unfold memorySize
        omega
      rw [rowsBelow, if_pos hroom]
      exact ih (by rw [toNat_add_of_lt hroom, hrest]) hrows
    have hstart := sub_toUInt8_eq hback
    rw [windowFrom_succ]
    match back with
    | 0 =>
      -- The sweep is at P, and what it comes to next is behind P.
      obtain rfl : a = m.bank.p := UInt8.toNat_inj.mp hback
      have hcurrent : (m.rowAt m.bank.p).current = true := decide_eq_true rfl
      have hbehind := m.filter_rowsBelow_behind count (a := m.bank.p) (by split at hsize <;> omega)
      rw [List.filter_cons_of_pos hcurrent, hbehind]
      rfl
    | rest + 1 =>
      have hother := m.current_rowAt_of_ne (a := a) (by omega)
      rw [List.filter_cons_of_neg (by simp [hother])]
      cases hwide : m.isWide a with
      | false =>
        rw [hwide, if_neg Bool.false_ne_true] at hsize
        rw [m.wideBefore_of_narrow (by rw [hstart, hwide])]
        exact hbelow rest (by omega) (by omega)
      | true =>
        rw [hwide, if_pos rfl] at hsize
        match rest with
        | 0 =>
          -- The line takes P along, as the only one before it.
          have hone : m.wideBefore 1 m.bank.p = 1 := by
            rw [wideBefore_succ, if_pos ⟨rfl, by rw [hstart, hwide]⟩]
          rw [hone, if_neg (by decide)]
          exact m.filter_rowsBelow_behind count (by omega)
        | rest + 1 =>
          rw [if_congr (m.even_wideBefore_of_wide (by rw [hstart, hwide])) rfl rfl]
          exact hbelow rest (by omega) (by omega)

end Machine

namespace Console

/-- The `windowStart` is a quarter of the lines before P, as far as there are addresses. -/
theorem toNat_windowStart {p : UInt8} {lines : Nat} (h : lines < 1024) :
    (Machine.windowStart p lines).toNat + min p.toNat (lines / 4) = p.toNat := by
  have hquarter : (lines / 4).toUInt8.toNat = lines / 4 := by
    rw [UInt8.toNat_ofNat']
    exact Nat.mod_eq_of_lt (by omega)
  have hmin : (min p (lines / 4).toUInt8).toNat = min p.toNat (lines / 4) := by
    show (if p ≤ (lines / 4).toUInt8 then p else (lines / 4).toUInt8).toNat = _
    rw [apply_ite UInt8.toNat, hquarter, Nat.min_def]
    exact if_congr (by rw [UInt8.le_iff_toNat_le, hquarter]) rfl rfl
  have hle : min p (lines / 4).toUInt8 ≤ p := by
    rw [UInt8.le_iff_toNat_le, hmin]
    exact Nat.min_le_left _ _
  rw [Machine.windowStart, UInt8.toNat_sub_of_le _ _ hle, hmin]
  exact Nat.sub_add_cancel (Nat.min_le_left _ _)

/-- The `window` shows P in one row, with the line that stands there, exactly if the number of wide
    lines directly before P (`wideBefore`), as far back as the window reaches, is even; else no row
    of it is marked. The number is even if the window does not reach back, if P is at the first
    address, and if the line directly before P takes one byte. -/
theorem window_shows_p_iff (c : Console) {lines : Nat} (hlines : 1 ≤ lines)
    (hbound : lines < 1024) :
    let m := c.panel.machine
    let p := m.bank.p
    let before := m.wideBefore (min p.toNat (lines / 4)) p
    ((c.window lines).1.filter (·.current) =
        [{ address := p, text := (m.disassembleAt p).1.text, current := true }] ↔ Even before) ∧
      (¬ Even before → (c.window lines).1.filter (·.current) = []) ∧
      (lines < 4 ∨ p = 0 ∨ (m.disassembleAt (p - 1)).1.size = 1 → Even before) := by
  intro m p before
  have hrow : m.rowAt p = { address := p, text := (m.disassembleAt p).1.text, current := true } := by
    simp [Machine.rowAt, p]
  have hfilter : (c.window lines).1.filter (·.current) = if Even before then [m.rowAt p] else [] :=
    m.filter_windowFrom (toNat_windowStart hbound) (by omega)
  rw [hfilter, ← hrow]
  refine ⟨?_, fun hodd => if_neg hodd, ?_⟩
  · split
    · next heven => exact iff_of_true rfl heven
    · next hodd => exact iff_of_false (by simp) hodd
  -- In each of the three cases nothing is counted, and zero is even.
  · have hnone : ∀ back, back = 0 → Even (m.wideBefore back p) := by
      rintro back rfl
      exact Even.zero
    rintro (hfew | hfirst | hnarrow)
    · exact hnone _ (by omega)
    · exact hnone _ (by rw [hfirst]; exact Nat.zero_min _)
    · have hzero : before = 0 := m.wideBefore_eq_zero hnarrow _
      rw [hzero]
      exact Even.zero

/-- A window that begins at a line of two bytes directly before P shows P behind it. -/
theorem window_shows_p_iff_load :
    let c : Console :=
      { panel :=
          { machine :=
              { Machine.fresh with
                bank := { p := 6 }, bus := (Memory.zero.write 4 0o023).write 5 7 }
            lamps := {} }
        program := {}, config := {} }
    1 ≤ 8 ∧ 8 < 1024 ∧
      (c.window 8).1.filter (·.current) =
        [{ address := 6, text := (c.panel.machine.disassembleAt 6).1.text, current := true }] := by
  intro c
  have heven : Even (c.panel.machine.wideBefore (min (6 : UInt8).toNat (8 / 4)) 6) := by
    decide +kernel
  exact ⟨by decide, by decide, (window_shows_p_iff c (by decide) (by decide)).1.mpr heven⟩

/-- The same program after a step, in a window of four lines: it begins at the operand byte of the
    instruction executed, where a line of two bytes takes P along. -/
theorem window_misses_p :
    let c := (new { cells := [(4, 0o023), (5, 7), (6, 0)] } {}).step
    c.panel.machine.bank.p = 6 ∧
      (c.window 4).1.map (fun row => (row.address, row.text, row.current)) =
        [(5, "add A (000), X", false), (7, "halt", false), (8, "halt", false),
          (9, "halt", false)] ∧
      ¬ ∀ (c : Console) (lines : Nat), 1 ≤ lines → lines < 1024 →
        (c.window lines).1.filter (·.current) =
          [{ address := c.panel.machine.bank.p
             text := (c.panel.machine.disassembleAt c.panel.machine.bank.p).1.text
             current := true }] := by
  intro c
  have hp : c.panel.machine.bank.p = 6 := by decide +kernel
  have hrows : (c.window 4).1.map (fun row => (row.address, row.text, row.current)) =
      [(5, "add A (000), X", false), (7, "halt", false), (8, "halt", false),
        (9, "halt", false)] := by
    decide +kernel
  refine ⟨hp, hrows, fun h => ?_⟩
  have hnone : (c.window 4).1.filter (·.current) = [] := by decide +kernel
  have hshown := h c 4 (by decide) (by decide)
  rw [hnone] at hshown
  cases hshown

end Console
end Kenbak1
