/-
  Kenbak1.Proofs.Console.MemoryPane

  What the memory pane shows of its rows. A row is an address and eight bytes, 36 characters
  (`memoryRowText`); `memoryPane_eq` finds its text on the screen, cut or filled up to the width
  that the two percentages and the sides of the box leave, 34 characters on a screen of 80 columns
  and 43 and more on a wider one. So `readMemoryRow?` reads the rows back from every screen except
  the one of 80 columns, where the last byte of each is cut off behind its first digit
  (`readMemoryRow?_take`).
-/
import Kenbak1.Console.View
import Kenbak1.Proofs.Console.Panel
import Kenbak1.Proofs.Image.RoundTrip
import Kenbak1.Proofs.Screen

namespace Kenbak1

/-! ## Reading a row back -/

/-- The byte of which a word is the complete numeral. -/
def completeByte? (word : List Char) : Option UInt8 :=
  match readOctal word with
  | .ok value => if octalDigits value = word then some value else none
  | .error _ => none

/-- Reads a row of memory: its address, and its eight bytes if all of them are complete. -/
def readMemoryRow? (text : List Char) : Option (UInt8 × List UInt8) := do
  let head := text.takeWhile (· ≠ ':')
  let base ← completeByte? head
  let bytes ← (words (text.drop (head.length + 1))).mapM completeByte?
  if bytes.length = 8 then some (base, bytes) else none

theorem completeByte?_octalDigits (b : UInt8) : completeByte? (octalDigits b) = some b := by
  simp [completeByte?, readOctal_octalDigits]

theorem completeByte?_eq_none {word : List Char} (h : word.length ≠ 3) :
    completeByte? word = none := by
  have hne : ∀ value, octalDigits value ≠ word := by
    rintro value rfl
    exact h (fixedDigits_length _ _ _)
  unfold completeByte?
  split
  · rw [if_neg (hne _)]
  · rfl

theorem mapM_completeByte? (bytes : List UInt8) :
    (bytes.map octalDigits).mapM completeByte? = some bytes := by
  induction bytes with
  | nil => rfl
  | cons b rest ih =>
    simp only [List.map_cons, List.mapM_cons, completeByte?_octalDigits, ih]
    rfl

namespace Image

variable {base : UInt8} {bytes : List UInt8}

theorem length_rowText (base : UInt8) (bytes : List UInt8) :
    (rowText base bytes).length = 4 + 4 * bytes.length := by
  simp only [rowText, List.length_append, List.length_cons, List.length_flatMap, octalDigits,
    fixedDigits_length, List.map_const', List.sum_replicate, smul_eq_mul]
  omega

/-- What stands behind the colon of a row of which the bytes, or some of them, are complete. -/
theorem readMemoryRow?_append (base : UInt8) (bytes : List UInt8) (rest : List Char) :
    readMemoryRow? (rowText base bytes ++ ' ' :: rest)
      = ((words rest).mapM completeByte?).bind fun others =>
          if (bytes ++ others).length = 8 then some (base, bytes ++ others) else none := by
  have hdigits : ∀ c ∈ octalDigits base, decide (c ≠ ':') = true := by
    intro c hc
    have hdigit := isOctalDigit_of_mem_octalDigits hc
    exact decide_eq_true fun e => absurd (e ▸ hdigit) (by decide)
  have hhead : (rowText base bytes ++ ' ' :: rest).takeWhile (· ≠ ':') = octalDigits base := by
    rw [rowText, List.append_assoc, List.takeWhile_append_of_pos hdigits, List.cons_append,
      List.takeWhile_cons_of_neg (by decide), List.append_nil]
  have htail : (rowText base bytes ++ ' ' :: rest).drop ((octalDigits base).length + 1)
      = (bytes.flatMap fun b => ' ' :: octalDigits b) ++ ' ' :: rest := by
    rw [rowText, List.append_assoc, ← List.drop_drop, List.drop_left]
    rfl
  simp only [readMemoryRow?, hhead, htail, completeByte?_octalDigits,
    words_append_cons (show isBlank ' ' = true by decide), words_rowText, List.mapM_append,
    mapM_completeByte?, bind, Option.bind, pure]
  cases (words rest).mapM completeByte? <;> rfl

/-- Eight complete bytes are read back, whatever blanks follow. -/
theorem readMemoryRow?_rowText (hlength : bytes.length = 8) {blanks : Nat} (hblanks : 0 < blanks) :
    readMemoryRow? (rowText base bytes ++ List.replicate blanks ' ') = some (base, bytes) := by
  have hwords : ∀ n, words (List.replicate n ' ') = [] := by
    intro n
    induction n with
    | zero => rfl
    | succ n ih => rw [List.replicate_succ, words_cons (by decide), ih]
  obtain ⟨n, rfl⟩ := Nat.exists_eq_add_of_lt hblanks
  rw [Nat.zero_add, List.replicate_succ, readMemoryRow?_append, hwords]
  simp [hlength]

/-- A row that ends with a part of a numeral is not read. -/
theorem readMemoryRow?_cut {word : List Char} (hne : word ≠ [])
    (hblank : ∀ c ∈ word, isBlank c = false) (hlength : word.length ≠ 3) :
    readMemoryRow? (rowText base bytes ++ ' ' :: word) = none := by
  rw [readMemoryRow?_append, words_eq_singleton hne hblank, List.mapM_cons,
    completeByte?_eq_none hlength]
  rfl

/-- A row cut off behind the first digit of its last byte. -/
theorem readMemoryRow?_take (hlength : bytes.length = 8) :
    readMemoryRow? ((rowText base bytes).take 34) = none := by
  obtain rfl | ⟨init, last, rfl⟩ := List.eq_nil_or_concat bytes
  · simp at hlength
  rw [List.concat_eq_append] at hlength ⊢
  have hinit : (rowText base init).length = 32 := by
    rw [List.length_append, List.length_singleton] at hlength
    rw [length_rowText]
    omega
  have hdigit : ((octalDigits last).take 1).length = 1 := by
    simp [octalDigits, fixedDigits_length]
  have hcut : (rowText base (init ++ [last])).take 34
      = rowText base init ++ ' ' :: (octalDigits last).take 1 := by
    rw [rowText_concat, List.take_append, hinit, List.take_of_length_le (by omega)]
    rfl
  rw [hcut]
  refine readMemoryRow?_cut ?_ (fun c hc => ?_) (by omega)
  · rw [← List.length_pos_iff]
    omega
  · exact isBlank_eq_false_of_mem_octalDigits (List.mem_of_mem_take hc)

end Image

namespace Console

open Picture

/-! ## The pane on the screen -/

/-- The characters of a row of the memory pane between its sides. -/
def memoryPane (c : Console) (width height i : Nat) : List Char :=
  let row := (c.draw width height).getD (5 + i) []
  ((row.drop (leftWidth width + 1)).take (width - leftWidth width - 2)).map (·.char)

theorem of_getElem?_memoryBases {scroll rows i base : Nat}
    (h : (memoryBases scroll rows)[i]? = some base) :
    i < rows ∧ base = scroll - scroll % 8 + i * 8 ∧ base < memorySize := by
  have hbound : base < memorySize := by
    simpa using List.mem_takeWhile_imp (List.mem_of_getElem? h)
  obtain ⟨hin, heq⟩ := List.getElem?_eq_some_iff.mp h
  have hprefix := List.takeWhile_prefix (· < memorySize)
    (l := (List.range rows).map fun i => scroll - scroll % 8 + i * 8)
  have hlength := hprefix.length_le
  rw [List.length_map, List.length_range] at hlength
  have hvalue := hprefix.getElem hin
  simp only [List.getElem_map, List.getElem_range] at hvalue
  exact ⟨by unfold memoryBases at hin; omega, by rw [← heq]; exact hvalue, hbound⟩

/-- The bytes of a row of memory. -/
def memoryRowBytes (c : Console) (base : Nat) : List UInt8 :=
  (memoryRowAddresses base).map fun a => (c.panel.machine.readByte a).1

theorem length_memoryRowBytes (c : Console) (base : Nat) : (c.memoryRowBytes base).length = 8 := by
  simp [memoryRowBytes, memoryRowAddresses]

theorem toList_memoryRowText (base : Nat) {bytes : List UInt8} (hne : bytes ≠ []) :
    (memoryRowText base bytes).toList = Image.rowText base.toUInt8 bytes := by
  obtain ⟨first, rest, rfl⟩ := List.exists_cons_of_ne_nil hne
  have hcolon : ": ".toList = [':', ' '] := by simp
  have hjoined : (joined " " (octal first :: rest.map octal)).toList = _ :=
    toList_joined (c := ' ') (by simp) _ _
  rw [memoryRowText, String.toList_append, String.toList_append, hcolon, List.map_cons, hjoined]
  simp [Image.rowText, octal, List.flatMap_map]

/-- The text of a row of memory on the screen. -/
theorem chars_fit_memoryRow (c : Console) (base width : Nat) :
    ((memoryRow c.panel.machine base).fit width).map (·.char)
      = fitTo width ' ' (Image.rowText base.toUInt8 (c.memoryRowBytes base)) := by
  have hne : c.memoryRowBytes base ≠ [] := by
    rw [← List.length_pos_iff, length_memoryRowBytes]
    omega
  rw [memoryRow, chars_fit_whole, Machine.readEach_eq_map]
  exact congrArg (fitTo width ' ') (toList_memoryRowText base hne)

section Columns

variable (c : Console) {width height : Nat}

theorem length_leftColumn (hhigh : 22 ≤ height) : (c.leftColumn width height).length = height - 4 := by
  rw [leftColumn, List.length_append, List.length_append, length_box (by omega),
    length_box (by omega), length_box (by omega)]
  omega

theorem length_rightColumn (hhigh : 22 ≤ height) :
    (c.rightColumn width height).length = height - 4 := by
  rw [rightColumn, List.length_append, length_box (by omega), length_box (by omega)]
  omega

theorem length_of_mem_leftColumn (hwide : 2 ≤ width) :
    ∀ cells ∈ c.leftColumn width height, cells.length = width := by
  intro cells hmem
  rw [leftColumn, List.mem_append, List.mem_append] at hmem
  rcases hmem with (hmem | hmem) | hmem
  all_goals exact length_of_mem_box hwide hmem

/-- The rows of memory stand in the `rightColumn` below the upper edge of their box. -/
theorem getElem?_rightColumn (width : Nat) (hhigh : 22 ≤ height) {i base : Nat}
    (hrow : (memoryBases c.scroll (height - 11))[i]? = some base) :
    (c.rightColumn width height)[i + 1]?
      = some (between width (.plain .magenta) (memoryRow c.panel.machine base)) := by
  obtain ⟨hi, -, -⟩ := of_getElem?_memoryBases hrow
  have hin : i + 1 < (box width (height - 9) (.plain .magenta) " Memory "
      (c.memoryRows (height - 11))).length := by
    rw [length_box (by omega)]
    omega
  have hshown : (c.memoryRows (height - 11)).getD i {} = memoryRow c.panel.machine base := by
    rw [memoryRows, List.getD_eq_getElem?_getD, List.getElem?_map, hrow]
    rfl
  rw [rightColumn, List.getElem?_append_left hin, getElem?_box (by omega), hshown]

end Columns

/-- `memoryPane` shows the text of a row, cut or filled up to its width (`fitTo`). -/
theorem memoryPane_eq {c : Console} {width height i base : Nat} (hwide : 2 ≤ leftWidth width)
    (hhigh : 22 ≤ height) (hrow : (memoryBases c.scroll (height - 11))[i]? = some base) :
    c.memoryPane width height i
      = fitTo (width - leftWidth width - 2) ' '
          (Image.rowText base.toUInt8 (c.memoryRowBytes base)) := by
  have htop : ∀ rows, (box width 4 (.plain .red) " Kenbak-1 " rows).length = 4 := fun rows =>
    length_box (by omega)
  have hleft : ∀ cells ∈ c.leftColumn (leftWidth width) height, cells.length = leftWidth width :=
    c.length_of_mem_leftColumn hwide
  obtain ⟨cells, hcells, hright⟩ := drop_getElem_beside hleft
    ((c.length_leftColumn hhigh).trans (c.length_rightColumn hhigh).symm)
    (c.getElem?_rightColumn (width - leftWidth width) hhigh hrow)
  have hdrawn : (c.draw width height).getD (5 + i) [] = cells := by
    rw [List.getD_eq_getElem?_getD, draw, List.getElem?_append_right (by rw [htop]; omega), htop,
      show 5 + i - 4 = i + 1 by omega, hcells, Option.getD_some]
  have hfit : ∀ row : TextRow, ∀ n, (row.fit n).length = n := fun row n => length_fitTo _ _ _
  simp only [memoryPane, hdrawn]
  rw [← List.drop_drop, hright, drop_one_between, List.take_left' (hfit _ _), chars_fit_memoryRow]

/-- The rows that `memoryPane` shows, on screens whose columns the two percentages divide exactly. A
    row is an address and the eight bytes from there on (`memoryRowText`, `memoryRowBytes`);
    `readMemoryRow?` reads it back from the screen unless the screen has 80 columns, where the last
    two of its characters are cut off. -/
theorem memoryPane_reads_iff {c : Console} {width height i base : Nat} (hwide : 80 ≤ width)
    (htwenty : 20 ∣ width) (hhigh : 22 ≤ height)
    (hrow : (memoryBases c.scroll (height - 11))[i]? = some base) :
    let text := c.memoryPane width height i
    let bytes := c.memoryRowBytes base
    text = fitTo (width * 45 / 100 - 2) ' ' (memoryRowText base bytes).toList ∧
      (readMemoryRow? text = some (base.toUInt8, bytes) ↔ width ≠ 80) ∧
      (width = 80 → readMemoryRow? text = none) := by
  intro text bytes
  have hlength : bytes.length = 8 := c.length_memoryRowBytes base
  have hrowLength : (Image.rowText base.toUInt8 bytes).length = 36 := by
    rw [Image.length_rowText, hlength]
  obtain ⟨k, rfl⟩ := htwenty
  have hleft : leftWidth (20 * k) = 11 * k := by
    unfold leftWidth
    omega
  have hright : 20 * k * 45 / 100 = 9 * k := by omega
  have hpane : text = fitTo (9 * k - 2) ' ' (Image.rowText base.toUInt8 bytes) := by
    rw [show 9 * k - 2 = 20 * k - leftWidth (20 * k) - 2 by omega]
    exact memoryPane_eq (by omega) hhigh hrow
  -- From 100 columns on there is room for the row, and for a blank behind it.
  have hwhole : 20 * k ≠ 80 → readMemoryRow? text = some (base.toUInt8, bytes) := by
    intro hne
    rw [hpane, fitTo_of_length_le ' ' (by omega)]
    exact Image.readMemoryRow?_rowText hlength (by omega)
  have hcut : 20 * k = 80 → readMemoryRow? text = none := by
    intro heq
    obtain rfl : k = 4 := by omega
    rw [hpane, fitTo, List.take_append_of_le_length (by omega)]
    exact Image.readMemoryRow?_take hlength
  refine ⟨?_, ⟨fun hread heq => ?_, hwhole⟩, hcut⟩
  · rw [hpane, hright, toList_memoryRowText base (List.ne_nil_of_length_eq_add_one hlength)]
  · rw [hcut heq] at hread
    cases hread

/-- The first row of a program of one byte on a screen of 100 columns. -/
theorem memoryPane_reads_iff_hundred :
    let c := Console.new { cells := [(0o004, 0o364)] } {}
    (80 ≤ 100 ∧ 20 ∣ 100 ∧ 22 ≤ 22 ∧ (memoryBases c.scroll (22 - 11))[0]? = some 0) ∧
      readMemoryRow? (c.memoryPane 100 22 0) = some (0, [0, 0, 0, 4, 0o364, 0, 0, 0]) := by
  intro c
  have hbytes : c.memoryRowBytes 0 = [0, 0, 0, 4, 0o364, 0, 0, 0] := by decide +kernel
  have hrow : (memoryBases c.scroll (22 - 11))[0]? = some 0 := by decide
  have hwide : 80 ≤ 100 := by omega
  have htwenty : 20 ∣ 100 := by omega
  have hhigh : 22 ≤ 22 := by omega
  obtain ⟨-, hread, -⟩ := memoryPane_reads_iff hwide htwenty hhigh hrow
  refine ⟨⟨hwide, htwenty, hhigh, hrow⟩, ?_⟩
  rw [hread.mpr (by omega), hbytes]
  rfl

/-- On 80 columns the byte at the end of a row is cut off: two programs that differ there look the
    same. -/
theorem memoryPane_eighty_cut :
    let c := Console.new { cells := [(0o007, 0o100)] } {}
    let other := Console.new { cells := [(0o007, 0o177)] } {}
    (memoryBases c.scroll (22 - 11))[0]? = some 0 ∧
      c.memoryPane 80 22 0 = "000: 000 000 000 007 000 000 000 1".toList ∧
      readMemoryRow? (c.memoryPane 80 22 0) ≠ some (0, c.memoryRowBytes 0) ∧
      other.memoryPane 80 22 0 = c.memoryPane 80 22 0 ∧
      other.memoryRowBytes 0 ≠ c.memoryRowBytes 0 := by
  intro c other
  have hbytes : c.memoryRowBytes 0 = [0, 0, 0, 7, 0, 0, 0, 0o100] := by decide +kernel
  have hother : other.memoryRowBytes 0 = [0, 0, 0, 7, 0, 0, 0, 0o177] := by decide +kernel
  have hrow : (memoryBases c.scroll (22 - 11))[0]? = some 0 := by decide
  -- Both rows are cut to the same 34 columns, inside their last byte.
  have hpane : ∀ console : Console, console.scroll = 0 → console.memoryPane 80 22 0
      = fitTo 34 ' ' (Image.rowText 0 (console.memoryRowBytes 0)) := by
    intro console hscroll
    have hfirst : (memoryBases console.scroll (22 - 11))[0]? = some 0 := by rw [hscroll]; exact hrow
    exact memoryPane_eq (by decide) (by omega) hfirst
  have hshown : c.memoryPane 80 22 0 = "000: 000 000 000 007 000 000 000 1".toList := by
    rw [hpane c rfl, hbytes]
    decide
  refine ⟨hrow, hshown, ?_, ?_, ?_⟩
  · rw [hshown, hbytes]
    decide
  · rw [hshown, hpane other rfl, hother]
    decide
  · rw [hbytes, hother]
    decide

end Console
end Kenbak1
