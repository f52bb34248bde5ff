/-
  Kenbak1.Proofs.Listing

  A listing loses nothing. Its `rows` stand one behind the other over the whole address space
  (`adjoin_rows`), and their bytes are the memory image, made up to 256 bytes or cut off there
  (`padded`, `flatMap_bytes_rows`). Each row can be read from its line (`Row.ofLine?_line`), so two
  images have one `listing` just when they agree as images of a memory.
-/
import Kenbak1.Listing
import Kenbak1.Memory
import Kenbak1.Proofs.Blank
import Kenbak1.Proofs.Instruction.Decode
import Kenbak1.Proofs.Numeral
import Mathlib.Data.List.GetD
import Mathlib.Tactic.SplitIfs

namespace Kenbak1

/-! ## Images of a memory -/

/-- The bytes of a whole memory: an image with zeros behind it, cut off at the last address. -/
def padded (image : Array UInt8) : List UInt8 :=
  (image.toList ++ List.replicate memorySize 0).take memorySize

theorem getD_padded (image : Array UInt8) {n : Nat} (h : n < memorySize) :
    (padded image).getD n 0 = image.getD n 0 := by
  rw [padded, List.getD_eq_getElem?_getD, List.getElem?_take_of_lt h]
  by_cases hn : n < image.size
  · rw [List.getElem?_append_left (by simpa using hn)]
    simp [Array.getD, hn]
  · have hsize : image.size ≤ n := Nat.le_of_not_lt hn
    rw [List.getElem?_append_right (by simpa using hsize), List.getElem?_replicate]
    split <;> simp

/-- An address is a byte. -/
theorem toNat_toUInt8_of_lt {n : Nat} (h : n < memorySize) : n.toUInt8.toNat = n := by
  rw [Nat.toUInt8_eq, UInt8.toNat_ofNat']
  exact Nat.mod_eq_of_lt h

theorem length_padded (image : Array UInt8) : (padded image).length = memorySize := by
  rw [padded, List.length_take, List.length_append, List.length_replicate]
  exact Nat.min_eq_left (Nat.le_add_left _ _)

/-- The bytes of a memory, address by address. -/
theorem padded_eq_map (image : Array UInt8) :
    padded image = (List.range memorySize).map fun a => image.getD a.toUInt8.toNat 0 := by
  refine List.ext_getElem ?_ fun n hn _ => ?_
  · rw [length_padded, List.length_map, List.length_range]
  · have hlt : n < memorySize := length_padded image ▸ hn
    rw [List.getElem_map, List.getElem_range, toNat_toUInt8_of_lt hlt, ← getD_padded image hlt,
      List.getD_eq_getElem _ _ hn]

/-- The rows of an image are those of its memory. -/
theorem rows_eq (image : Array UInt8) :
    rows image = rowsFrom (fun address => (padded image).getD address.toNat 0) memorySize 0 := by
  have hfetch : (fun address : UInt8 => image.getD address.toNat 0)
      = fun address => (padded image).getD address.toNat 0 :=
    funext fun address => (getD_padded image address.toNat_lt).symm
  rw [rows, hfetch]
  rfl

/-! ## Rows that adjoin -/

/-- Rows stand one behind the other from one address to another. -/
def Adjoin : Nat → List Row → Nat → Prop
  | start, [], stop => start = stop
  | start, row :: rest, stop =>
    row.address = start ∧ Adjoin (start + row.bytes.length) rest stop

/-- A row holds the byte of an address. -/
def Row.Covers (a : Nat) (row : Row) : Prop :=
  row.address ≤ a ∧ a < row.address + row.bytes.length

instance (a : Nat) (row : Row) : Decidable (row.Covers a) :=
  inferInstanceAs (Decidable (_ ∧ _))

variable {start stop : Nat} {list : List Row}

theorem Adjoin.le (h : Adjoin start list stop) : start ≤ stop := by
  induction list generalizing start with
  | nil => exact Nat.le_of_eq h
  | cons row rest ih => exact Nat.le_of_add_right_le (ih h.2)

/-- No row goes beyond the end. -/
theorem Adjoin.row_le (h : Adjoin start list stop) {row : Row} (hrow : row ∈ list) :
    row.address + row.bytes.length ≤ stop := by
  induction list generalizing start with
  | nil => cases hrow
  | cons first rest ih =>
    obtain ⟨rfl, hrest⟩ := h
    rcases List.mem_cons.mp hrow with rfl | hrow
    · exact hrest.le
    · exact ih hrest hrow

/-- Every address from the first to the last is in one of the rows, and in no other. -/
theorem Adjoin.countP_covers (h : Adjoin start list stop) (a : Nat) :
    list.countP (·.Covers a) = if start ≤ a ∧ a < stop then 1 else 0 := by
  induction list generalizing start with
  | nil =>
    obtain rfl : start = stop := h
    rw [List.countP_nil, if_neg (by omega)]
  | cons row rest ih =>
    obtain ⟨rfl, hrest⟩ := h
    have hstop := hrest.le
    have hcovers : row.Covers a ↔ row.address ≤ a ∧ a < row.address + row.bytes.length := Iff.rfl
    rw [List.countP_cons, ih hrest]
    -- An address of the first row is before all others, and any other is behind it.
    simp only [decide_eq_true_eq, hcovers]
    split_ifs <;> omega

/-- Rows whose bytes are those of consecutive cells make up the cells from the first address
    to the last. -/
theorem Adjoin.flatMap_bytes {cell : Nat → UInt8} (h : Adjoin start list stop)
    (hcells : ∀ row ∈ list, row.bytes = (List.range' row.address row.bytes.length).map cell) :
    list.flatMap (·.bytes) = (List.range' start (stop - start)).map cell := by
  induction list generalizing start with
  | nil =>
    obtain rfl : start = stop := h
    simp
  | cons row rest ih =>
    obtain ⟨rfl, hrest⟩ := h
    have hstop := hrest.le
    have hsplit : List.range' row.address (stop - row.address)
        = List.range' row.address row.bytes.length
          ++ List.range' (row.address + row.bytes.length)
            (stop - (row.address + row.bytes.length)) := by
      rw [List.range'_append_1]
      congr 1
      omega
    rw [List.flatMap_cons, ih hrest fun r hr => hcells r (List.mem_cons_of_mem _ hr), hsplit,
      List.map_append, ← hcells row List.mem_cons_self]

/-! ## Single rows -/

theorem Instruction.size_eq_one_or_two (i : Instruction) : i.size = 1 ∨ i.size = 2 := by
  unfold Instruction.size
  split <;> simp

/-- An instruction of one byte says nothing about the byte behind it. -/
theorem Instruction.text_of_single {i : Instruction} (h : i.hasOperand = false) (x y : UInt8) :
    i.text x = i.text y := by
  have hmode : i.mode = none := by
    unfold hasOperand at h
    exact Option.isNone_iff_eq_none.mp (by simpa using h)
  unfold text operandText
  rw [hmode]

section Single

variable {fetch : UInt8 → UInt8} {a : Nat}

theorem Row.bytes_at (fetch : UInt8 → UInt8) (a : Nat) :
    (Row.at fetch a).bytes = (List.range' a (Row.at fetch a).bytes.length).map
      fun n => fetch n.toUInt8 := by
  simp only [Row.at, List.length_map, List.length_range, List.range'_eq_map_range, List.map_map]
  rfl

/-- The row of a register is one byte under the register's name. -/
theorem Row.at_register {r : Register} (h : Register.ofAddress? a.toUInt8 = some r) :
    (Row.at fetch a).bytes.length = 1 ∧ (Row.at fetch a).text = registerLine r := by
  have hline : disassemble (m := Id) fetch a.toUInt8 = { text := registerLine r, size := 1 } := by
    rw [disassemble, h]
    rfl
  simp only [Row.at, hline, List.length_map, List.length_range, and_self]

/-- Any other row is the instruction whose opcode stands there, with the byte behind it. -/
theorem Row.at_instruction (h : Register.ofAddress? a.toUInt8 = none) :
    (Row.at fetch a).bytes.length = (decode (fetch a.toUInt8)).size ∧
      (Row.at fetch a).text = (decode (fetch a.toUInt8)).text (fetch (a + 1).toUInt8) := by
  have hnext : (a + 1).toUInt8 = a.toUInt8 + 1 := by
    simp [Nat.toUInt8_eq]
  have hline : disassemble (m := Id) fetch a.toUInt8
      = { text := (decode (fetch a.toUInt8)).text (fetch (a + 1).toUInt8)
          size := (decode (fetch a.toUInt8)).size } := by
    rw [disassemble, h, hnext]
    show (if (decode (fetch a.toUInt8)).hasOperand then _ else _ : Id Line) = _
    split
    · rfl
    · next hoperand =>
      -- No operand byte is read here, and none is shown.
      exact congrArg (Line.mk · _) (Instruction.text_of_single (by simpa using hoperand) _ _)
  simp only [Row.at, hline, List.length_map, List.length_range, and_self]

-- The instruction at 177 takes the byte behind OUT with it.
example : Row.at (fun _ => 0o023) 0o177
    = { address := 0o177, bytes := [0o023, 0o023], text := "load A #023" } := by decide

/-- A row takes one byte or two. -/
theorem Row.length_at (fetch : UInt8 → UInt8) (a : Nat) :
    (Row.at fetch a).bytes.length = 1 ∨ (Row.at fetch a).bytes.length = 2 := by
  cases h : Register.ofAddress? a.toUInt8 with
  | some r => exact .inl (Row.at_register h).1
  | none =>
    rw [(Row.at_instruction h).1]
    exact Instruction.size_eq_one_or_two _

/-- No row goes beyond the last address, which is a register's. -/
theorem Row.at_le (fetch : UInt8 → UInt8) (h : a < memorySize) :
    a + (Row.at fetch a).bytes.length ≤ memorySize := by
  unfold memorySize at h ⊢
  by_cases hlast : a = 0o377
  · subst hlast
    rw [(Row.at_register (r := .input) rfl).1]
  · rcases Row.length_at fetch a with hone | htwo <;> omega

end Single

/-! ## The sweep -/

/-- `rowsFrom` an address on adjoin up to the last address. As every row takes a byte, there are
    never more of them than addresses. -/
theorem adjoin_rowsFrom (fetch : UInt8 → UInt8) {count start : Nat} (hstart : start ≤ memorySize)
    (hcount : memorySize ≤ count + start) :
    Adjoin start (rowsFrom fetch count start) memorySize := by
  induction count generalizing start with
  | zero => exact Nat.le_antisymm hstart (by omega)
  | succ count ih =>
    rw [rowsFrom]
    split
    · next hlt =>
      have hpos : 0 < (Row.at fetch start).bytes.length := by
        rcases Row.length_at fetch start with hone | htwo <;> omega
      exact ⟨rfl, ih (Row.at_le fetch hlt) (by omega)⟩
    · next hge => exact Nat.le_antisymm hstart (Nat.not_lt.mp hge)

/-- Each of the rows is the row at its own address. -/
theorem eq_at_of_mem_rowsFrom {fetch : UInt8 → UInt8} {count start : Nat} {row : Row}
    (h : row ∈ rowsFrom fetch count start) :
    row = Row.at fetch row.address ∧ row.address < memorySize := by
  induction count generalizing start with
  | zero => cases h
  | succ count ih =>
    rw [rowsFrom] at h
    split at h
    · next hlt =>
      rcases List.mem_cons.mp h with rfl | h
      · exact ⟨rfl, hlt⟩
      · exact ih h
    · cases h

/-! ## Lines -/

/-- The bytes of a row, as wide as two of them and a blank behind. -/
def byteColumn (bytes : List UInt8) : List Char :=
  (padRight 8 (joined " " (bytes.map octal))).toList

/-- The line of a row. -/
def Row.line (row : Row) : List Char :=
  octalDigits row.address.toUInt8 ++ [':', ' '] ++ byteColumn row.bytes ++ [' ']
    ++ row.text.toList

/-- The row that a line shows: the digits at its beginning are the address, the words of the
    next column the bytes, and the text is all that stands behind. -/
def Row.ofLine? (line : List Char) : Option Row := do
  let address ← (readOctal (line.take 3)).toOption
  let bytes ← (words ((line.drop 5).take 8)).mapM fun word => (readOctal word).toOption
  return { address := address.toNat, bytes, text := String.ofList (line.drop 14) }

theorem Row.toList_render (row : Row) : row.render.toList = row.line ++ ['\n'] := by
  have hcolon : ": ".toList = [':', ' '] := by simp
  have hblank : " ".toList = [' '] := by simp
  have hfeed : "\n".toList = ['\n'] := by simp
  simp only [Row.render, Row.line, byteColumn, octal, String.toList_append, String.toList_ofList,
    hcolon, hblank, hfeed]

theorem length_octalDigits (b : UInt8) : (octalDigits b).length = 3 :=
  fixedDigits_length 8 3 b.toNat

theorem byteColumn_one (b : UInt8) :
    byteColumn [b] = octalDigits b ++ ' ' :: List.replicate 4 ' ' := by
  simp [byteColumn, padRight, joined, octal, length_octalDigits]

theorem byteColumn_two (b c : UInt8) :
    byteColumn [b, c] = octalDigits b ++ ' ' :: (octalDigits c ++ ' ' :: []) := by
  have hblank : " ".length = 1 := rfl
  simp [byteColumn, padRight, joined, octal, length_octalDigits, hblank]

theorem words_octalDigits (b : UInt8) : words (octalDigits b) = [octalDigits b] :=
  words_eq_singleton (by simp [octalDigits_eq]) fun _ => isBlank_eq_false_of_mem_octalDigits

section Column

variable {bytes : List UInt8} (h : bytes.length = 1 ∨ bytes.length = 2)
include h

theorem length_byteColumn : (byteColumn bytes).length = 8 := by
  rcases h with h | h
  · obtain ⟨b, rfl⟩ := List.length_eq_one_iff.mp h
    simp [byteColumn_one, length_octalDigits]
  · obtain ⟨b, c, rfl⟩ := List.length_eq_two.mp h
    simp [byteColumn_two, length_octalDigits]

theorem words_byteColumn : words (byteColumn bytes) = bytes.map octalDigits := by
  have hblank : isBlank ' ' = true := by decide
  rcases h with h | h
  · obtain ⟨b, rfl⟩ := List.length_eq_one_iff.mp h
    rw [byteColumn_one, words_append_cons hblank, words_octalDigits]
    rfl
  · obtain ⟨b, c, rfl⟩ := List.length_eq_two.mp h
    rw [byteColumn_two, words_append_cons hblank, words_append_cons hblank, words_octalDigits,
      words_octalDigits]
    rfl

end Column

/-- `Row.ofLine?` reads a row back from its line. -/
theorem Row.ofLine?_line {row : Row} (haddress : row.address < memorySize)
    (hbytes : row.bytes.length = 1 ∨ row.bytes.length = 2) : Row.ofLine? row.line = some row := by
  -- The text stands behind columns of fixed width: three digits, two characters, eight, and one.
  have hcolumn := length_byteColumn hbytes
  have hdigits := length_octalDigits row.address.toUInt8
  have htake : row.line.take 3 = octalDigits row.address.toUInt8 := by
    simp [Row.line, hdigits]
  have hmiddle : (row.line.drop 5).take 8 = byteColumn row.bytes := by
    simp [Row.line, List.drop_append, hdigits, List.take_append, hcolumn]
  have hdrop : row.line.drop 14 = row.text.toList := by
    refine List.drop_left' ?_
    simp [hdigits, hcolumn]
  have hread : ∀ b, (readOctal (octalDigits b)).toOption = some b := fun b => by
    rw [readOctal_octalDigits, Except.toOption]
  have hmap : (row.bytes.map octalDigits).mapM (fun word => (readOctal word).toOption)
      = some row.bytes := by
    rw [List.mapM_map, show (fun word => (readOctal word).toOption) ∘ octalDigits
      = fun b => pure (id b) from funext hread, List.mapM_pure, List.map_id]
    rfl
  simp [Row.ofLine?, htake, hmiddle, hdrop, words_byteColumn hbytes, hread, hmap,
    toNat_toUInt8_of_lt haddress]

/-! ## Line feeds -/

theorem newline_not_mem_octal (b : UInt8) : '\n' ∉ (octal b).toList := by
  rw [octal, String.toList_ofList]
  exact fun h => absurd (isOctalDigit_of_mem_octalDigits h) (by decide)

theorem newline_not_mem_name (r : Register) : '\n' ∉ r.name.toList := by
  cases r <;> decide

theorem newline_not_mem_operandText (mode : Option Mode) (x : UInt8) :
    '\n' ∉ (operandText mode x).toList := by
  have hoctal := newline_not_mem_octal x
  have hx := newline_not_mem_name .x
  cases mode with
  | none => simp [operandText]
  | some mode =>
    cases mode with
    | memory =>
      unfold operandText
      dsimp only
      split
      · exact newline_not_mem_name _
      · exact hoctal
    | constant | indirect | indexed | indirectIndexed =>
      simp [operandText, String.toList_append, hoctal, hx]

namespace Instruction

theorem newline_not_mem_registerText (i : Instruction) : '\n' ∉ i.registerText.toList := by
  unfold registerText
  split
  · exact newline_not_mem_name _
  · simp

theorem newline_not_mem_text (i : Instruction) (x : UInt8) : '\n' ∉ (i.text x).toList := by
  have hmnemonic : ∀ f : Operation, '\n' ∉ f.mnemonic.toList := by
    intro f
    cases f <;> decide
  have hsymbol : ∀ c : Condition, '\n' ∉ c.symbol.toList := by
    intro c
    cases c <;> decide
  have hunconditional : '\n' ∉ unconditional.toList := by decide
  have hregister := i.newline_not_mem_registerText
  have hbit : '\n' ∉ i.bitText.toList := newline_not_mem_toString _
  have hshown := newline_not_mem_operandText i.mode x
  unfold text
  dsimp only
  cases i.operation with
  | jpd | jpi | jmd | jmi =>
    -- A jump alone shows a condition, or a word in its place.
    cases i.condition with
    | none => simp [hmnemonic, hunconditional, hshown]
    | some c => simp [hmnemonic, hregister, hsymbol, hshown]
  | _ => simp [hmnemonic, hregister, hbit, hshown]

end Instruction

/-! ## Whole listings -/

/-- What a row says about the bytes of a memory. The row of a register is one byte under the
    register's name; any other is the instruction whose opcode stands there, with the byte
    behind it as its operand. -/
structure Row.Shows (memory : List UInt8) (row : Row) : Prop where
  register : ∀ r : Register, row.address = r.address.toNat →
    row.bytes.length = 1 ∧ row.text = "REG<" ++ r.name ++ ">"
  instruction : (∀ r : Register, row.address ≠ r.address.toNat) →
    row.bytes.length = (decode (memory.getD row.address 0)).size ∧
      row.text = (decode (memory.getD row.address 0)).text (memory.getD (row.address + 1) 0)

/-- What each line behind the heading of a listing shows. -/
def shownRows (text : String) : List (Option Row) :=
  ((linesOf text.toList).drop 3).dropLast.map Row.ofLine?

/-- The lines of the heading. -/
def headingLines : List (List Char) :=
  ["; Kenbak-1 Disassembly".toList, "; --------------------".toList, []]

theorem toList_listing (image : Array UInt8) :
    (listing image).toList = (headingLines ++ (rows image).map Row.line).flatMap (· ++ ['\n']) := by
  have hheading : listingHeader.toList = headingLines.flatMap (· ++ ['\n']) := by decide
  rw [listing, String.toList_append, hheading, String.toList_join, List.flatMap_append,
    List.flatMap_map, List.flatMap_map]
  simp only [Row.toList_render]

section Rows

variable {image : Array UInt8} {row : Row} (h : row ∈ rows image)
include h

theorem eq_at_of_mem_rows :
    row = Row.at (fun address => (padded image).getD address.toNat 0) row.address ∧
      row.address < memorySize :=
  eq_at_of_mem_rowsFrom (rows_eq image ▸ h)

theorem length_of_mem_rows : row.bytes.length = 1 ∨ row.bytes.length = 2 := by
  rw [(eq_at_of_mem_rows h).1]
  exact Row.length_at _ _

theorem shows_of_mem_rows : row.Shows (padded image) where
  register r hr := by
    have haddress : row.address.toUInt8 = r.address := by
      rw [hr, Nat.toUInt8_eq, UInt8.ofNat_toNat]
    rw [(eq_at_of_mem_rows h).1]
    exact Row.at_register (haddress ▸ Register.ofAddress?_address r)
  instruction hno := by
    obtain ⟨hrow, hlt⟩ := eq_at_of_mem_rows h
    have hregister : Register.ofAddress? row.address.toUInt8 = none := by
      refine Option.eq_none_iff_forall_ne_some.mpr fun r hr => hno r ?_
      rw [← Register.ofAddress?_eq_some_iff.mp hr, toNat_toUInt8_of_lt hlt]
    -- The last address is a register's, so the next one is an address too.
    have hnext : row.address + 1 < memorySize := by
      have hlast : row.address ≠ 255 := hno .input
      unfold memorySize at hlt ⊢
      omega
    have hat := @Row.at_instruction (fun address => (padded image).getD address.toNat 0) _ hregister
    rw [← hrow] at hat
    simpa only [toNat_toUInt8_of_lt hlt, toNat_toUInt8_of_lt hnext] using hat

theorem newline_not_mem_line : '\n' ∉ row.line := by
  have htext : '\n' ∉ row.text.toList := by
    rw [(eq_at_of_mem_rows h).1]
    cases hregister : Register.ofAddress? row.address.toUInt8 with
    | some r =>
      rw [(Row.at_register hregister).2]
      simp [registerLine, newline_not_mem_name]
    | none =>
      rw [(Row.at_instruction hregister).2]
      exact Instruction.newline_not_mem_text _ _
  have hdigits : ∀ b, '\n' ∉ octalDigits b := fun b hmem =>
    absurd (isOctalDigit_of_mem_octalDigits hmem) (by decide)
  have hcolumn : '\n' ∉ byteColumn row.bytes := by
    rcases length_of_mem_rows h with hone | htwo
    · obtain ⟨b, hb⟩ := List.length_eq_one_iff.mp hone
      simp [hb, byteColumn_one, hdigits]
    · obtain ⟨b, c, hbc⟩ := List.length_eq_two.mp htwo
      simp [hbc, byteColumn_two, hdigits]
  simp [Row.line, hdigits, hcolumn, htext]

end Rows

/-- The `rows` of a memory are read back from the lines of its `listing`. -/
theorem shownRows_listing (image : Array UInt8) :
    shownRows (listing image) = (rows image).map some := by
  have hfeed : ∀ line ∈ headingLines ++ (rows image).map Row.line, '\n' ∉ line := by
    intro line hline
    rcases List.mem_append.mp hline with hheading | hrow
    · simp only [headingLines, List.mem_cons, List.not_mem_nil, or_false] at hheading
      rcases hheading with rfl | rfl | rfl <;> decide
    · obtain ⟨row, hmem, rfl⟩ := List.mem_map.mp hrow
      exact newline_not_mem_line hmem
  have hdrop : (headingLines ++ (rows image).map Row.line ++ [[]]).drop 3
      = (rows image).map Row.line ++ [[]] := by
    rw [List.append_assoc]
    exact List.drop_left' rfl
  rw [shownRows, toList_listing, linesOf_flatMap hfeed, hdrop, List.dropLast_concat, List.map_map]
  refine List.map_congr_left fun row hrow => ?_
  exact Row.ofLine?_line (eq_at_of_mem_rows hrow).2 (length_of_mem_rows hrow)

theorem adjoin_rows (image : Array UInt8) : Adjoin 0 (rows image) memorySize :=
  adjoin_rowsFrom _ (Nat.zero_le _) (Nat.le_refl _)

/-- The bytes of the rows are those of the memory. -/
theorem flatMap_bytes_rows (image : Array UInt8) :
    (rows image).flatMap (·.bytes) = padded image := by
  have hcells : ∀ row ∈ rows image, row.bytes
      = (List.range' row.address row.bytes.length).map fun a => image.getD a.toUInt8.toNat 0 := by
    intro row hrow
    rw [(eq_at_of_mem_rowsFrom hrow).1]
    exact Row.bytes_at _ _
  rw [(adjoin_rows image).flatMap_bytes hcells, padded_eq_map, List.range_eq_range']
  rfl

/-- A `listing` is a partition of the memory that loses nothing. Its `rows` can be read from it
    (`shownRows`); they `Adjoin` from the first address to the last and hold each address once;
    their bytes are the memory (`padded`); none goes beyond the last address, and each `Shows` the
    register or the instruction that stands at its own; and images have one listing exactly if they
    are images of one memory. -/
theorem listing_lossless (image : Array UInt8) :
    shownRows (listing image) = (rows image).map some ∧
      Adjoin 0 (rows image) memorySize ∧
      (∀ a < memorySize, (rows image).countP (·.Covers a) = 1) ∧
      (rows image).flatMap (·.bytes) = padded image ∧
      (∀ row ∈ rows image,
        row.address + row.bytes.length ≤ memorySize ∧ row.Shows (padded image)) ∧
      ∀ other : Array UInt8, listing other = listing image ↔ padded other = padded image := by
  have hadjoin := adjoin_rows image
  refine ⟨shownRows_listing image, hadjoin, ?_, flatMap_bytes_rows image, ?_, ?_⟩
  · intro a ha
    rw [hadjoin.countP_covers, if_pos ⟨Nat.zero_le a, ha⟩]
  · intro row hrow
    exact ⟨hadjoin.row_le hrow, shows_of_mem_rows hrow⟩
  · intro other
    constructor
    -- The rows are read from the one text, and the memory from the rows.
    · intro h
      have hrows : (rows other).map some = (rows image).map some := by
        rw [← shownRows_listing, ← shownRows_listing, h]
      rw [← flatMap_bytes_rows, ← flatMap_bytes_rows,
        List.map_injective_iff.mpr (Option.some_injective _) hrows]
    · intro h
      rw [listing, listing, rows_eq, rows_eq, h]

end Kenbak1
