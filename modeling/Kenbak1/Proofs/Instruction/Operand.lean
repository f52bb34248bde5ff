/-
  Kenbak1.Proofs.Instruction.Operand

  What the text of an operand tells. `readOperandWords` reads its words back: the marks around an
  octal byte tell the `Mode`, and a register's name stands for the address of the register. So
  operands with the same words are the same operand (`operandText_injective`).
-/
import Kenbak1.Instruction.Text
import Kenbak1.Proofs.Blank
import Kenbak1.Proofs.Instruction.Decode
import Kenbak1.Proofs.Numeral

namespace Kenbak1

/-! ## Words of texts -/

/-- The words of a text, which blanks separate. -/
def wordsOf (text : String) : List (List Char) :=
  words text.toList

theorem wordsOf_append_blank (before behind : String) :
    wordsOf (before ++ " " ++ behind) = wordsOf before ++ wordsOf behind := by
  have hblank : isBlank ' ' = true := by decide
  have hlist : (before ++ " " ++ behind).toList = before.toList ++ ' ' :: behind.toList := by
    rw [String.toList_append, String.toList_append, List.append_assoc]
    rfl
  rw [wordsOf, hlist, words_append_cons hblank]
  rfl

theorem wordsOf_eq_singleton {text : String} (hne : text.toList ≠ [])
    (h : ∀ c ∈ text.toList, isBlank c = false) : wordsOf text = [text.toList] :=
  words_eq_singleton hne h

theorem wordsOf_name (r : Register) : wordsOf r.name = [r.name.toList] := by
  cases r <;> decide

theorem Register.name_injective : Function.Injective Register.name := by
  intro r q h
  cases r <;> cases q <;> first | rfl | simp [name] at h

/-! ## Operands -/

/-- An octal byte between marks is a word. -/
theorem wordsOf_octal (before behind : String) (x : UInt8)
    (hbefore : before.toList.any isBlank = false) (hbehind : behind.toList.any isBlank = false) :
    wordsOf (before ++ octal x ++ behind) = [before.toList ++ octalDigits x ++ behind.toList] := by
  have hlist : (before ++ octal x ++ behind).toList
      = before.toList ++ octalDigits x ++ behind.toList := by
    rw [String.toList_append, String.toList_append, octal, String.toList_ofList]
  rw [wordsOf, hlist]
  refine words_eq_singleton ?_ fun c hc => ?_
  · simp [octalDigits_eq]
  · rw [List.mem_append, List.mem_append] at hc
    rcases hc with (hc | hc) | hc
    · exact Bool.eq_false_iff.mpr (List.any_eq_false.mp hbefore c hc)
    · exact isBlank_eq_false_of_mem_octalDigits hc
    · exact Bool.eq_false_iff.mpr (List.any_eq_false.mp hbehind c hc)

/-- The words of an operand. -/
def operandWords (mode : Mode) (x : UInt8) : List (List Char) :=
  match mode with
  | .constant => ['#' :: octalDigits x]
  | .memory =>
    match Register.ofAddress? x with
    | some r => [r.name.toList]
    | none => [octalDigits x]
  | .indirect => ['(' :: octalDigits x ++ [')']]
  | .indexed => [octalDigits x ++ [','], ['X']]
  | .indirectIndexed => ['(' :: octalDigits x ++ [')', ','], ['X']]

theorem wordsOf_operandText (mode : Mode) (x : UInt8) :
    wordsOf (operandText (some mode) x) = operandWords mode x := by
  have hname : wordsOf Register.x.name = [['X']] := wordsOf_name .x
  cases mode with
  | constant =>
    have h := wordsOf_octal "#" "" x rfl rfl
    rw [String.append_empty, String.toList_empty, List.append_nil] at h
    exact h
  | memory =>
    unfold operandText operandWords
    cases Register.ofAddress? x with
    | some r => exact wordsOf_name r
    | none =>
      have h := wordsOf_octal "" "" x rfl rfl
      rw [String.append_empty, String.empty_append, String.toList_empty, List.append_nil] at h
      exact h
  | indirect => exact wordsOf_octal "(" ")" x rfl rfl
  -- The comma belongs to the word before the blank.
  | indexed =>
    have h := wordsOf_octal "" "," x rfl rfl
    rw [String.empty_append] at h
    have hcomma : octal x ++ ", " = octal x ++ "," ++ " " := by
      rw [String.append_assoc]
      rfl
    rw [operandText, hcomma, wordsOf_append_blank, h, hname]
    rfl
  | indirectIndexed =>
    have h := wordsOf_octal "(" ")," x rfl rfl
    have hcomma : "(" ++ octal x ++ "), " = "(" ++ octal x ++ ")," ++ " " := by
      rw [String.append_assoc, String.append_assoc, String.append_assoc]
      rfl
    rw [operandText, hcomma, wordsOf_append_blank, h, hname]
    rfl

/-- The mode and the byte of an operand, read from its words. -/
def readOperandWords : List (List Char) → Option (Mode × UInt8)
  | ['#' :: digits] => (readOctal digits).toOption.map (.constant, ·)
  | ['(' :: digits] => (readOctal digits.dropLast).toOption.map (.indirect, ·)
  | [word] =>
    match Register.all.find? (·.name.toList = word) with
    | some r => some (.memory, r.address)
    | none => (readOctal word).toOption.map (.memory, ·)
  | ['(' :: digits, _] => (readOctal digits.dropLast.dropLast).toOption.map (.indirectIndexed, ·)
  | [digits, _] => (readOctal digits.dropLast).toOption.map (.indexed, ·)
  | _ => none

theorem name_ne_octalDigits (r : Register) (x : UInt8) : r.name.toList ≠ octalDigits x := by
  intro h
  have hdigits : (octalDigits x).all (IsOctalDigit ·) = true := by
    refine List.all_eq_true.mpr fun c hc => ?_
    exact decide_eq_true (isOctalDigit_of_mem_octalDigits hc)
  -- Each name has a letter in it.
  have hletter : r.name.toList.all (IsOctalDigit ·) = false := by
    cases r <;> decide
  rw [h, hdigits] at hletter
  cases hletter

/-- An operand is read back from its `operandWords`. -/
theorem readOperandWords_operandWords (mode : Mode) (x : UInt8) :
    readOperandWords (operandWords mode x) = some (mode, x) := by
  have hread := readOctal_octalDigits x
  obtain ⟨c, rest, hdigits⟩ : ∃ c rest, octalDigits x = c :: rest := ⟨_, _, octalDigits_eq x⟩
  -- No octal digit is one of the marks that tell the modes apart.
  have hc : IsOctalDigit c := isOctalDigit_of_mem_octalDigits (hdigits ▸ List.mem_cons_self)
  have hhash : c ≠ '#' := by
    rintro rfl
    exact absurd hc (by decide)
  have hparen : c ≠ '(' := by
    rintro rfl
    exact absurd hc (by decide)
  cases mode with
  | constant => simp [operandWords, readOperandWords, hread, Except.toOption]
  | memory =>
    cases hx : Register.ofAddress? x with
    | some r =>
      obtain rfl := Register.ofAddress?_eq_some_iff.mp hx
      cases r <;> decide
    | none =>
      have hnone : Register.all.find? (·.name.toList = c :: rest) = none := by
        simpa [hdigits] using fun r _ => name_ne_octalDigits r x
      rw [hdigits] at hread
      simp [operandWords, hx, hdigits, readOperandWords, hhash, hparen, hnone, hread,
        Except.toOption]
  | indirect => simp [operandWords, readOperandWords, hread, Except.toOption]
  | indexed =>
    have hdrop : (c :: (rest ++ [','])).dropLast = c :: rest := by
      rw [← List.cons_append, List.dropLast_concat]
    rw [hdigits] at hread
    simp [operandWords, hdigits, readOperandWords, hparen, hdrop, hread, Except.toOption]
  | indirectIndexed => simp [operandWords, readOperandWords, hread, Except.toOption]

/-- Operands with the same `operandText` are of the same mode and the same byte. -/
theorem operandText_injective {mode₁ mode₂ : Mode} {x₁ x₂ : UInt8}
    (h : wordsOf (operandText (some mode₁) x₁) = wordsOf (operandText (some mode₂) x₂)) :
    mode₁ = mode₂ ∧ x₁ = x₂ := by
  rw [wordsOf_operandText, wordsOf_operandText] at h
  have hread := congrArg readOperandWords h
  rw [readOperandWords_operandWords, readOperandWords_operandWords] at hread
  exact Prod.mk.inj (Option.some.inj hread)

end Kenbak1
