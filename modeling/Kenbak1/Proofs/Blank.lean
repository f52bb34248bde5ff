/-
  Kenbak1.Proofs.Blank

  Dividing texts. `pieces_eq_splitOnP` says that the `pieces` of a text are those of the library's
  `List.splitOnP`; `pieces_append_cons` gives the pieces before and behind a character that divides,
  and everything about `linesOf` and `words` follows from it. `trim` does not see a blank at the end
  (`trim_concat_blank`).
-/
import Kenbak1.Blank
import Mathlib.Data.List.DropRight

namespace Kenbak1

/-! ## Pieces -/

theorem pieces_eq_splitOnP (divides : Char → Bool) (text : List Char) :
    pieces divides text = text.splitOnP divides := by
  induction text with
  | nil => rw [pieces, List.splitOnP_nil]
  | cons c rest ih =>
    rw [pieces, ih, List.splitOnP_cons_eq_if_modifyHead]
    obtain ⟨piece, more, hpieces⟩ :=
      List.exists_cons_of_ne_nil (List.splitOnP_ne_nil divides rest)
    rw [hpieces, List.modifyHead_cons]

/-- A text falls apart at every character that divides. -/
theorem pieces_append_cons {divides : Char → Bool} {c : Char} (hc : divides c = true)
    (before behind : List Char) :
    pieces divides (before ++ c :: behind)
      = pieces divides before ++ pieces divides behind := by
  simp only [pieces_eq_splitOnP]
  exact List.splitOnP_append_cons before behind hc

/-- A text in which nothing divides is one piece. -/
theorem pieces_eq_singleton {divides : Char → Bool} {text : List Char}
    (h : ∀ c ∈ text, divides c = false) : pieces divides text = [text] := by
  rw [pieces_eq_splitOnP]
  exact List.splitOnP_eq_singleton h

/-! ## Lines -/

theorem linesOf_append_newline {line : List Char} (h : '\n' ∉ line) (rest : List Char) :
    linesOf (line ++ '\n' :: rest) = line :: linesOf rest := by
  have hline : ∀ c ∈ line, (c == '\n') = false := by
    intro c hc
    simpa using fun e : c = '\n' => h (e ▸ hc)
  unfold linesOf
  rw [pieces_append_cons (by rfl), pieces_eq_singleton hline, List.singleton_append]

/-- Lines that a line feed ends each are read back, and behind the last of them stands nothing. -/
theorem linesOf_flatMap {list : List (List Char)} (h : ∀ line ∈ list, '\n' ∉ line) :
    linesOf (list.flatMap (· ++ ['\n'])) = list ++ [[]] := by
  induction list with
  | nil => rfl
  | cons line rest ih =>
    have hrest := ih fun l hl => h l (List.mem_cons_of_mem _ hl)
    rw [List.flatMap_cons, List.append_assoc, List.singleton_append,
      linesOf_append_newline (h line List.mem_cons_self), hrest, List.cons_append]

/-! ## Words -/

section Words

variable {blank : Char} (hblank : isBlank blank = true)
include hblank

/-- A text falls apart at every blank. -/
theorem words_append_cons (before behind : List Char) :
    words (before ++ blank :: behind) = words before ++ words behind := by
  unfold words
  rw [pieces_append_cons hblank, List.filter_append]

/-- A blank at the front belongs to no word. -/
theorem words_cons (text : List Char) : words (blank :: text) = words text :=
  words_append_cons hblank [] text

end Words

theorem words_eq_singleton {word : List Char} (hne : word ≠ [])
    (h : ∀ c ∈ word, isBlank c = false) : words word = [word] := by
  rw [words, pieces_eq_singleton h]
  simp [hne]

/-- Words written with a blank before each of them are read back. -/
theorem words_flatMap_cons {blank : Char} (hblank : isBlank blank = true)
    {list : List (List Char)} (h : ∀ word ∈ list, word ≠ [] ∧ ∀ c ∈ word, isBlank c = false) :
    words (list.flatMap (blank :: ·)) = list := by
  induction list with
  | nil => rfl
  | cons word rest ih =>
    obtain ⟨hne, hword⟩ := h word List.mem_cons_self
    have hrest := ih fun w hw => h w (List.mem_cons_of_mem _ hw)
    rw [List.flatMap_cons, List.cons_append, words_cons hblank]
    -- Behind the word stands nothing, or the blank of the next word.
    cases rest with
    | nil => simp [words_eq_singleton hne hword]
    | cons next others =>
      rw [List.flatMap_cons, List.cons_append] at hrest ⊢
      rw [words_append_cons hblank, words_eq_singleton hne hword, ← words_cons hblank, hrest,
        List.singleton_append]

/-! ## Trimming -/

/-- Trimming in terms of the library. -/
theorem trim_eq_rdropWhile (text : List Char) :
    trim text = (text.dropWhile isBlank).rdropWhile isBlank := rfl

/-- A text that begins and ends with no blank stays as it is. -/
theorem trim_eq_self {text : List Char} (hfirst : ∀ c ∈ text.head?, isBlank c = false)
    (hlast : ∀ c ∈ text.getLast?, isBlank c = false) : trim text = text := by
  cases text with
  | nil => rfl
  | cons c rest =>
    have hc : isBlank c = false := hfirst c rfl
    rw [trim_eq_rdropWhile, List.dropWhile_cons_of_neg (by simp [hc]), List.rdropWhile_eq_self_iff]
    intro hne
    have hend := hlast _ (List.getLast_mem_getLast? hne)
    simp [hend]

/-- A blank at the end makes no difference. -/
theorem trim_concat_blank {c : Char} (hc : isBlank c = true) (text : List Char) :
    trim (text ++ [c]) = trim text := by
  simp only [trim_eq_rdropWhile, List.dropWhile_append]
  split
  · next h =>
    rw [List.isEmpty_iff.mp h, List.dropWhile_cons_of_pos hc]
    rfl
  · rw [List.rdropWhile_concat_pos _ _ _ hc]

end Kenbak1
