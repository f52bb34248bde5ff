/-
  Kenbak1.Proofs.Screen

  Where things are in a picture. A `box` has the width and the height that it was asked for,
  whatever is in it, so a row of text of a box (`getElem?_box`), and a row of the right one of two
  pictures side by side (`drop_getElem_beside`), are found by counting.
-/
import Kenbak1.Screen

namespace Kenbak1

theorem getElem?_fitTo {α : Type} {width i : Nat} (filler : α) (xs : List α) (h : i < width) :
    (fitTo width filler xs)[i]? = some (xs.getD i filler) := by
  rw [fitTo, List.getElem?_take_of_lt h, List.getD_eq_getElem?_getD]
  rcases Nat.lt_or_ge i xs.length with hin | hout
  · rw [List.getElem?_append_left hin, List.getElem?_eq_getElem hin, Option.getD_some]
  · have hfiller : i - xs.length < width - xs.length := by omega
    rw [List.getElem?_append_right hout, List.getElem?_eq_none hout, Option.getD_none,
      List.getElem?_replicate_of_lt hfiller]

theorem map_fitTo {α β : Type} (f : α → β) (width : Nat) (filler : α) (xs : List α) :
    (fitTo width filler xs).map f = fitTo width (f filler) (xs.map f) := by
  simp only [fitTo, List.map_take, List.map_append, List.map_replicate, List.length_map]

/-- The characters of a row of text in a box. -/
theorem chars_fit_whole (style : Style) (text : String) (width : Nat) :
    ((TextRow.whole style text).fit width).map (·.char) = fitTo width ' ' text.toList := by
  simp [TextRow.fit, TextRow.whole, styled, map_fitTo, Function.comp_def]

namespace Picture

variable {width height : Nat} {style : Style} {title : String} {rows : List TextRow}

/-! ## Sizes -/

theorem length_edge (h : 2 ≤ width) (left right : Char) :
    (edge width style left right title).length = width := by
  simp only [edge, List.length_append, List.length_cons, List.length_nil, length_fitTo]
  omega

theorem length_between (h : 2 ≤ width) (row : TextRow) :
    (between width style row).length = width := by
  simp only [between, TextRow.fit, List.length_append, List.length_cons, List.length_nil,
    length_fitTo]
  omega

theorem length_box (h : 2 ≤ height) : (box width height style title rows).length = height := by
  simp only [box, List.length_append, List.length_cons, List.length_nil, List.length_map,
    length_fitTo]
  omega

theorem length_of_mem_box (h : 2 ≤ width) {cells : List Cell}
    (hmem : cells ∈ box width height style title rows) : cells.length = width := by
  simp only [box, List.cons_append, List.mem_cons, List.mem_append, List.mem_map,
    List.not_mem_nil, or_false] at hmem
  rcases hmem with rfl | ⟨row, -, rfl⟩ | rfl
  · exact length_edge h _ _
  · exact length_between h row
  · exact length_edge h _ _

/-! ## Rows -/

/-- The rows of text of a `box` stand below its upper edge. -/
theorem getElem?_box {i : Nat} (h : i < height - 2) :
    (box width height style title rows)[i + 1]?
      = some (between width style (rows.getD i {})) := by
  have hin : i < ((fitTo (height - 2) {} rows).map (between width style)).length := by
    rw [List.length_map, length_fitTo]
    exact h
  rw [box, List.cons_append, List.getElem?_cons_succ, List.getElem?_append_left hin,
    List.getElem?_map, getElem?_fitTo _ _ h, Option.map_some]

/-- The text between the sides of a box. -/
theorem drop_one_between (row : TextRow) :
    (between width style row).drop 1 = row.fit (width - 2) ++ [{ char := '│', style }] := rfl

/-- A row of the right picture stands behind as many cells as the left one is wide (`beside`). -/
theorem drop_getElem_beside {left right : Picture} {i : Nat} {row : List Cell}
    (hleft : ∀ cells ∈ left, cells.length = width) (hheight : left.length = right.length)
    (hrow : right[i]? = some row) :
    ∃ cells, (beside left right)[i]? = some cells ∧ cells.drop width = row := by
  obtain ⟨hi, -⟩ := List.getElem?_eq_some_iff.mp hrow
  have hin : i < left.length := hheight ▸ hi
  refine ⟨left[i] ++ row, ?_, ?_⟩
  · rw [beside, List.getElem?_zipWith, List.getElem?_eq_getElem hin, hrow]
  · exact List.drop_left' (hleft _ (List.getElem_mem hin))

end Picture
end Kenbak1
