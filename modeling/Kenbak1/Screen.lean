/-
  Kenbak1.Screen

  Pictures in character cells: rows of coloured text, boxes around them, and pictures side
  by side. Every character takes one cell.
-/

namespace Kenbak1

/-- A colour of a character. -/
inductive Color where
  | red
  | green
  | yellow
  | cyan
  | magenta
  | white
  | gray
  deriving DecidableEq

/-- How a character is drawn; without a colour, in that of the screen. -/
structure Style where
  color : Option Color := none
  bold : Bool := false
  deriving DecidableEq

namespace Style

/-- A colour, not bold. -/
def plain (color : Color) : Style :=
  { color := some color }

/-- A colour, bold. -/
def strong (color : Color) : Style :=
  { color := some color, bold := true }

end Style

/-- A cell of a screen. -/
structure Cell where
  char : Char := ' '
  style : Style := {}
  deriving DecidableEq

/-- A text in one style. -/
def styled (style : Style) (text : String) : List Cell :=
  text.toList.map fun char => { char, style }

/-- The text of cells. -/
def textOf (cells : List Cell) : String :=
  String.ofList (cells.map (·.char))

/-- The first `width` of a list, filled up with `filler` if it is shorter. -/
def fitTo {α : Type} (width : Nat) (filler : α) (xs : List α) : List α :=
  (xs ++ List.replicate (width - xs.length) filler).take width

theorem length_fitTo {α : Type} (width : Nat) (filler : α) (xs : List α) :
    (fitTo width filler xs).length = width := by
  simp [fitTo]; omega

theorem fitTo_of_length_le {α : Type} {width : Nat} (filler : α) {xs : List α}
    (h : xs.length ≤ width) :
    fitTo width filler xs = xs ++ List.replicate (width - xs.length) filler := by
  rw [fitTo, List.take_of_length_le]
  simp; omega

/-! ## Rows of text -/

/-- A row of text, and the style of the cells to its right. -/
structure TextRow where
  cells : List Cell := []
  beyond : Style := {}

namespace TextRow

/-- A row in one style from end to end. -/
def whole (style : Style) (text : String) : TextRow :=
  { cells := styled style text, beyond := style }

/-- The row cut or filled up to a width. -/
def fit (row : TextRow) (width : Nat) : List Cell :=
  fitTo width { style := row.beyond } row.cells

end TextRow

/-! ## Pictures -/

/-- A picture: its rows, from the top. -/
abbrev Picture := List (List Cell)

namespace Picture

/-- A horizontal edge of a box between two corners, with a title at its second cell. -/
def edge (width : Nat) (style : Style) (left right : Char) (title : String) : List Cell :=
  { char := left, style } ::
    fitTo (width - 2) { char := '─', style } (styled style title) ++ [{ char := right, style }]

/-- A row of text between the sides of a box. -/
def between (width : Nat) (style : Style) (row : TextRow) : List Cell :=
  { char := '│', style } :: row.fit (width - 2) ++ [{ char := '│', style }]

/-- A box, at least two cells wide and high, around rows of text. What does not fit inside is
    cut off; what is left over is blank. -/
def box (width height : Nat) (style : Style) (title : String) (rows : List TextRow) : Picture :=
  edge width style '┌' '┐' title ::
    (fitTo (height - 2) {} rows).map (between width style) ++ [edge width style '└' '┘' ""]

/-- Two pictures of one height side by side. -/
def beside (left right : Picture) : Picture :=
  List.zipWith (· ++ ·) left right

end Picture

end Kenbak1
