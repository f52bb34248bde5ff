/-
  Kenbak1.Screen.Escape

  Pictures as the escape sequences that make a terminal show them.
-/
import Kenbak1.Column
import Kenbak1.Screen

namespace Kenbak1

/-- The number that selects a colour. -/
def Color.selector : Color → Nat
  | .red => 31
  | .green => 32
  | .yellow => 33
  | .cyan => 36
  | .magenta => 35
  | .white => 37
  | .gray => 90

/-- The sequence that selects a style, whatever was selected before. -/
def Style.selector (style : Style) : String :=
  "\x1b[0" ++ (if style.bold then ";1" else "")
    ++ (match style.color with
        | some color => ";" ++ toString color.selector
        | none => "") ++ "m"

/-- The sequence that returns to the style of the screen. -/
def resetStyle : String := "\x1b[0m"

/-- A text in a style, between the sequences that select it and return from it. -/
def marked (style : Style) (text : String) : String :=
  style.selector ++ text ++ resetStyle

/-- The sequences of a row of cells. -/
def cellSequences (cells : List Cell) : String :=
  String.join (cells.map fun cell => cell.style.selector ++ cell.char.toString)

/-- The sequences that show a picture from the first cell of the screen on. -/
def screenSequences (picture : Picture) : String :=
  "\x1b[H" ++ joined "\r\n" (picture.map cellSequences) ++ resetStyle

/-- Changes to the screen of a program. -/
def enterScreen : String := "\x1b[?1049h\x1b[?25l"

/-- Changes back, and shows the cursor. -/
def leaveScreen : String := "\x1b[?1049l\x1b[?25h"

end Kenbak1
