/-
  Kenbak1.Blank

  White space, and texts divided at white space or at one character. The characters are
  those with the Unicode property White_Space.
-/

namespace Kenbak1

/-- A character with the property White_Space. -/
def isBlank (c : Char) : Bool :=
  let n := c.toNat
  (0x09 ≤ n && n ≤ 0x0D) || n == 0x20 || n == 0x85 || n == 0xA0 || n == 0x1680
    || (0x2000 ≤ n && n ≤ 0x200A) || n == 0x2028 || n == 0x2029 || n == 0x202F
    || n == 0x205F || n == 0x3000

/-- A text without the blanks at its beginning. -/
def trimLeft (text : List Char) : List Char :=
  text.dropWhile isBlank

/-- A text without the blanks at its beginning and end. -/
def trim (text : List Char) : List Char :=
  (trimLeft (trimLeft text).reverse).reverse

/-- The pieces of a text between the characters with a property; always at least one piece. -/
def pieces (divides : Char → Bool) : List Char → List (List Char)
  | [] => [[]]
  | c :: rest =>
    if divides c then [] :: pieces divides rest
    else
      match pieces divides rest with
      | [] => [[c]]
      | piece :: more => (c :: piece) :: more

/-- The words of a text, which blanks separate. -/
def words (text : List Char) : List (List Char) :=
  (pieces isBlank text).filter (· ≠ [])

/-- The lines of a text, which line feeds separate. A carriage return before a line feed
    stays with its line; it is white space. -/
def linesOf (text : List Char) : List (List Char) :=
  pieces (· == '\n') text

end Kenbak1
