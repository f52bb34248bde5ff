/-
  Kenbak1.Column

  Texts set in columns of a fixed width, and lists of texts with a separator between them.
-/

namespace Kenbak1

/-- A text filled up with blanks on the right to at least `width` characters. -/
def padRight (width : Nat) (text : String) : String :=
  text ++ String.ofList (List.replicate (width - text.length) ' ')

/-- A text filled up with blanks on the left to at least `width` characters. -/
def padLeft (width : Nat) (text : String) : String :=
  String.ofList (List.replicate (width - text.length) ' ') ++ text

/-- Texts one after another with `separator` between them. -/
def joined (separator : String) (texts : List String) : String :=
  separator.intercalate texts

/-- Behind the first text, each one stands behind a separator. -/
theorem toList_joined {separator : String} {c : Char} (h : separator.toList = [c]) (text : String)
    (texts : List String) :
    (joined separator (text :: texts)).toList
      = text.toList ++ texts.flatMap fun next => c :: next.toList := by
  rw [joined, String.toList_intercalate, h]
  induction texts generalizing text with
  | nil => simp
  | cons next rest ih =>
    rw [List.map_cons, List.map_cons, List.intercalate_cons_cons, ← List.map_cons, ih,
      List.flatMap_cons]
    simp

end Kenbak1
