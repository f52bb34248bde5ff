/-
  Kenbak1.Quoted

  Texts between quotes in messages. A quote, a backslash and a control character are
  escaped, and so is every character that cannot be seen standing by itself: one that
  prints nothing, or combines with the character before it.
-/
import Kenbak1.Character.Combining
import Kenbak1.Character.Unprinted

namespace Kenbak1

/-- A character that can be seen standing by itself. -/
def isVisible (c : Char) : Bool :=
  (0x20 ≤ c.toNat && c.toNat < 0x7F) || !(isCombining c || isUnprinted c)

/-- A character as it stands between quotes. -/
def quotedChar (c : Char) : String :=
  match c with
  | '\x00' => "\\0"
  | '\t' => "\\t"
  | '\n' => "\\n"
  | '\r' => "\\r"
  | '"' => "\\\""
  | '\\' => "\\\\"
  | c =>
    if isVisible c then c.toString
    else "\\u\x7b" ++ String.ofList (Nat.toDigits 16 c.toNat) ++ "\x7d"

/-- A text between quotes. -/
def quoted (text : String) : String :=
  "\"" ++ String.join (text.toList.map quotedChar) ++ "\""

end Kenbak1
