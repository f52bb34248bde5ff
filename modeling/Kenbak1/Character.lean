/-
  Kenbak1.Character

  Classes of characters as ranges of code points.
-/

namespace Kenbak1

/-- Ranges of code points, each with its first and its last. -/
abbrev CharacterRanges := List (Nat × Nat)

namespace CharacterRanges

/-- A character that lies in one of the ranges. -/
def holds (ranges : CharacterRanges) (c : Char) : Bool :=
  ranges.any fun range => range.1 ≤ c.toNat && c.toNat ≤ range.2

/-- No range is reversed, and between two neighbours at least one code point is left out. -/
def Ascending : CharacterRanges → Prop
  | [] => True
  | [range] => range.1 ≤ range.2
  | range :: next :: rest =>
    range.1 ≤ range.2 ∧ range.2 + 1 < next.1 ∧ Ascending (next :: rest)

/-- Whether ranges are ascending can be decided one after another. -/
instance decidableAscending : (ranges : CharacterRanges) → Decidable ranges.Ascending
  | [] => isTrue trivial
  | [range] => inferInstanceAs (Decidable (range.1 ≤ range.2))
  | range :: next :: rest =>
    have := decidableAscending (next :: rest)
    inferInstanceAs
      (Decidable (range.1 ≤ range.2 ∧ range.2 + 1 < next.1 ∧ Ascending (next :: rest)))

end CharacterRanges

end Kenbak1
