/-
  Kenbak1.Console.Stroke

  Strokes as a keyboard sends them, byte by byte. A stroke is a character, a control
  character, or an escape sequence that stands for a key. A sequence may carry numbers: which
  key it is, which other keys are held down, and whether the key went down, repeats or went
  up. A sequence that makes no sense is dropped at the byte where that shows, and what
  follows counts anew.
-/
import Kenbak1.Blank
import Kenbak1.Console.Key
import Kenbak1.Numeral

namespace Kenbak1
namespace Stroke

/-! ## Sequences without numbers -/

/-- The stroke of a sequence that only has a final character. -/
def ofFinal? : Char → Option Stroke
  | 'A' => some (some .up)
  | 'B' => some (some .down)
  | 'C' | 'D' | 'F' | 'H' | 'I' | 'O' | 'P' | 'Q' | 'S' | 'Z' => some none
  | _ => none

/-- The stroke of a character after `ESC O`. -/
def ofShifted? : Char → Option Stroke
  | 'A' => some (some .up)
  | 'B' => some (some .down)
  | 'C' | 'D' | 'F' | 'H' | 'P' | 'Q' | 'R' | 'S' => some none
  | _ => none

/-- The stroke of a character after `ESC [ [`, which is a function key. -/
def ofFunction? (c : Char) : Option Stroke :=
  if 'A' ≤ c ∧ c ≤ 'E' then some none else none

/-! ## Numbers in sequences -/

/-- A number up to `greatest`. -/
def number? (greatest : Nat) (text : List Char) : Option Nat :=
  match readDecimal greatest text with
  | .ok n => some n
  | .error _ => none

/-- What happens to the key of a sequence. -/
structure Manner where
  /-- The key goes down. -/
  pressed : Bool := true
  /-- The shift key is held down. -/
  shifted : Bool := false

/-- Reads the second field of a sequence: one more than the sum of the keys held down, and
    after a colon 2 for a key that repeats and 3 for a key that goes up. -/
def manner? : List (List Char) → Option Manner
  | _ :: field :: _ =>
    match pieces (· == ':') field with
    | held :: rest => do
      let held ← number? 0xff held
      let event := (rest.head? >>= number? 0xff).getD 1
      return { pressed := event ≠ 2 ∧ event ≠ 3, shifted := (held - 1) % 2 = 1 }
    | [] => none
  | _ => none

/-- A key, if it goes down. -/
def Manner.apply (manner : Manner) (key : Option Key) : Stroke :=
  if manner.pressed then key else none

/-! ## Sequences with numbers -/

/-- The stroke of a sequence of an arrow or a function key. Without a readable second field
    the last character before the final one has to be a digit. -/
def ofModified? (body : List Char) (final : Char) : Option Stroke :=
  let manner := manner? (pieces (· == ';') body)
  let readable := manner.isSome || body.getLast?.any Char.isDigit
  if readable then
    match final with
    | 'A' => some ((manner.getD {}).apply (some .up))
    | 'B' => some ((manner.getD {}).apply (some .down))
    | 'C' | 'D' | 'F' | 'H' | 'P' | 'Q' | 'S' => some none
    | _ => none
  else none

/-- The stroke of a sequence of an editing or a function key, which means nothing to the
    console. -/
def ofEditing? (body : List Char) : Option Stroke := do
  let first ← (pieces (· == ';') body).head?
  let n ← number? 0xff first
  let known :=
    (1 ≤ n ∧ n ≤ 8) ∨ (11 ≤ n ∧ n ≤ 15) ∨ (17 ≤ n ∧ n ≤ 21) ∨ (23 ≤ n ∧ n ≤ 26)
      ∨ (28 ≤ n ∧ n ≤ 29) ∨ (31 ≤ n ∧ n ≤ 34)
  if known then some none else none

/-- The code points of the two shift keys. -/
def shiftKeys : List Nat := [57441, 57447]

/-- The key of a code point. The code points from 57399 on are those of the keypad. Other
    keys of the private range 57344 to 63743 mean nothing. -/
def ofCodePoint? (n : Nat) : Option Key :=
  if 57399 ≤ n ∧ n ≤ 57408 then Key.ofChar? (Char.ofNat (n - 57399 + 48))
  else if n = 57414 then some (.press .store)
  else if n = 57419 then some .up
  else if n = 57420 then some .down
  else Key.ofPlain? (Char.ofNat n)

/-- The stroke of a sequence of a code point. With shift held down, a second code point after
    a colon is the character typed. -/
def ofCoded? (body : List Char) : Option Stroke := do
  let fields := pieces (· == ';') body
  let points := pieces (· == ':') (← fields.head?)
  let point ← number? 0xffffffff (← points.head?)
  if ¬ point.isValidChar then none
  else
    let manner := (manner? fields).getD {}
    let shifted := manner.shifted || point ∈ shiftKeys
    match points.tail.head? >>= number? 0xffffffff with
    | some other =>
      if shifted ∧ other.isValidChar then
        some (manner.apply (Key.ofChar? (Char.ofNat other)))
      else some (manner.apply (ofCodePoint? point))
    | none => some (manner.apply (ofCodePoint? point))

/-- The stroke of a sequence that begins with a digit. A report of the pointer is a stroke,
    one of the cursor is not. -/
def ofNumbered? (body : List Char) : (final : Char) → Option Stroke
  | 'M' => some none
  | 'R' => none
  | '~' => ofEditing? body
  | 'u' => ofCoded? body
  | final => ofModified? body final

/-! ## Bytes -/

/-- Where a stroke stands that is being read. -/
inductive Pending where
  /-- Before a stroke. -/
  | idle
  /-- After an escape character. -/
  | escape
  /-- After `ESC O`. -/
  | shift
  /-- After `ESC [`. -/
  | sequence
  /-- After `ESC [ [`. -/
  | function
  /-- In a report of the pointer of which so many bytes are missing. -/
  | report (missing : Nat)
  /-- In a report of the pointer that ends with `M` or `m`. -/
  | pointer
  /-- In an answer of the terminal, which ends with `c`, or with `u` unless that is all. -/
  | answer (empty : Bool)
  /-- In a sequence with numbers; the characters so far, the last one first. -/
  | numbered (body : List Char)
  /-- In a text that is pasted; the characters so far, the last one first. -/
  | pasted (text : List Char)
  deriving DecidableEq

/-- The stroke of a byte that belongs to no sequence. Of the bytes of a character beyond ASCII
    the first is the stroke. -/
def ofByte (b : UInt8) : Option Stroke :=
  if 0x80 ≤ b ∧ b < 0xc0 then none else some (Key.ofTyped? (Char.ofNat b.toNat))

/-- The end of a text that is pasted, the last character first. -/
def pasteEnd : List Char := ['~', '1', '0', '2', '[', '\x1b']

/-- What a byte does to the stroke being read: where the reading stands afterwards, and the
    stroke if it is complete. -/
def Pending.feed (pending : Pending) (b : UInt8) : Pending × Option Stroke :=
  let c := Char.ofNat b.toNat
  match pending with
  | .idle => if c = '\x1b' then (.escape, none) else (.idle, ofByte b)
  | .escape =>
    if c = '[' then (.sequence, none)
    else if c = 'O' then (.shift, none)
    else if c = '\x1b' then (.idle, some none)
    else (.idle, ofByte b)
  | .shift => (.idle, ofShifted? c)
  | .sequence =>
    if c = '[' then (.function, none)
    else if c = 'M' then (.report 3, none)
    else if c = '<' then (.pointer, none)
    else if c = '?' then (.answer true, none)
    else if c.isDigit then (.numbered [c], none)
    else (.idle, ofFinal? c)
  | .function => (.idle, ofFunction? c)
  | .report missing => if missing ≤ 1 then (.idle, some none) else (.report (missing - 1), none)
  | .pointer => if c = 'M' ∨ c = 'm' then (.idle, some none) else (.pointer, none)
  | .answer empty =>
    if c = 'c' ∨ (c = 'u' ∧ ¬ empty) then (.idle, none) else (.answer false, none)
  | .numbered body =>
    if '@' ≤ c ∧ c ≤ '~' then
      if c = '~' ∧ body = ['0', '0', '2'] then (.pasted [], none)
      else (.idle, ofNumbered? body.reverse c)
    else (.numbered (c :: body), none)
  | .pasted text =>
    if pasteEnd.isPrefixOf (c :: text) then (.idle, some none) else (.pasted (c :: text), none)

/-- The strokes of bytes. -/
def ofBytes : Pending → List UInt8 → List Stroke
  | _, [] => []
  | pending, b :: rest =>
    let next := pending.feed b
    next.2.toList ++ ofBytes next.1 rest

/-- The strokes of a text that is typed. -/
def ofText (text : String) : List Stroke :=
  ofBytes .idle text.toUTF8.toList

end Stroke
end Kenbak1
