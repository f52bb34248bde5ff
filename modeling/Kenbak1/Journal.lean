/-
  Kenbak1.Journal

  The journal of a machine: what it did, in order, up to a chosen level of detail. A journal
  that is switched off stays empty.
-/
import Kenbak1.Button
import Kenbak1.Fault
import Kenbak1.Instruction.Text

namespace Kenbak1

/-- How much detail an entry is, the least first. -/
inductive Level where
  | error
  | debug
  | trace
  deriving DecidableEq

namespace Level

/-- The rank of a level: the more detail, the higher. -/
def rank : Level → Nat
  | .error => 0
  | .debug => 1
  | .trace => 2

/-- The name in the journal. -/
def name : Level → String
  | .error => "ERROR"
  | .debug => "DEBUG"
  | .trace => "TRACE"

end Level

/-- Something a machine did. -/
inductive Entry where
  /-- Executed an instruction that starts at an address, with its operand byte. -/
  | executed (address : UInt8) (instruction : Instruction) (operand : UInt8)
  /-- Halted at a halt instruction. -/
  | halted (address : UInt8)
  /-- Returned to the reset state. -/
  | reset
  /-- Was stopped or started from outside. -/
  | haltSet (halt : Bool)
  /-- Had a button pressed. -/
  | pressed (button : Button)
  /-- Had a number of bytes loaded, P standing at an address afterwards. -/
  | loaded (count : Nat) (start : UInt8)
  /-- Met an internal fault. -/
  | fault (f : Fault)
  deriving DecidableEq

namespace Entry

/-- The level of an entry. -/
def level : Entry → Level
  | .executed .. => .trace
  | .fault _ => .error
  | _ => .debug

/-- The text of an entry. -/
def text : Entry → String
  | .executed address instruction operand => octal address ++ ": " ++ instruction.text operand
  | .halted address => "HALT at " ++ octal address
  | .reset => "cpu reset"
  | .haltSet halt => "halt " ++ if halt then "set" else "cleared"
  | .pressed button => "button " ++ button.label
  | .loaded count start => "loaded " ++ toString count ++ " bytes, P=" ++ octal start
  | .fault f => f.message

/-- An entry as a line: its level and its text. -/
def line (e : Entry) : String :=
  e.level.name ++ " " ++ e.text

end Entry

/-- A journal: the most detail it keeps, and what it kept, oldest first. -/
structure Journal where
  /-- Absent when the journal is switched off. -/
  detail : Option Level := none
  entries : Array Entry := #[]

namespace Journal

/-- The journal that is switched off. -/
def off : Journal := {}

/-- Whether entries of a level are kept. -/
def keeps (j : Journal) (level : Level) : Bool :=
  match j.detail with
  | some detail => level.rank ≤ detail.rank
  | none => false

/-- The journal with one more entry, if it is kept. -/
def note (j : Journal) (entry : Entry) : Journal :=
  if j.keeps entry.level then { j with entries := j.entries.push entry } else j

@[simp] theorem note_off (entry : Entry) : off.note entry = off := rfl

end Journal

end Kenbak1
