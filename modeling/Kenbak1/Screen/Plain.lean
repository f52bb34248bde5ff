/-
  Kenbak1.Screen.Plain

  What is left of a text where nothing obeys it: its escape sequences and control characters
  are dropped. A sequence is a control sequence (`ESC [`, numbers, marks, a final character),
  a device string (`ESC P`), an operating system command (`ESC ]`), another string, or a
  short one. A sequence may be malformed, broken off by another, or never end.
-/

namespace Kenbak1

/-- Where a text stands with respect to sequences. -/
inductive Phase where
  /-- Outside of sequences. -/
  | ground
  /-- After an escape character. -/
  | escape
  /-- In the marks of a short sequence. -/
  | escapeMarks
  /-- After `ESC [`. -/
  | control
  /-- In the numbers of a control sequence. -/
  | controlNumbers
  /-- In the marks of a control sequence. -/
  | controlMarks
  /-- In a malformed control sequence. -/
  | controlMalformed
  /-- After `ESC P`. -/
  | device
  /-- In the numbers of a device string. -/
  | deviceNumbers
  /-- In the marks of a device string. -/
  | deviceMarks
  /-- In a malformed device string. -/
  | deviceMalformed
  /-- In the data of a device string. -/
  | deviceData
  /-- In an operating system command, which ends with a bell. -/
  | systemCommand
  /-- In another string. -/
  | string
  deriving DecidableEq

namespace Phase

/-! ## Classes of characters -/

/-- A mark within a sequence. -/
def isMark (c : Char) : Bool := ' ' ≤ c && c ≤ '/'

/-- A digit or a separator of numbers. -/
def isNumeric (c : Char) : Bool := '0' ≤ c && c ≤ ';'

/-- A mark that may only stand before the numbers of a sequence. -/
def isPrivate (c : Char) : Bool := '<' ≤ c && c ≤ '?'

/-- The final character of a control sequence. -/
def isFinal (c : Char) : Bool := '@' ≤ c && c ≤ '~'

/-- A control character that moves on in a text. -/
def isSpacing (c : Char) : Bool := c = '\t' || c = '\n' || c = '\x0c' || c = '\r'

/-- The byte that ends a string. -/
def stringEnd : UInt8 := 0x9c

/-- A character among whose bytes is the one that ends a string. -/
def hasStringEnd (c : Char) : Bool := (String.utf8EncodeChar c).contains stringEnd

/-! ## Phases -/

/-- The phase behind a character of ASCII that neither begins a sequence nor breaks it off. -/
def nextAscii (phase : Phase) (c : Char) : Phase :=
  match phase with
  | .ground => .ground
  | .escape =>
    if isMark c then .escapeMarks
    else if c = '[' then .control
    else if c = ']' then .systemCommand
    else if c = 'P' then .device
    else if c = 'X' ∨ c = '^' ∨ c = '_' then .string
    else if isNumeric c ∨ isPrivate c ∨ isFinal c then .ground
    else .escape
  | .escapeMarks =>
    if isNumeric c ∨ isPrivate c ∨ isFinal c then .ground else .escapeMarks
  | .control =>
    if isMark c then .controlMarks
    else if isNumeric c ∨ isPrivate c then .controlNumbers
    else if isFinal c then .ground
    else .control
  | .controlNumbers =>
    if isMark c then .controlMarks
    else if isPrivate c then .controlMalformed
    else if isFinal c then .ground
    else .controlNumbers
  | .controlMarks =>
    if isNumeric c ∨ isPrivate c then .controlMalformed
    else if isFinal c then .ground
    else .controlMarks
  | .controlMalformed => if isFinal c then .ground else .controlMalformed
  | .device =>
    if isMark c then .deviceMarks
    else if isNumeric c ∨ isPrivate c then .deviceNumbers
    else if isFinal c then .deviceData
    else .device
  | .deviceNumbers =>
    if isMark c then .deviceMarks
    else if isPrivate c then .deviceMalformed
    else if isFinal c then .deviceData
    else .deviceNumbers
  | .deviceMarks =>
    if isNumeric c ∨ isPrivate c then .deviceMalformed
    else if isFinal c then .deviceData
    else .deviceMarks
  | .deviceMalformed => .deviceMalformed
  | .deviceData => .deviceData
  | .systemCommand => if c = '\x07' then .ground else .systemCommand
  | .string => .string

/-- The phase behind a character. -/
def next (phase : Phase) (c : Char) : Phase :=
  if c = '\x1b' then .escape
  else if c = '\x18' ∨ c = '\x1a' then .ground
  else if c.toNat < 0x80 then phase.nextAscii c
  else
    match phase with
    | .deviceMalformed | .deviceData | .string => if hasStringEnd c then .ground else phase
    | _ => phase

/-- A character that is shown in this phase. Outside of strings spacing always is. -/
def shows (phase : Phase) (c : Char) : Bool :=
  match phase with
  | .ground => (' ' ≤ c && c ≠ '\x7f') || isSpacing c
  | .escape | .escapeMarks | .control | .controlNumbers | .controlMarks | .controlMalformed =>
      isSpacing c
  | .device | .deviceNumbers | .deviceMarks | .deviceMalformed | .deviceData
  | .systemCommand | .string => false

end Phase

/-! ## Texts -/

/-- How far the reading of a text has come. -/
structure PlainReading where
  phase : Phase := .ground
  /-- The last character was shown. -/
  shown : Bool := false
  deriving DecidableEq

/-- Reads a character. Behind spacing within a sequence everything is shown up to the next
    control character, which continues the sequence unless a character beyond ASCII has ended
    it. -/
def PlainReading.feed (reading : PlainReading) (c : Char) : PlainReading :=
  if reading.shown ∧ Phase.ground.shows c then
    { reading with phase := if c.toNat < 0x80 then reading.phase else .ground }
  else { phase := reading.phase.next c, shown := reading.phase.shows c }

/-- What is shown of the rest of a text. -/
def plainFrom : PlainReading → List Char → List Char
  | _, [] => []
  | reading, c :: rest =>
    let after := reading.feed c
    if after.shown then c :: plainFrom after rest else plainFrom after rest

/-- What is shown of a text. -/
def plain (text : String) : String :=
  String.ofList (plainFrom {} text.toList)

end Kenbak1
