/-
  Kenbak1.Console.Key

  The console at the keyboard. Every stroke is one turn of the console, whether its key means
  anything or not.
-/
import Kenbak1.Console

namespace Kenbak1

/-- A key that means something to the console. -/
inductive Key where
  | press (button : Button)
  /-- Execute one instruction. -/
  | step
  /-- Set or remove a breakpoint at P. -/
  | breakpoint
  | reset
  /-- Scroll the memory view towards the first address. -/
  | up
  /-- Scroll the memory view towards the last address. -/
  | down
  | quit
  deriving DecidableEq

namespace Key

/-- The key of a character. -/
def ofChar? : Char → Option Key
  | '0' => some (.press (.bit 0))
  | '1' => some (.press (.bit 1))
  | '2' => some (.press (.bit 2))
  | '3' => some (.press (.bit 3))
  | '4' => some (.press (.bit 4))
  | '5' => some (.press (.bit 5))
  | '6' => some (.press (.bit 6))
  | '7' => some (.press (.bit 7))
  | 'd' => some (.press .display)
  | 's' => some (.press .set)
  | 'r' => some (.press .read)
  | 'g' => some (.press .start)
  | 'h' => some (.press .stop)
  | 'n' => some .step
  | 'b' => some .breakpoint
  | 'x' => some .reset
  | 'q' => some .quit
  | _ => none

/-- The key of a character that the enter and the erase key send, or that stands for itself. -/
def ofPlain? (c : Char) : Option Key :=
  if c = '\r' then some (.press .store)
  else if c = '\x7f' then some (.press .clear)
  else ofChar? c

/-- The key of a character as the keyboard sends it. A control character counts as the
    character it is typed with. -/
def ofTyped? (c : Char) : Option Key :=
  let n := c.toNat
  if c = '\r' then ofPlain? c
  else if 0x01 ≤ n ∧ n ≤ 0x1a then ofChar? (Char.ofNat (n + 0x60))
  else if 0x1c ≤ n ∧ n ≤ 0x1f then ofChar? (Char.ofNat (n + 0x18))
  else ofPlain? c

end Key

/-- A stroke at the keyboard: its key, if that means something to the console. -/
abbrev Stroke := Option Key

namespace Console

section Turns

variable {μ : Type → Type} [Monad μ] (step tick : Console → μ Console)

/-- Does what a key means. -/
def handleBy (c : Console) : Key → μ Console
  | .press button => pure (c.press button)
  | .step => step c
  | .breakpoint => pure c.toggleBreakpoint
  | .reset => pure c.reset
  | .up => pure { c with scroll := c.scroll - 8 }
  | .down => pure (if c.scroll + 8 < memorySize then { c with scroll := c.scroll + 8 } else c)
  | .quit => pure c

/-- One turn: at most one key, and then a tick. -/
def turnBy (c : Console) : Stroke → μ Console
  | some key => do tick (← handleBy step c key)
  | none => tick c

/-- Turns up to the key that quits. The console is as it was last shown. -/
def playBy : Console → List Stroke → μ Console
  | c, [] => pure c
  | c, some .quit :: _ => pure c
  | c, stroke :: rest => do playBy (← turnBy step tick c stroke) rest

end Turns

/-- Does what a key means. -/
def handle (c : Console) (key : Key) : Console :=
  handleBy (μ := Id) step c key

/-- One turn: at most one key, and then a tick. -/
def turn (c : Console) (stroke : Stroke) : Console :=
  turnBy (μ := Id) step tick c stroke

/-- One turn, broken off where a counter overflows. -/
def tryTurn (c : Console) (stroke : Stroke) : Except (Machine.Failure Memory Lamps) Console :=
  turnBy tryStep tryTick c stroke

/-- Turns up to the key that quits, broken off where a counter overflows. -/
def tryPlay (c : Console) (strokes : List Stroke) :
    Except (Machine.Failure Memory Lamps) Console :=
  playBy tryStep tryTick c strokes

end Console

end Kenbak1
