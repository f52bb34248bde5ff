/-
  Kenbak1.Console.View

  The console as a picture. On top, over the full width, the lamps. Below on the left, on 55
  columns of a hundred, the listing around P, the registers and the status line; on the
  right the memory and the keys. The screen is at least 22 rows high.
-/
import Kenbak1.Column
import Kenbak1.Console
import Kenbak1.Screen

namespace Kenbak1
namespace Console

/-! ## Lamps -/

/-- A lamp. -/
def lamp (lit : Bool) (color : Color) : List Cell :=
  if lit then styled (.strong color) " ● " else styled (.plain .gray) " ○ "

/-- The data lamps, bit 7 on the left. -/
def dataLamps (value : UInt8) : List Cell :=
  (List.finRange 8).reverse.flatMap fun bit =>
    lamp (value &&& bitMask bit != 0) .red

/-- The twelve lamps and their legend. -/
def lampRows (lamps : Lamps) : List TextRow :=
  [{ cells := dataLamps lamps.data ++ styled {} "   "
      ++ [lamps.input, lamps.address, lamps.memory, lamps.run].flatMap (lamp · .yellow) },
    { cells := styled (.plain .gray) " 7  6  5  4  3  2  1  0     IN ADR MEM RUN" }]

/-! ## Listing -/

/-- A row of the listing: a dot at a breakpoint, an arrow at P, the address and the line. -/
def listingRow (breakpoints : Breakpoints) (row : WindowRow) : TextRow :=
  let stops := breakpoints.contains row.address
  let style : Style :=
    if row.current then .strong .yellow else if stops then .plain .red else {}
  .whole style
    ((if stops then "●" else " ") ++ " " ++ (if row.current then "▶ " else "  ")
      ++ octal row.address ++ ": " ++ row.text)

/-! ## Registers -/

/-- Registers with their values. -/
def registerCells (bank : Bank) (rs : List Register) : List Cell :=
  rs.flatMap fun r =>
    styled {} (padLeft 3 r.name ++ ": ") ++ styled (.plain .white) (octal (bank.get r))
      ++ styled {} "   "

/-- The registers and the state of the machine. -/
def registerRows (m : Machine Memory) : List TextRow :=
  [{ cells := registerCells m.bank [.a, .b, .x, .p] },
    { cells := registerCells m.bank [.out, .oca, .ocb, .ocx] },
    { cells := registerCells m.bank [.input] },
    { cells := styled {} "Executed: " ++ styled (.plain .cyan) (toString m.executed)
        ++ styled {} "   Latch: " ++ styled (.plain .cyan) (octal m.latch)
        ++ styled {} "   State: "
        ++ styled (.plain (if m.isRunning then .green else .red)) m.state.label }]

/-! ## Memory -/

/-- The eight addresses from an address on. -/
def memoryRowAddresses (base : Nat) : List UInt8 :=
  (List.range 8).map fun i => (base + i).toUInt8

/-- The text of a row of memory: its first address and eight bytes. -/
def memoryRowText (base : Nat) (bytes : List UInt8) : String :=
  octal base.toUInt8 ++ ": " ++ joined " " (bytes.map octal)

/-- The row of memory that begins at an address. -/
def memoryRow (m : Machine Memory) (base : Nat) : TextRow :=
  let bytes := (m.readEach (memoryRowAddresses base)).1
  let p := m.bank.p.toNat
  let style : Style :=
    if base ≤ p ∧ p < base + 8 then .strong .yellow
    else if bytes.any (· ≠ 0) then .plain .white
    else .plain .gray
  .whole style (memoryRowText base bytes)

/-- The addresses at which the visible rows of memory begin. -/
def memoryBases (scroll rows : Nat) : List Nat :=
  ((List.range rows).map fun i => scroll - scroll % 8 + i * 8).takeWhile (· < memorySize)

/-- The visible rows of memory. -/
def memoryRows (c : Console) (rows : Nat) : List TextRow :=
  (memoryBases c.scroll rows).map (memoryRow c.panel.machine)

/-! ## Status and keys -/

/-- The status line. -/
def statusRows (status : Status) : List TextRow :=
  [.whole (.plain .white) status.text]

/-- What the keys do. -/
def helpRows : List TextRow :=
  ["0-7: Bits  Bksp: Clear  s: Set  d: Display",
    "r: Read  Enter: Store  g: Start  h: Stop",
    "n: Step  b: Breakpoint  x: Reset  ↑↓  q: Quit"].map (.whole (.plain .gray))

/-! ## The whole picture -/

/-- The width of the left column. -/
def leftWidth (width : Nat) : Nat :=
  width * 55 / 100

/-- The left column. -/
def leftColumn (c : Console) (width height : Nat) : Picture :=
  let lines := (c.window (height - 16)).1.map (listingRow c.breakpoints)
  Picture.box width (height - 14) (.plain .cyan) " Disassembly " lines
    ++ Picture.box width 7 (.plain .green) " Registers " (registerRows c.panel.machine)
    ++ Picture.box width 3 (.plain .white) " Status " (statusRows c.status)

/-- The right column. -/
def rightColumn (c : Console) (width height : Nat) : Picture :=
  Picture.box width (height - 9) (.plain .magenta) " Memory " (c.memoryRows (height - 11))
    ++ Picture.box width 5 (.plain .gray) " Help " helpRows

/-- The console on a screen. -/
def draw (c : Console) (width height : Nat) : Picture :=
  let left := leftWidth width
  Picture.box width 4 (.plain .red) " Kenbak-1 " (lampRows c.panel.lamps)
    ++ Picture.beside (c.leftColumn left height) (c.rightColumn (width - left) height)

end Console
end Kenbak1
