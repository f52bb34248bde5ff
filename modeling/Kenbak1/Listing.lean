/-
  Kenbak1.Listing

  Disassembly: the line at one address, and the listing of a whole memory. A register cell
  is listed as one byte under the register's name, every other address as the instruction
  whose opcode stands there.
-/
import Kenbak1.Column
import Kenbak1.Instruction.Text

namespace Kenbak1

/-! ## One line -/

/-- A line of a listing and the number of bytes it stands for. -/
structure Line where
  text : String
  size : Nat
  deriving DecidableEq

/-- The line at an address. Bytes are obtained through `fetch`, the opcode first and then,
    if there is one, the operand byte. -/
def disassemble {m : Type → Type} [Monad m] (fetch : UInt8 → m UInt8) (address : UInt8) :
    m Line :=
  match Register.ofAddress? address with
  | some r => pure { text := registerLine r, size := 1 }
  | none => do
    let instruction := decode (← fetch address)
    let operand ← if instruction.hasOperand then fetch (address + 1) else pure 0
    pure { text := instruction.text operand, size := instruction.size }

/-! ## A whole memory -/

/-- A row of a listing. -/
structure Row where
  address : Nat
  bytes : List UInt8
  text : String
  deriving DecidableEq

/-- The row that starts at an address. -/
def Row.at (fetch : UInt8 → UInt8) (address : Nat) : Row :=
  let line : Line := disassemble (m := Id) fetch address.toUInt8
  { address
    bytes := (List.range line.size).map fun i => fetch (address + i).toUInt8
    text := line.text }

/-- The rows from an address to the end of memory, at most `count` of them. Every row takes
    at least one byte. -/
def rowsFrom (fetch : UInt8 → UInt8) : (count address : Nat) → List Row
  | 0, _ => []
  | count + 1, address =>
    if address < 256 then
      let row := Row.at fetch address
      row :: rowsFrom fetch count (address + row.bytes.length)
    else []

/-- The rows of a memory image; bytes past its end count as zero. -/
def rows (image : Array UInt8) : List Row :=
  rowsFrom (fun address => image.getD address.toNat 0) 256 0

/-- A row with its octal address and bytes. -/
def Row.render (row : Row) : String :=
  octal row.address.toUInt8 ++ ": " ++ padRight 8 (joined " " (row.bytes.map octal)) ++ " "
    ++ row.text ++ "\n"

/-- What stands above the rows. -/
def listingHeader : String :=
  "; Kenbak-1 Disassembly\n; --------------------\n\n"

/-- The listing of a memory image. -/
def listing (image : Array UInt8) : String :=
  listingHeader ++ String.join ((rows image).map Row.render)

end Kenbak1
