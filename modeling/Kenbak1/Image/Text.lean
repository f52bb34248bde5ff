/-
  Kenbak1.Image.Text

  Program images as octal text. A line may begin with an address and a colon; then follow
  any number of bytes, each going to the next address, which is carried on to the following
  lines. A semicolon begins a comment.
-/
import Kenbak1.Blank
import Kenbak1.Image
import Kenbak1.Numeral

namespace Kenbak1
namespace Image

/-! ## Reading -/

/-- Reads an octal byte of a line. -/
def readNumber (line : Nat) (token : List Char) : Except ImageError UInt8 :=
  match readOctal token with
  | .ok value => .ok value
  | .error .malformed => .error (.notOctal line (String.ofList token))
  | .error .tooLarge => .error (.outOfRange line (String.ofList token))

/-- Reads the bytes of a line, the first going to `address`. Returns them with the address
    after them. Running past the end of memory is seen before a byte is looked at. -/
def readBytes (line : Nat) :
    (address : Nat) → List (List Char) → Except ImageError (List (UInt8 × UInt8) × Nat)
  | address, [] => .ok ([], address)
  | address, token :: rest =>
    if address < memorySize then do
      let value ← readNumber line token
      let (cells, next) ← readBytes line (address + 1) rest
      return ((address.toUInt8, value) :: cells, next)
    else .error (.pastEnd line)

/-- The part of a line before a comment, without the blanks around it. -/
def codeOf (line : List Char) : List Char :=
  trim (line.takeWhile (· ≠ ';'))

/-- Reads a line, its first byte going to `address` unless the line says otherwise. -/
def readLine (line address : Nat) (text : List Char) :
    Except ImageError (List (UInt8 × UInt8) × Nat) :=
  let code := codeOf text
  let head := code.takeWhile (· ≠ ':')
  match code.drop head.length with
  | [] => readBytes line address (words code)
  | _ :: tail => do
    let start ← readNumber line (trim head)
    readBytes line start.toNat (words tail)

/-- Reads lines, the first of them with the number `line`. -/
def readLines : (line address : Nat) → List (List Char) → Except ImageError (List (UInt8 × UInt8))
  | _, _, [] => .ok []
  | line, address, text :: rest => do
    let (cells, next) ← readLine line address text
    return cells ++ (← readLines (line + 1) next rest)

/-- Reads the text of an image whose first byte goes to `origin` unless the text says
    otherwise. -/
def parse (text : String) (origin : UInt8) : Except ImageError Image := do
  return { cells := ← readLines 1 origin.toNat (linesOf text.toList) }

/-! ## Writing -/

/-- The address after an address; there is none after 377. -/
def following (address : UInt8) : Option UInt8 :=
  if address = 0o377 then none else some (address + 1)

/-- Cells as text. A cell that goes on where the last one ended is put on the same line, up
    to eight on a line; every other cell begins a line with its address. -/
def cellsText : (next : Option UInt8) → (onLine : Nat) → List (UInt8 × UInt8) → List Char
  | _, _, [] => []
  | next, onLine, (address, value) :: rest =>
    if next ≠ some address ∨ onLine = 8 then
      '\n' :: octalDigits address ++ ':' :: ' ' :: octalDigits value
        ++ cellsText (following address) 1 rest
    else
      ' ' :: octalDigits value ++ cellsText (following address) (onLine + 1) rest

/-- The text of an image. -/
def render (image : Image) : String :=
  "; Kenbak-1 program image\n; " ++ toString image.size ++ " bytes\n"
    ++ String.ofList (cellsText none 0 image.cells) ++ "\n"

end Image
end Kenbak1
