/-
  Kenbak1.Image

  Program images: bytes and the addresses they go to, in the order in which they are
  written. An address may be written twice, and may be a register's.
-/
import Kenbak1.Dump
import Kenbak1.Files
import Kenbak1.Memory

namespace Kenbak1

/-- A program image. -/
structure Image where
  cells : List (UInt8 × UInt8) := []
  deriving DecidableEq

/-- Why an image cannot be read or written. -/
inductive ImageError where
  /-- The file cannot be read or written. -/
  | file (fault : FileFault)
  /-- A token is no octal number. -/
  | notOctal (line : Nat) (token : String)
  /-- A byte would go behind address 377. -/
  | pastEnd (line : Nat)
  /-- A token is above 377. -/
  | outOfRange (line : Nat) (token : String)
  /-- A run of bytes goes behind address 377. -/
  | tooLarge (origin : UInt8) (size : Nat)
  deriving DecidableEq

namespace ImageError

/-- A text that cannot be read, with its line. -/
def parseText (line : Nat) (reason : String) : String :=
  "parse error on line " ++ toString line ++ ": " ++ reason

/-- The report of an error. -/
def message : ImageError → String
  | .file fault => "I/O error: " ++ fault.message
  | .notOctal line token => parseText line ("'" ++ token ++ "' is not an octal number")
  | .pastEnd line => parseText line "image runs past address 377"
  | .outOfRange line token =>
      "value " ++ token ++ " on line " ++ toString line ++ " does not fit in a byte"
  | .tooLarge origin size =>
      toString size ++ " bytes starting at " ++ octal origin ++ " do not fit in memory"

end ImageError

namespace Image

/-- The image without bytes. -/
def empty : Image := {}

/-- The number of bytes. -/
def size (image : Image) : Nat :=
  image.cells.length

/-- The image writes nothing. -/
def isEmpty (image : Image) : Bool :=
  image.cells.isEmpty

/-- The image with one more byte. -/
def push (image : Image) (address value : UInt8) : Image :=
  { cells := image.cells ++ [(address, value)] }

/-- A run of bytes at consecutive addresses. -/
def cellsFrom (address : UInt8) : List UInt8 → List (UInt8 × UInt8)
  | [] => []
  | byte :: rest => (address, byte) :: cellsFrom (address + 1) rest

/-- The image of a run of bytes that fits into memory at its origin. -/
def ofBytes (origin : UInt8) (bytes : List UInt8) : Except ImageError Image :=
  if origin.toNat + bytes.length > memorySize then .error (.tooLarge origin bytes.length)
  else .ok { cells := cellsFrom origin bytes }

/-- The lowest address the image writes that is no register's. -/
def origin? (image : Image) : Option UInt8 :=
  ((image.cells.map (·.1)).filter isRam).min?

/-- Cells with the bytes of the image written over them; bytes without a cell are dropped. -/
def apply (image : Image) (cells : Array UInt8) : Array UInt8 :=
  image.cells.foldl (fun cells cell => cells.setIfInBounds cell.1.toNat cell.2) cells

/-- The diagnostic form. -/
def dump (image : Image) : Dump :=
  .record "ProgramImage"
    [("cells", .list (image.cells.map fun cell =>
      .apply "" [.number cell.1.toNat, .number cell.2.toNat]))]

end Image

end Kenbak1
