/-
  Kenbak1.Lamps

  The twelve lamps of the front panel: eight data lamps, three mode lamps of which at most
  one is lit by the panel, and the run lamp. The lamp word holds the data lamps in bits 0 to
  7 and INPUT, ADDRESS, MEMORY and RUN in bits 8 to 11.
-/
import Kenbak1.Dump
import Kenbak1.Notice

namespace Kenbak1

/-- The three mode lamps. -/
inductive ModeLamp where
  | input
  | address
  | memory
  deriving DecidableEq

/-- The lamps. -/
structure Lamps where
  data : UInt8 := 0
  input : Bool := false
  address : Bool := false
  memory : Bool := false
  run : Bool := false
  /-- Bits 12 to 15 of a lamp word from outside. No lamp is wired to them. -/
  spare : Fin 16 := ⟨0, by decide⟩
  deriving DecidableEq

namespace Lamps

/-! ## The lamp word -/

/-- The bit of the INPUT lamp in the lamp word. -/
def inputMask : UInt16 := 0x100

/-- The bit of the ADDRESS lamp in the lamp word. -/
def addressMask : UInt16 := 0x200

/-- The bit of the MEMORY lamp in the lamp word. -/
def memoryMask : UInt16 := 0x400

/-- The bit of the RUN lamp in the lamp word. -/
def runMask : UInt16 := 0x800

/-- The lamp word. -/
def word (lamps : Lamps) : UInt16 :=
  UInt16.ofNat (lamps.data.toNat + 0x100 * lamps.input.toNat + 0x200 * lamps.address.toNat
    + 0x400 * lamps.memory.toNat + 0x800 * lamps.run.toNat + 0x1000 * lamps.spare.val)

/-- The lamps a lamp word stands for. -/
def ofWord (w : UInt16) : Lamps where
  data := w.toUInt8
  input := w &&& inputMask != 0
  address := w &&& addressMask != 0
  memory := w &&& memoryMask != 0
  run := w &&& runMask != 0
  spare := Fin.ofNat 16 (w.toNat / 0x1000)

/-- Whether some lamp of a mask is lit. -/
def isLit (lamps : Lamps) (mask : UInt16) : Bool :=
  lamps.word &&& mask != 0

/-- The diagnostic form. -/
def dump (lamps : Lamps) : Dump :=
  .apply "Lamps" [.number lamps.word.toNat]

/-! ## Changes -/

/-- Shows a byte on the data lamps. -/
def display (lamps : Lamps) (value : UInt8) : Lamps :=
  { lamps with data := value }

/-- Lights one mode lamp, or none, and darkens the others. -/
def select (lamps : Lamps) (mode : Option ModeLamp) : Lamps :=
  { lamps with
    input := mode = some .input
    address := mode = some .address
    memory := mode = some .memory }

/-- The data lamps follow the output register, the run lamp the halt flag. -/
instance : Observer Lamps where
  notify lamps
    | .out value => lamps.display value
    | .halt halted => { lamps with run := !halted }

end Lamps

end Kenbak1
