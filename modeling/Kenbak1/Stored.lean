/-
  Kenbak1.Stored

  The forms in which the machine's data is stored as JSON and read back, and its diagnostic
  forms. Registers and memory are lists of bytes under the key `cells`; an instruction has
  its fields as members, absent ones as `null`.
-/
import Kenbak1.Button
import Kenbak1.Json
import Kenbak1.Json.Typed
import Kenbak1.Lamps
import Kenbak1.Machine

namespace Kenbak1

open Json (Reader RecordForm Variant)

/-! ## Plain names -/

/-- The variants of a type whose values are written as their labels. -/
def labelled {α : Type} (all : List α) (label : α → String) : List (String × Variant α) :=
  all.map fun value => (label value, .bare value)

/-- Reads a register. -/
def Register.reader : Reader Register :=
  Reader.variant (labelled all label)

/-- Reads an operation. -/
def Operation.reader : Reader Operation :=
  Reader.variant (labelled all label)

/-- Reads an addressing mode. -/
def Mode.reader : Reader Mode :=
  Reader.variant (labelled all label)

/-- Reads a jump condition. -/
def Condition.reader : Reader Condition :=
  Reader.variant (labelled all label)

/-- Reads a run state. -/
def RunState.reader : Reader RunState :=
  Reader.variant (labelled all label)

/-! ## Buttons -/

namespace Button

/-- The button as JSON. -/
def toJson : Button → Json
  | .bit number => .object [("Bit", .byte number)]
  | button => .text button.label

/-- Reads a button. -/
def reader : Reader Button :=
  Reader.variant
    (("Bit", .ofByte .bit) ::
      labelled [.clear, .display, .set, .read, .store, .start, .stop] label)

end Button

/-! ## Lamps -/

namespace Lamps

/-- The lamps as JSON: the lamp word. -/
def toJson (lamps : Lamps) : Json :=
  .number lamps.word.toNat

/-- Reads lamps. -/
def reader : Reader Lamps := do
  return ofWord (← Reader.word16)

end Lamps

/-! ## Registers and memory -/

/-- A record with the one field `cells`. -/
def cellsForm {ρ : Type} (name : String) (initial : ρ) (read : Reader ρ) : RecordForm ρ where
  name
  fields := [{ key := "cells", required := true, read := fun _ => read }]
  initial
  lenient := false

/-- Bytes under the key `cells`. -/
def cellsJson (cells : List UInt8) : Json :=
  .object [("cells", .list (cells.map .byte))]

namespace Bank

/-- The registers as JSON, in bank order. -/
def toJson (bank : Bank) : Json :=
  cellsJson bank.toList

/-- Reads registers. -/
def reader : Reader Bank :=
  Reader.record (cellsForm "Registers" zero do
    return (ofList? (← Reader.byteArray Register.all.length)).getD zero)

end Bank

namespace Memory

/-- The memory as JSON. -/
def toJson (m : Memory) : Json :=
  cellsJson m.cells.toList

/-- Reads a memory, of whatever number of cells. -/
def reader : Reader Memory :=
  Reader.record (cellsForm "Memory" zero do
    return { cells := (← Reader.bytes).toArray })

end Memory

/-! ## Instructions -/

namespace Instruction

/-- The instruction as JSON. -/
def toJson (i : Instruction) : Json :=
  .object [
    ("opcode", .byte i.opcode),
    ("function", .text i.operation.label),
    ("mode", .option (fun m => .text (Mode.label m)) i.mode),
    ("register", .option (fun r => .text (Register.label r)) i.register),
    ("bit", .option .byte i.bit),
    ("condition", .option (fun c => .text (Condition.label c)) i.condition),
    ("mark", .bool i.mark)]

/-- How an instruction is read: operation, opcode and mark may not be missing. -/
def form : RecordForm Instruction where
  name := "Instruction"
  fields := [
    { key := "opcode", required := true
      read := fun i => do return { i with opcode := ← Reader.byte } },
    { key := "function", required := true
      read := fun i => do return { i with operation := ← Operation.reader } },
    { key := "mode", required := false
      read := fun i => do return { i with mode := ← Reader.optional Mode.reader } },
    { key := "register", required := false
      read := fun i => do return { i with register := ← Reader.optional Register.reader } },
    { key := "bit", required := false
      read := fun i => do return { i with bit := ← Reader.optional Reader.byte } },
    { key := "condition", required := false
      read := fun i => do return { i with condition := ← Reader.optional Condition.reader } },
    { key := "mark", required := true
      read := fun i => do return { i with mark := ← Reader.bool } }]
  initial := { opcode := 0, operation := .halt }
  lenient := false

/-- Reads an instruction. -/
def reader : Reader Instruction :=
  Reader.record form

/-- The diagnostic form. -/
def dump (i : Instruction) : Dump :=
  .record "Instruction"
    [("opcode", .number i.opcode.toNat), ("function", .word i.operation.label),
      ("mode", .option (i.mode.map fun m => .word m.label)),
      ("register", .option (i.register.map fun r => .word r.label)),
      ("bit", .option (i.bit.map fun n => .number n.toNat)),
      ("condition", .option (i.condition.map fun c => .word c.label)),
      ("mark", .bool i.mark)]

end Instruction

end Kenbak1
