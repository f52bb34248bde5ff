/-
  Kenbak1.Register

  The nine registers of the Kenbak-1 and their places in the 256-byte address space. The
  registers have no storage of their own in the programmer's view: each answers at a fixed
  address, in place of the memory cell behind it.
-/
import Kenbak1.Dump
import Kenbak1.Numeral

namespace Kenbak1

/-- A register, in bank order. -/
inductive Register where
  /-- First accumulator. -/
  | a
  /-- Second accumulator. -/
  | b
  /-- Index register. -/
  | x
  /-- Program counter. -/
  | p
  /-- Output, shown on the data lamps. -/
  | out
  /-- Overflow and carry of A. -/
  | oca
  /-- Overflow and carry of B. -/
  | ocb
  /-- Overflow and carry of X. -/
  | ocx
  /-- Input, set by the data buttons. -/
  | input
  deriving DecidableEq

namespace Register

/-- Every register, in bank order. -/
def all : List Register :=
  [.a, .b, .x, .p, .out, .oca, .ocb, .ocx, .input]

/-- The address a register answers at. -/
def address : Register → UInt8
  | .a => 0o000
  | .b => 0o001
  | .x => 0o002
  | .p => 0o003
  | .out => 0o200
  | .oca => 0o201
  | .ocb => 0o202
  | .ocx => 0o203
  | .input => 0o377

/-- The register that answers at an address, if there is one. -/
def ofAddress? (address : UInt8) : Option Register :=
  match address with
  | 0o000 => some .a
  | 0o001 => some .b
  | 0o002 => some .x
  | 0o003 => some .p
  | 0o200 => some .out
  | 0o201 => some .oca
  | 0o202 => some .ocb
  | 0o203 => some .ocx
  | 0o377 => some .input
  | _ => none

/-- The name on listings and on the front panel. -/
def name : Register → String
  | .a => "A"
  | .b => "B"
  | .x => "X"
  | .p => "P"
  | .out => "OUT"
  | .oca => "OCA"
  | .ocb => "OCB"
  | .ocx => "OCX"
  | .input => "IN"

/-- The name in stored data and diagnostics. -/
def label : Register → String
  | .a => "A"
  | .b => "B"
  | .x => "X"
  | .p => "P"
  | .out => "Out"
  | .oca => "Oca"
  | .ocb => "Ocb"
  | .ocx => "Ocx"
  | .input => "In"

@[simp] theorem ofAddress?_address (r : Register) : ofAddress? r.address = some r := by
  cases r <;> rfl

theorem mem_all (r : Register) : r ∈ all := by
  cases r <;> decide

end Register

/-- An address of general-purpose memory: one of the two bands 004 to 177 and 204 to 376. -/
def isRam (address : UInt8) : Bool :=
  (0o004 ≤ address && address ≤ 0o177) || (0o204 ≤ address && address ≤ 0o376)

/-- The nine register cells. -/
structure Bank where
  a : UInt8 := 0
  b : UInt8 := 0
  x : UInt8 := 0
  p : UInt8 := 0
  out : UInt8 := 0
  oca : UInt8 := 0
  ocb : UInt8 := 0
  ocx : UInt8 := 0
  input : UInt8 := 0
  deriving DecidableEq

namespace Bank

/-- All registers zero. -/
def zero : Bank := {}

/-- The value of a register. -/
def get (bank : Bank) : Register → UInt8
  | .a => bank.a
  | .b => bank.b
  | .x => bank.x
  | .p => bank.p
  | .out => bank.out
  | .oca => bank.oca
  | .ocb => bank.ocb
  | .ocx => bank.ocx
  | .input => bank.input

/-- The bank with one register changed. -/
def set (bank : Bank) (r : Register) (value : UInt8) : Bank :=
  match r with
  | .a => { bank with a := value }
  | .b => { bank with b := value }
  | .x => { bank with x := value }
  | .p => { bank with p := value }
  | .out => { bank with out := value }
  | .oca => { bank with oca := value }
  | .ocb => { bank with ocb := value }
  | .ocx => { bank with ocx := value }
  | .input => { bank with input := value }

/-- The values in bank order. -/
def toList (bank : Bank) : List UInt8 :=
  Register.all.map bank.get

/-- The bank that holds nine values, given in bank order. -/
def ofList? : List UInt8 → Option Bank
  | [a, b, x, p, out, oca, ocb, ocx, input] => some { a, b, x, p, out, oca, ocb, ocx, input }
  | _ => none

/-- P moves on by one, after 377 to 000. -/
def advance (bank : Bank) : Bank :=
  { bank with p := bank.p + 1 }

/-- P moves to an address. -/
def jump (bank : Bank) (address : UInt8) : Bank :=
  { bank with p := address }

/-- The diagnostic form. -/
def dump (bank : Bank) : Dump :=
  .map (Register.all.map fun r => (r.name, .word (octal (bank.get r))))

theorem get_set_same (bank : Bank) (r : Register) (v : UInt8) : (bank.set r v).get r = v := by
  cases r <;> rfl

theorem get_set_of_ne (bank : Bank) {r q : Register} (v : UInt8) (h : q ≠ r) :
    (bank.set r v).get q = bank.get q := by
  cases r <;> cases q <;> first | rfl | exact absurd rfl h

theorem ofList?_toList (bank : Bank) : ofList? bank.toList = some bank := rfl

end Bank

end Kenbak1
