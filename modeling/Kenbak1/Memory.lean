/-
  Kenbak1.Memory

  The 256 memory cells, and the bus through which a machine reaches whatever stands in
  their place.
-/
import Kenbak1.Dump
import Kenbak1.Fault
import Kenbak1.Register

namespace Kenbak1

/-! ## The bus -/

/-- Byte-wide access to a memory. Reading may change the memory too. -/
class Bus (β : Type) where
  read : β → UInt8 → UInt8 × β
  write : β → UInt8 → UInt8 → β

/-! ## Plain memory -/

/-- The number of addresses. -/
def memorySize : Nat := 256

/-- Plain memory cells. -/
structure Memory where
  cells : Array UInt8
  deriving DecidableEq

/-- A run of bytes that does not fit into memory at its place. -/
structure RunTooLong where
  size : Nat
  available : Nat
  deriving DecidableEq

/-- The report of a run that does not fit. -/
def RunTooLong.message (e : RunTooLong) : String :=
  "program size " ++ toString e.size ++ " exceeds available space " ++ toString e.available

/-- The cells with a run of bytes written from index `start` on. -/
def writeRun (cells : Array UInt8) (start : Nat) : List UInt8 → Array UInt8
  | [] => cells
  | byte :: rest => writeRun (cells.setIfInBounds start byte) (start + 1) rest

namespace Memory

/-- All cells zero. -/
def zero : Memory :=
  { cells := Array.replicate memorySize 0 }

/-- The byte at an address. -/
def read (m : Memory) (address : UInt8) : UInt8 :=
  m.cells.getD address.toNat 0

/-- The memory with the byte at an address changed. -/
def write (m : Memory) (address value : UInt8) : Memory :=
  { cells := m.cells.setIfInBounds address.toNat value }

/-- The memory with a run of bytes written from an address on; a run that would go past the
    last address is refused and nothing is written. -/
def load (m : Memory) (start : UInt8) (bytes : List UInt8) : Except RunTooLong Memory :=
  if start.toNat + bytes.length > memorySize then
    .error { size := bytes.length, available := memorySize - start.toNat }
  else
    .ok { cells := writeRun m.cells start.toNat bytes }

/-- Loads a run of bytes into a memory at hand: the refusal, if the run is refused, and the memory
    afterwards. -/
def receive (m : Memory) (start : UInt8) (bytes : List UInt8) : Option RunTooLong × Memory :=
  match m.load start bytes with
  | .ok loaded => (none, loaded)
  | .error refusal => (some refusal, m)

instance : Bus Memory where
  read m address := (m.read address, m)
  write m address value := m.write address value

/-- The addresses of the cells that no register covers, lowest first. -/
def plainAddresses : List UInt8 :=
  ((List.range memorySize).map Nat.toUInt8).filter fun a => (Register.ofAddress? a).isNone

/-- The fault of the first plain address that has no cell. -/
def missingCell? (m : Memory) : Option Fault :=
  match plainAddresses.find? fun a => m.cells.size ≤ a.toNat with
  | some a => some (.missingCell m.cells.size a.toNat)
  | none => none

/-- The number of cells in use: cells that no register covers and that hold something. -/
def used (m : Memory) : Nat :=
  (plainAddresses.filter fun a => m.read a != 0).length

/-- The diagnostic form. Each plain address is looked at in turn. -/
def dump (m : Memory) : Except Fault Dump :=
  match m.missingCell? with
  | some fault => .error fault
  | none => .ok (.record "Memory"
      [("non_zero_cells", .number m.used), ("total_cells", .number memorySize)])

/-! ## Reading after writing -/

theorem size_write (m : Memory) (a v : UInt8) : (m.write a v).cells.size = m.cells.size := by
  simp [write]

theorem read_write_same (m : Memory) (a v : UInt8) (h : m.cells.size = memorySize) :
    (m.write a v).read a = v := by
  have : a.toNat < m.cells.size := h ▸ a.toNat_lt
  simp [read, write, this]

theorem read_write_of_ne (m : Memory) {a b : UInt8} (v : UInt8) (h : b ≠ a) :
    (m.write a v).read b = m.read b := by
  have : a.toNat ≠ b.toNat := fun e => h (UInt8.toNat_inj.mp e.symm)
  simp [read, write, this]

end Memory

/-! ## A bus with a record of its traffic -/

/-- One access to a bus. -/
inductive Access where
  | read (address : UInt8)
  | write (address value : UInt8)
  deriving DecidableEq

/-- A bus together with the accesses made to it, oldest first. -/
structure Traced (β : Type) where
  inner : β
  accesses : Array Access := #[]

namespace Traced

variable {β : Type} [Bus β]

instance : Bus (Traced β) where
  read t address :=
    let r := Bus.read t.inner address
    (r.1, { inner := r.2, accesses := t.accesses.push (.read address) })
  write t address value :=
    { inner := Bus.write t.inner address value
      accesses := t.accesses.push (.write address value) }

end Traced

end Kenbak1
