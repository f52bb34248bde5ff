/-
  Kenbak1.Console.Breakpoints

  Sets of addresses at which a running machine is stopped.
-/

namespace Kenbak1

/-- A set of breakpoints, each address at most once. -/
structure Breakpoints where
  addresses : List UInt8 := []
  deriving DecidableEq

namespace Breakpoints

/-- No breakpoints. -/
def empty : Breakpoints := {}

/-- There is no breakpoint. -/
def isEmpty (b : Breakpoints) : Bool :=
  b.addresses.isEmpty

/-- There is a breakpoint at an address. -/
def contains (b : Breakpoints) (address : UInt8) : Bool :=
  b.addresses.contains address

/-- The set with a breakpoint at an address. -/
def insert (b : Breakpoints) (address : UInt8) : Breakpoints :=
  { addresses := b.addresses.insert address }

/-- The set without a breakpoint at an address. -/
def erase (b : Breakpoints) (address : UInt8) : Breakpoints :=
  { addresses := b.addresses.filter (· ≠ address) }

/-- The addresses, lowest first. -/
def ascending (b : Breakpoints) : List UInt8 :=
  ((List.range 256).map Nat.toUInt8).filter b.contains

theorem contains_insert (b : Breakpoints) (a c : UInt8) :
    (b.insert a).contains c = (c == a || b.contains c) := by
  by_cases h : c = a <;> simp [insert, contains, List.contains_eq_mem, h]

theorem contains_erase (b : Breakpoints) (a c : UInt8) :
    (b.erase a).contains c = (c != a && b.contains c) := by
  by_cases h : c = a <;> simp [erase, contains, List.contains_eq_mem, h]

end Breakpoints

end Kenbak1
