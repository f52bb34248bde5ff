/-
  Kenbak1.Proofs.Memory

  How many cells a memory has. A new memory has 256, and no edit changes their number
  (`size_writeRun`, `size_load`); a stored memory has as many as its text lists, be they too few for
  the addresses (`parse_toJson`). Nothing is at fault as long as every address that no register
  answers at has a cell (`faultless_iff`).
-/
import Kenbak1.Proofs.Faults
import Kenbak1.Proofs.Stored

namespace Kenbak1
namespace Memory

/-! ## Edits -/

theorem size_writeRun (cells : Array UInt8) (start : Nat) (bytes : List UInt8) :
    (writeRun cells start bytes).size = cells.size := by
  induction bytes generalizing cells start with
  | nil => rfl
  | cons byte rest ih => rw [writeRun, ih, Array.size_setIfInBounds]

theorem size_load {m k : Memory} {start : UInt8} {bytes : List UInt8}
    (h : m.load start bytes = .ok k) : k.cells.size = m.cells.size := by
  unfold load at h
  split at h
  · cases h
  · cases h
    exact size_writeRun m.cells start.toNat bytes

/-! ## Stored memories -/

/-- Every memory is read back from the text of `toJson`, whatever its size. -/
theorem parse_toJson (m : Memory) : Json.parse reader m.toJson.compact = .ok m :=
  Json.parse_compact (m.reads [])

/-! ## Where memories come from -/

/-- A memory that is new, read from one of the texts, or edited. -/
inductive Obtained (texts : String → Prop) : Memory → Prop
  | zero : Obtained texts zero
  | read {text : String} {m : Memory} (h : texts text) (hread : Json.parse reader text = .ok m) :
    Obtained texts m
  | write {m : Memory} (h : Obtained texts m) (a v : UInt8) : Obtained texts (m.write a v)
  | load {m k : Memory} (h : Obtained texts m) {start : UInt8} {bytes : List UInt8}
    (hload : m.load start bytes = .ok k) : Obtained texts k

/-- Memories that are `Obtained` have 256 cells each exactly if the texts that they are read from
    list 256. -/
theorem full_iff (texts : String → Prop) :
    (∀ m, Obtained texts m → m.cells.size = memorySize) ↔
      ∀ text m, texts text → Json.parse reader text = .ok m → m.cells.size = memorySize := by
  constructor
  · exact fun h text m htext hread => h m (.read htext hread)
  · intro h m hm
    induction hm with
    | zero => simp [Memory.zero]
    | read htext hread => exact h _ _ htext hread
    | write _ a v ih => rw [size_write, ih]
    | load _ hload ih => rw [size_load hload, ih]

/-! ## Cells that are needed -/

theorem mem_plainAddresses (a : UInt8) :
    a ∈ plainAddresses ↔ Register.ofAddress? a = none := by
  have hmem : a ∈ (List.range memorySize).map Nat.toUInt8 :=
    List.mem_map.mpr ⟨a.toNat, List.mem_range.mpr a.toNat_lt, UInt8.ofNat_toNat⟩
  simp [plainAddresses, List.mem_filter, hmem]

theorem missingCell?_eq_none_iff (m : Memory) : m.missingCell? = none ↔ m.Covers := by
  unfold missingCell? Covers
  constructor
  · intro h a ha
    split at h
    · cases h
    · next hnone =>
      have hcell := List.find?_eq_none.mp hnone a ((mem_plainAddresses a).mpr ha)
      simpa using hcell
  · intro h
    have hnone : (plainAddresses.find? fun a => m.cells.size ≤ a.toNat) = none := by
      refine List.find?_eq_none.mpr fun a ha => ?_
      have hcell := h a ((mem_plainAddresses a).mp ha)
      simpa using hcell
    rw [hnone]

/-- `dump` exists exactly if every address that no register answers at has a cell (`Covers`). -/
theorem exists_dump_iff (m : Memory) : (∃ d, m.dump = .ok d) ↔ m.Covers := by
  rw [← missingCell?_eq_none_iff]
  unfold dump
  cases m.missingCell? <;> simp

/-- Nothing that is done with a panel (`actAll`) meets a fault exactly if every address that no
    register answers at has a cell (`Covers`). -/
theorem faultless_iff (panel : FrontPanel Memory) :
    (∀ acts, (panel.watched.actAll acts).machine.bus.faults = []) ↔
      panel.machine.bus.Covers := by
  constructor
  · intro h a ha
    by_contra hmissing
    -- A read of the address is at fault.
    have hread := h [.query (.request (.readByte a))]
    have hanswer :
        (panel.watched.machine.readByte a).2.bus = panel.watched.machine.bus.touch a := by
      simp only [Machine.readByte, ha]
      rfl
    have htouch : (panel.watched.machine.bus.touch a).faults
        = [.missingCell panel.machine.bus.cells.size a.toNat] :=
      congrArg Watched.faults (if_neg hmissing)
    have hfaults : (panel.watched.machine.readByte a).2.bus.faults = [] := hread
    rw [hanswer, htouch] at hfaults
    cases hfaults
  · exact fun h acts => (FrontPanel.faultless h acts).1

theorem covers_iff (m : Memory) : m.Covers ↔ memorySize - 1 ≤ m.cells.size := by
  constructor
  · intro h
    have hlast : (0o376 : UInt8).toNat < m.cells.size := h 0o376 rfl
    exact hlast
  · intro h a ha
    have hinput : a ≠ 0o377 := by
      rintro rfl
      cases ha
    have hlt := a.toNat_lt
    have hne : a.toNat ≠ 0o377 := fun e => hinput (UInt8.toNat_inj.mp e)
    simp only [memorySize] at h
    omega

/-- Every address has a cell exactly if there are 256. -/
theorem forall_lt_size_iff (m : Memory) :
    (∀ a : UInt8, a.toNat < m.cells.size) ↔ memorySize ≤ m.cells.size := by
  constructor
  · intro h
    have hlast : (0o377 : UInt8).toNat < m.cells.size := h 0o377
    exact hlast
  · exact fun h a => Nat.lt_of_lt_of_le a.toNat_lt h

/-- How many cells a memory has, and how many it needs. Memories that are `Obtained` in any way have
    256 cells, however they are made and edited, exactly if the texts that they are read from list
    256; for `reader` does not ask for their number, and gives back a memory of any size. With 256
    cells every address has one. The diagnostic form `dump` exists, and no step and nothing else
    that is done with a panel meets a fault, exactly if the addresses that no register answers at
    have cells (`Covers`); one cell less than 256 is enough for that. -/
theorem obtained_cells (texts : String → Prop) (m : Memory) (panel : FrontPanel Memory) :
    ((∀ k, Obtained texts k → k.cells.size = memorySize) ↔
      ∀ text k, texts text → Json.parse reader text = .ok k → k.cells.size = memorySize) ∧
    Json.parse reader m.toJson.compact = .ok m ∧
    ((∀ a : UInt8, a.toNat < m.cells.size) ↔ memorySize ≤ m.cells.size) ∧
    ((∃ d, m.dump = .ok d) ↔ m.Covers) ∧
    ((∀ acts, (panel.watched.actAll acts).machine.bus.faults = []) ↔
      panel.machine.bus.Covers) ∧
    (m.Covers ↔ memorySize - 1 ≤ m.cells.size) :=
  ⟨full_iff texts, m.parse_toJson, m.forall_lt_size_iff, m.exists_dump_iff,
    faultless_iff panel, m.covers_iff⟩

/-- A new memory, stored, read back and edited. -/
theorem obtained_cells_stored :
    Obtained (· = zero.toJson.compact) (zero.write 4 7) ∧
      (zero.write 4 7).cells.size = memorySize := by
  have hread : Obtained (· = zero.toJson.compact) zero := .read (by rfl) (parse_toJson zero)
  have hobtained := hread.write 4 7
  refine ⟨hobtained, (obtained_cells _ zero .fresh).1.mpr ?_ _ hobtained⟩
  rintro text m rfl hread
  rw [parse_toJson] at hread
  cases hread
  simp [zero]

/-- A text that lists two cells is accepted. The memory that is read from it has two, and its
    diagnostic form is at fault at the first address that no register answers at. -/
theorem two_cells_accepted :
    Json.parse reader "\x7b\"cells\":[1,2]\x7d" = .ok { cells := #[1, 2] } ∧
      ({ cells := #[1, 2] } : Memory).dump = .error (.missingCell 2 4) ∧
      ¬ ∀ text m, Json.parse reader text = .ok m → m.cells.size = memorySize := by
  have htext : (toJson { cells := #[1, 2] }).compact = "\x7b\"cells\":[1,2]\x7d" := by
    decide +kernel
  have hread := parse_toJson { cells := #[1, 2] }
  rw [htext] at hread
  have hmissing : missingCell? { cells := #[1, 2] } = some (.missingCell 2 4) := by
    decide +kernel
  have hdump : dump { cells := #[1, 2] } = .error (.missingCell 2 4) := by
    unfold dump
    rw [hmissing]
  refine ⟨hread, hdump, fun h => ?_⟩
  have hsize := h _ _ hread
  cases hsize

end Memory
end Kenbak1
