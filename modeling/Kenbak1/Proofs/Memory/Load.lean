/-
  Kenbak1.Proofs.Memory.Load

  A run of bytes, loaded directly (`Memory.load`) and as an image (`Image.ofBytes`). Each way has a
  check of its own, and the addresses are counted once as numbers and once as bytes. The checks let
  the same runs pass: those that end at the last address or before (`load_eq`, `ofBytes_eq`). Of
  these no address is counted past 377, so both ways leave the same cells (`Image.apply_cellsFrom`);
  the others are refused before a cell is written.
-/
import Kenbak1.Proofs.FrontPanel.KeyIn
import Kenbak1.Proofs.Memory

namespace Kenbak1

/-! ## Cells of a run -/

/-- A run that fits has room for one address more wherever it goes on. -/
theorem toNat_add_one_of_fits {start : UInt8} {byte next : UInt8} {rest : List UInt8}
    (h : start.toNat + (byte :: next :: rest).length ≤ memorySize) :
    (start + 1).toNat = start.toNat + 1 := by
  simp only [List.length_cons, memorySize] at h
  exact toNat_add_of_lt (n := 1) (by omega)

/-- Laying the image of a run over cells is writing the run into them. -/
theorem Image.apply_cellsFrom {start : UInt8} {bytes : List UInt8}
    (h : start.toNat + bytes.length ≤ memorySize) (cells : Array UInt8) :
    ({ cells := cellsFrom start bytes } : Image).apply cells =
      writeRun cells start.toNat bytes := by
  -- The induction is on the bytes; only behind the last one may the next address wrap, and there
  -- nothing is written any more.
  induction bytes generalizing start cells with
  | nil => rfl
  | cons byte rest ih =>
    cases rest with
    | nil => rfl
    | cons next others =>
      have hnext := toNat_add_one_of_fits h
      have hrest : (start + 1).toNat + (next :: others).length ≤ memorySize := by
        rw [hnext]
        rw [List.length_cons] at h
        omega
      have hcells := ih hrest (cells.setIfInBounds start.toNat byte)
      rw [hnext] at hcells
      exact hcells

/-- What a cell holds after a run has been written: a byte of the run, or what it held. -/
theorem getElem?_writeRun {cells : Array UInt8} {start : Nat} {bytes : List UInt8}
    (h : start + bytes.length ≤ cells.size) (n : Nat) :
    (writeRun cells start bytes)[n]? =
      if start ≤ n ∧ n < start + bytes.length then bytes[n - start]? else cells[n]? := by
  induction bytes generalizing cells start with
  | nil => rw [writeRun, if_neg (by rw [List.length_nil]; omega)]
  | cons byte rest ih =>
    rw [List.length_cons] at h
    have hrest : start + 1 + rest.length ≤ (cells.setIfInBounds start byte).size := by
      rw [Array.size_setIfInBounds]
      omega
    rw [writeRun, ih hrest, List.length_cons]
    by_cases hfirst : n = start
    · -- The first byte is not written over by the others.
      subst hfirst
      rw [if_neg (by omega), if_pos (by omega), Nat.sub_self, List.getElem?_cons_zero,
        Array.getElem?_setIfInBounds_self_of_lt (by omega)]
    · rw [Array.getElem?_setIfInBounds_ne (by omega)]
      by_cases hbehind : start + 1 ≤ n ∧ n < start + 1 + rest.length
      · have hindex : n - start = n - (start + 1) + 1 := by omega
        rw [if_pos hbehind, if_pos (by omega), hindex, List.getElem?_cons_succ]
      · rw [if_neg hbehind, if_neg (by omega)]

/-! ## Both ways -/

/-- An image holds a run of bytes in order, each at its address, and no address is counted past the
    last one. -/
structure Image.HoldsRun (image : Image) (start : UInt8) (bytes : List UInt8) : Prop where
  size : image.cells.length = bytes.length
  cell : ∀ i (h : i < bytes.length), image.cells[i]? = some (start + i.toUInt8, bytes[i])
  address : ∀ i < bytes.length,
    i.toUInt8.toNat = i ∧ (start + i.toUInt8).toNat = start.toNat + i

theorem Image.holdsRun_cellsFrom {start : UInt8} {bytes : List UInt8}
    (h : start.toNat + bytes.length ≤ memorySize) :
    HoldsRun { cells := cellsFrom start bytes } start bytes where
  size := by
    rw [cellsFrom_eq, List.length_map, List.length_zipIdx]
  cell i hi := by
    simp [cellsFrom_eq, hi]
  address i hi := by
    have hroom : start.toNat + i < 256 := by
      unfold memorySize at h
      omega
    refine ⟨?_, toNat_add_of_lt hroom⟩
    have hzero := toNat_add_of_lt (a := 0) (n := i) (by rw [UInt8.toNat_zero]; omega)
    rwa [UInt8.zero_add, UInt8.toNat_zero, Nat.zero_add] at hzero

namespace Memory

/-- A memory differs from another by a run of bytes, at their addresses and nowhere else. -/
structure HoldsRun (m k : Memory) (start : UInt8) (bytes : List UInt8) : Prop where
  size : k.cells.size = m.cells.size
  inside : ∀ i (h : i < bytes.length), k.cells[start.toNat + i]? = some bytes[i]
  outside : ∀ n, n < start.toNat ∨ start.toNat + bytes.length ≤ n → k.cells[n]? = m.cells[n]?

variable {m : Memory} {start : UInt8} {bytes : List UInt8}

theorem holdsRun_writeRun (h : start.toNat + bytes.length ≤ m.cells.size) :
    HoldsRun m { cells := writeRun m.cells start.toNat bytes } start bytes where
  size := size_writeRun m.cells start.toNat bytes
  inside i hi := by
    have hindex : start.toNat + i - start.toNat = i := by omega
    rw [getElem?_writeRun h, if_pos (by omega), hindex, List.getElem?_eq_getElem hi]
  outside n hn := by
    rw [getElem?_writeRun h, if_neg (by omega)]

/-- A run that ends at the last address or before is loaded by `load`, and any other is refused. -/
theorem load_eq (m : Memory) (start : UInt8) (bytes : List UInt8) :
    m.load start bytes =
      if start.toNat + bytes.length ≤ memorySize then
        .ok { cells := writeRun m.cells start.toNat bytes }
      else .error { size := bytes.length, available := memorySize - start.toNat } := by
  unfold load
  by_cases h : start.toNat + bytes.length ≤ memorySize
  · rw [if_neg (Nat.not_lt.mpr h), if_pos h]
  · rw [if_pos (Nat.lt_of_not_le h), if_neg h]

/-- So it is with `Image.ofBytes`. -/
theorem ofBytes_eq (start : UInt8) (bytes : List UInt8) :
    Image.ofBytes start bytes =
      if start.toNat + bytes.length ≤ memorySize then
        .ok { cells := Image.cellsFrom start bytes }
      else .error (.tooLarge start bytes.length) := by
  unfold Image.ofBytes
  by_cases h : start.toNat + bytes.length ≤ memorySize
  · rw [if_neg (Nat.not_lt.mpr h), if_pos h]
  · rw [if_pos (Nat.lt_of_not_le h), if_neg h]

/-- Loading a run of bytes directly (`Memory.load`) and as an image (`Image.ofBytes`) comes to the
    same. A run is loaded exactly if it has an image, and it has one exactly if it ends at the last
    address or before. The image then holds the run without an address that wraps
    (`Image.HoldsRun`), and the memory is what laying the image over the old cells gives: the bytes
    of the run at their addresses, and all other cells as they were (`HoldsRun`). A run that is
    refused is reported with its length either way, and the memory is as it was. -/
theorem load_agrees_with_image (m : Memory) (start : UInt8) (bytes : List UInt8)
    (hm : m.cells.size = memorySize) :
    ((∃ k, m.load start bytes = .ok k) ↔ ∃ image, Image.ofBytes start bytes = .ok image) ∧
    ((∃ image, Image.ofBytes start bytes = .ok image) ↔
      start.toNat + bytes.length ≤ memorySize) ∧
    (∀ image, Image.ofBytes start bytes = .ok image →
      image.HoldsRun start bytes ∧
        ∃ k, m.load start bytes = .ok k ∧ m.receive start bytes = (none, k) ∧
          k.cells = image.apply m.cells ∧ HoldsRun m k start bytes) ∧
    (∀ fault, Image.ofBytes start bytes = .error fault →
      fault = .tooLarge start bytes.length ∧
        ∃ refusal, m.load start bytes = .error refusal ∧
          m.receive start bytes = (some refusal, m) ∧
          refusal = { size := bytes.length, available := memorySize - start.toNat }) := by
  have hload := m.load_eq start bytes
  have himage := ofBytes_eq start bytes
  -- Both checks come to the same question.
  by_cases hfits : start.toNat + bytes.length ≤ memorySize
  · rw [if_pos hfits] at hload himage
    have hreceive : m.receive start bytes
        = (none, { cells := writeRun m.cells start.toNat bytes }) := by
      rw [receive, hload]
    have hloaded : ∃ k, m.load start bytes = .ok k := ⟨_, hload⟩
    have himaged : ∃ image, Image.ofBytes start bytes = .ok image := ⟨_, himage⟩
    refine ⟨iff_of_true hloaded himaged, iff_of_true himaged hfits, ?_, ?_⟩
    · intro image hof
      obtain rfl : { cells := Image.cellsFrom start bytes } = image := by
        rw [himage] at hof
        exact Except.ok.inj hof
      exact ⟨Image.holdsRun_cellsFrom hfits, _, hload, hreceive,
        (Image.apply_cellsFrom hfits m.cells).symm, holdsRun_writeRun (hm ▸ hfits)⟩
    · intro fault hof
      rw [himage] at hof
      cases hof
  · rw [if_neg hfits] at hload himage
    have hreceive : m.receive start bytes
        = (some { size := bytes.length, available := memorySize - start.toNat }, m) := by
      rw [receive, hload]
    have hrefused : ¬ ∃ k, m.load start bytes = .ok k := by
      rintro ⟨k, hk⟩
      rw [hload] at hk
      cases hk
    have hnone : ¬ ∃ image, Image.ofBytes start bytes = .ok image := by
      rintro ⟨image, hof⟩
      rw [himage] at hof
      cases hof
    refine ⟨iff_of_false hrefused hnone, iff_of_false hnone hfits, ?_, ?_⟩
    · intro image hof
      exact absurd ⟨image, hof⟩ hnone
    · intro fault hof
      obtain rfl : ImageError.tooLarge start bytes.length = fault := by
        rw [himage] at hof
        exact Except.error.inj hof
      exact ⟨rfl, _, hload, hreceive, rfl⟩

/-- Four bytes up to the last address are loaded; with a fifth the memory stays as it is. -/
theorem load_agrees_with_image_at_end :
    zero.cells.size = memorySize ∧
      (∃ k, zero.load 0o374 [1, 2, 3, 4] = .ok k ∧ k.cells[0o377]? = some 4) ∧
      zero.receive 0o374 [1, 2, 3, 4, 5] = (some { size := 5, available := 4 }, zero) := by
  have hsize : zero.cells.size = memorySize := Array.size_replicate
  obtain ⟨-, -, hfits, -⟩ := load_agrees_with_image zero 0o374 [1, 2, 3, 4] hsize
  obtain ⟨-, -, -, hlong⟩ := load_agrees_with_image zero 0o374 [1, 2, 3, 4, 5] hsize
  refine ⟨hsize, ?_, ?_⟩
  · obtain ⟨-, k, hload, -, -, hholds⟩ := hfits _ rfl
    exact ⟨k, hload, hholds.inside 3 (by decide)⟩
  · obtain ⟨-, refusal, -, hreceive, rfl⟩ := hlong _ rfl
    exact hreceive

end Memory
end Kenbak1
