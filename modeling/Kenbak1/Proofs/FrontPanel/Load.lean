/-
  Kenbak1.Proofs.FrontPanel.Load

  Loading a program. `FrontPanel.load` writes the bytes of an image one after another, through the
  registers, so of several bytes for one address the last one stays (`Image.lastAt?`), and the cells
  that registers cover are not reached. P is put at the start of the program (`StartsAt`), unless
  the image gives it itself. `Loaded` is what a panel is afterwards.
-/
import Kenbak1.Proofs.FrontPanel
import Kenbak1.Proofs.Machine.Writes

namespace Kenbak1

/-! ## Where a program starts -/

namespace Image

variable {image : Image}

theorem mem_ramAddresses {a : UInt8} :
    a ∈ (image.cells.map (·.1)).filter isRam ↔ isRam a ∧ ∃ cell ∈ image.cells, cell.1 = a := by
  rw [List.mem_filter, List.mem_map]
  exact And.comm

theorem origin?_eq_some_iff {a : UInt8} :
    image.origin? = some a ↔
      (isRam a ∧ ∃ cell ∈ image.cells, cell.1 = a) ∧
        ∀ cell ∈ image.cells, isRam cell.1 → a ≤ cell.1 := by
  unfold origin?
  rw [List.min?_eq_some_iff, mem_ramAddresses]
  refine and_congr_right fun _ => ⟨?_, ?_⟩
  · intro hleast cell hcell hram
    exact hleast cell.1 (mem_ramAddresses.mpr ⟨hram, cell, hcell, rfl⟩)
  · intro hleast b hb
    obtain ⟨hram, cell, hcell, rfl⟩ := mem_ramAddresses.mp hb
    exact hleast cell hcell hram

theorem origin?_eq_none_iff :
    image.origin? = none ↔ ∀ cell ∈ image.cells, ¬ isRam cell.1 := by
  unfold origin?
  rw [List.min?_eq_none_iff, List.filter_eq_nil_iff, List.forall_mem_map]

/-- The address at which a program starts. -/
inductive StartsAt (image : Image) (fallback : UInt8) : UInt8 → Prop
  /-- The image gives a byte for P, and of several the last one. -/
  | given {v : UInt8} (hgiven : lastAt? image.cells Register.p.address = some v) :
      StartsAt image fallback v
  /-- The image gives none, and this is the lowest address it writes that is no register's. -/
  | lowest {a : UInt8} (hnone : lastAt? image.cells Register.p.address = none)
      (hram : isRam a) (hwritten : ∃ cell ∈ image.cells, cell.1 = a)
      (hleast : ∀ cell ∈ image.cells, isRam cell.1 → a ≤ cell.1) : StartsAt image fallback a
  /-- The image writes registers at most, and not P. -/
  | fallback (hnone : lastAt? image.cells Register.p.address = none)
      (hregisters : ∀ cell ∈ image.cells, ¬ isRam cell.1) : StartsAt image fallback fallback

/-- Where P has been written as the image has it, `startOf` is where the program `StartsAt`. -/
theorem startsAt_startOf (image : Image) (fallback before : UInt8) :
    StartsAt image fallback
      (FrontPanel.startOf image fallback
        ((lastAt? image.cells Register.p.address).getD before)) := by
  unfold FrontPanel.startOf
  rw [← isSome_lastAt?]
  cases hgiven : lastAt? image.cells Register.p.address with
  | some v => exact .given hgiven
  | none =>
    cases horigin : image.origin? with
    | some a =>
      obtain ⟨⟨hram, hwritten⟩, hleast⟩ := origin?_eq_some_iff.mp horigin
      exact .lowest hgiven hram hwritten hleast
    | none => exact .fallback hgiven (origin?_eq_none_iff.mp horigin)

end Image

/-! ## What a panel is after loading -/

namespace FrontPanel

/-- A panel after an image has been loaded. -/
structure Loaded (panel : FrontPanel Memory) (image : Image) (fallback : UInt8)
    (after : FrontPanel Memory) : Prop where
  cells : ∀ a, a ≠ Register.p.address →
    (after.machine.readByte a).1 = (lastAt? image.cells a).getD (panel.machine.readByte a).1
  start : image.StartsAt fallback after.machine.bank.p
  data : after.lamps.word.toUInt8 = after.machine.bank.out
  /-- The cells that registers cover. -/
  covered : ∀ r : Register,
    after.machine.bus.cells[r.address.toNat]? = panel.machine.bus.cells[r.address.toNat]?
  latch : after.machine.latch = panel.machine.latch
  state : after.machine.state = panel.machine.state
  executed : after.machine.executed = panel.machine.executed
  input : after.lamps.isLit Lamps.inputMask = panel.lamps.isLit Lamps.inputMask
  address : after.lamps.isLit Lamps.addressMask = panel.lamps.isLit Lamps.addressMask
  memory : after.lamps.isLit Lamps.memoryMask = panel.lamps.isLit Lamps.memoryMask
  run : after.lamps.isLit Lamps.runMask = panel.lamps.isLit Lamps.runMask

variable (panel : FrontPanel Memory) (image : Image) (fallback : UInt8)

theorem p_load :
    (panel.load image fallback).machine.bank.p =
      startOf image fallback (panel.machine.writeAll image.cells).bank.p := rfl

/-- P is put at the start after the bytes have been written. -/
theorem readByte_load (a : UInt8) :
    ((panel.load image fallback).machine.readByte a).1 =
      if a = Register.p.address then (panel.load image fallback).machine.bank.p
      else ((panel.machine.writeAll image.cells).readByte a).1 := by
  have hstarted := Machine.readByte_congr (k := (panel.load image fallback).machine)
    (m := (panel.machine.writeAll image.cells).set .p (panel.load image fallback).machine.bank.p)
    rfl rfl a
  exact hstarted.trans (Machine.readByte_set _ .p _ a)

/-- `load` leaves an image in the address space and P at its start, on whatever panel has the cells
    that the image reaches. -/
theorem loaded
    (h : ∀ cell ∈ image.cells, Register.ofAddress? cell.1 = none →
      cell.1.toNat < panel.machine.bus.cells.size) :
    Loaded panel image fallback (panel.load image fallback) := by
  have hread := panel.machine.readByte_writeAll image.cells h
  have hwritten := panel.machine.writeAll_eq image.cells
  have hp : (panel.machine.writeAll image.cells).bank.p =
      (lastAt? image.cells Register.p.address).getD panel.machine.bank.p :=
    hread Register.p.address
  -- Loading is writing the bytes, setting P and showing the output.
  exact
    { cells := by
        intro a ha
        rw [readByte_load, if_neg ha, hread]
      start := by
        rw [p_load, hp]
        exact Image.startsAt_startOf image fallback _
      data := Lamps.toUInt8_word _
      covered := fun r => Machine.view_writeAll
        (fun m => m.bus.cells[r.address.toNat]?) (fun m => m.covered_writeByte r) panel.machine
        image.cells
      latch := congrArg (·.latch) hwritten
      state := congrArg (·.state) hwritten
      executed := congrArg (·.executed) hwritten
      input := by
        rw [Lamps.isLit_input, Lamps.isLit_input]
        rfl
      address := by
        rw [Lamps.isLit_address, Lamps.isLit_address]
        rfl
      memory := by
        rw [Lamps.isLit_memory, Lamps.isLit_memory]
        rfl
      run := by
        rw [Lamps.isLit_run, Lamps.isLit_run]
        rfl }

/-- A fresh panel reads as the zeroed cells do over which the image is laid for a listing. -/
theorem readByte_load_fresh {a : UInt8} (ha : a ≠ Register.p.address) :
    ((fresh.load image fallback).machine.readByte a).1 =
      (image.apply Memory.zero.cells).getD a.toNat 0 := by
  have hloaded := fresh.loaded image fallback fun cell _ _ => toNat_lt_size_zero cell.1
  have hfresh : (fresh.machine.readByte a).1 = 0 := Machine.readByte_fresh a
  rw [hloaded.cells a ha, image.getD_apply (toNat_lt_size_zero a), hfresh, Memory.getD_zero]

/-- `load` leaves at every address but that of P the last byte the image has for it, and otherwise
    what was there; P is at the start of the program, the data lamps show the output, and nothing
    else has moved, the cells that registers cover included (`Loaded`). On a `fresh` panel it agrees
    with `Image.apply`, which lays the image over zeroed cells. The image must not reach a cell that
    is missing. -/
theorem load_places_image
    (h : ∀ cell ∈ image.cells, Register.ofAddress? cell.1 = none →
      cell.1.toNat < panel.machine.bus.cells.size) :
    Loaded panel image fallback (panel.load image fallback) ∧
      ∀ a, a ≠ Register.p.address →
        ((fresh.load image fallback).machine.readByte a).1 =
          (image.apply Memory.zero.cells).getD a.toNat 0 :=
  ⟨panel.loaded image fallback h, fun _ ha => readByte_load_fresh image fallback ha⟩

/-- Two bytes for one address, and two registers before it. -/
theorem load_places_image_written_twice :
    let image : Image := { cells := [(0o200, 7), (0o010, 1), (0o377, 2), (0o010, 3)] }
    let after := fresh.load image 0o004
    (∀ cell ∈ image.cells, Register.ofAddress? cell.1 = none →
        cell.1.toNat < fresh.machine.bus.cells.size) ∧
      (Loaded fresh image 0o004 after ∧
        ∀ a, a ≠ Register.p.address →
          (after.machine.readByte a).1 = (image.apply Memory.zero.cells).getD a.toNat 0) ∧
      (after.machine.readByte 0o010).1 = 3 ∧ after.machine.bank.p = 0o010 := by
  intro image after
  have hcells : ∀ cell ∈ image.cells, Register.ofAddress? cell.1 = none →
      cell.1.toNat < fresh.machine.bus.cells.size :=
    fun cell _ _ => toNat_lt_size_zero cell.1
  have hplaced := load_places_image fresh image 0o004 hcells
  have hlast : lastAt? image.cells 0o010 = some 3 := by decide
  have horigin : image.origin? = some 0o010 := by decide
  have hstart : ∀ written, startOf image 0o004 written = 0o010 := by
    intro written
    rw [startOf, if_neg (by decide), horigin]
    rfl
  refine ⟨hcells, hplaced, ?_, (p_load fresh image 0o004).trans (hstart _)⟩
  rw [hplaced.1.cells 0o010 (by decide), hlast]
  rfl

end FrontPanel

end Kenbak1
