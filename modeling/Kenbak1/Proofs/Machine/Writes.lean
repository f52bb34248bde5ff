/-
  Kenbak1.Proofs.Machine.Writes

  Bytes written one after another. An address that is written more than once keeps the last byte
  written there (`Image.lastAt?`), one that is not written keeps what it had; and writing changes
  registers and bus alone. `readByte_writeAll` says so of a machine, where registers answer before
  memory, and `Image.getD_apply` of bare cells.
-/
import Kenbak1.Image
import Kenbak1.Proofs.Machine.Stores

namespace Kenbak1

/-! ## The last byte for an address -/

/-- The last byte that a list of cells has for an address, if it has one. -/
def lastAt? (cells : List (UInt8 × UInt8)) (a : UInt8) : Option UInt8 :=
  (cells.filter fun cell => cell.1 = a).getLast?.map (·.2)

theorem lastAt?_cons (cell : UInt8 × UInt8) (rest : List (UInt8 × UInt8)) (a : UInt8) :
    lastAt? (cell :: rest) a =
      if cell.1 = a then some ((lastAt? rest a).getD cell.2) else lastAt? rest a := by
  unfold lastAt?
  by_cases h : cell.1 = a
  · rw [List.filter_cons_of_pos (by simpa using h), List.getLast?_cons, if_pos h]
    cases (rest.filter fun cell => cell.1 = a).getLast? <;> rfl
  · rw [List.filter_cons_of_neg (by simpa using h), if_neg h]

theorem isSome_lastAt? (cells : List (UInt8 × UInt8)) (a : UInt8) :
    (lastAt? cells a).isSome = cells.any fun cell => cell.1 = a := by
  induction cells with
  | nil => rfl
  | cons cell rest ih =>
    rw [lastAt?_cons, List.any_cons, ← ih]
    by_cases h : cell.1 = a <;> simp [h]

/-- Writes one after another leave the last byte written, wherever a single write leaves the byte
    written and does not reach the other places. What has to hold for that need hold only if the
    address is written at all. -/
theorem read_foldl_write {α : Type} (read : α → UInt8) (write : α → UInt8 → UInt8 → α)
    (P : α → Prop) {a : UInt8} (hkeep : ∀ s b v, P s → P (write s b v))
    (hsame : ∀ s v, P s → read (write s a v) = v)
    (hother : ∀ s b v, b ≠ a → read (write s b v) = read s) (cells : List (UInt8 × UInt8)) (s : α)
    (h : ∀ cell ∈ cells, cell.1 = a → P s) :
    read (cells.foldl (fun s cell => write s cell.1 cell.2) s) =
      (lastAt? cells a).getD (read s) := by
  -- The induction is on the writes; the rest of them is read over the first.
  induction cells generalizing s with
  | nil => rfl
  | cons cell rest ih =>
    have hrest := ih (write s cell.1 cell.2) fun other hother' ha =>
      hkeep s _ _ (h other (List.mem_cons_of_mem _ hother') ha)
    rw [List.foldl_cons, hrest, lastAt?_cons]
    by_cases ha : cell.1 = a
    · have hread := hsame s cell.2 (h cell List.mem_cons_self ha)
      rw [if_pos ha, ha, hread]
      rfl
    · rw [if_neg ha, hother s _ _ ha]

/-! ## Machines -/

namespace Machine

section Frame

variable {β : Type} [Bus β] (m : Machine β)

/-- The machine with bytes written one after another, each at its address. -/
def writeAll (cells : List (UInt8 × UInt8)) : Machine β :=
  cells.foldl (fun m cell => m.writeByte cell.1 cell.2) m

/-- Writes one after another change registers and bus alone. -/
theorem writeAll_eq (cells : List (UInt8 × UInt8)) :
    m.writeAll cells =
      { m with bank := (m.writeAll cells).bank, bus := (m.writeAll cells).bus } := by
  have hview := view_writeAll (fun k : Machine β => { k with bank := m.bank, bus := m.bus })
    (fun k a v => by rw [k.writeByte_eq]) m cells
  exact congrArg (fun k : Machine β =>
    { k with bank := (m.writeAll cells).bank, bus := (m.writeAll cells).bus }) hview

/-- A register that is changed reads as changed at its own address, and nowhere else. -/
theorem readByte_set (r : Register) (v a : UInt8) :
    ((m.set r v).readByte a).1 = if a = r.address then v else (m.readByte a).1 := by
  unfold readByte set
  cases ha : Register.ofAddress? a with
  | none =>
    have hne : a ≠ r.address := by
      rintro rfl
      rw [Register.ofAddress?_address] at ha
      exact absurd ha (Option.some_ne_none r)
    rw [if_neg hne]
  | some q =>
    have hq := Register.ofAddress?_eq_some_iff.mp ha
    by_cases h : a = r.address
    · have hqr : q = r := by
        rw [h, Register.ofAddress?_address] at ha
        exact (Option.some_injective _ ha).symm
      rw [if_pos h, hqr]
      exact Bank.get_set_same m.bank r v
    · have hne : q ≠ r := fun e => h (hq.trans (congrArg Register.address e))
      rw [if_neg h]
      exact Bank.get_set_of_ne m.bank v hne

end Frame

variable (m : Machine Memory)

theorem size_writeByte (a v : UInt8) :
    (m.writeByte a v).bus.cells.size = m.bus.cells.size := by
  unfold writeByte
  cases Register.ofAddress? a with
  | some r => rfl
  | none => exact m.bus.size_write a v

/-- A write does not reach the cells that registers cover. -/
theorem covered_writeByte (r : Register) (a v : UInt8) :
    (m.writeByte a v).bus.cells[r.address.toNat]? = m.bus.cells[r.address.toNat]? := by
  unfold writeByte
  cases ha : Register.ofAddress? a with
  | some q => rfl
  | none =>
    have hne : a.toNat ≠ r.address.toNat := by
      intro h
      rw [UInt8.toNat_inj.mp h, Register.ofAddress?_address] at ha
      exact absurd ha (Option.some_ne_none r)
    exact Array.getElem?_setIfInBounds_ne hne

/-- A byte that is written is read again, if a register answers at its address or memory has a
    cell there. -/
theorem readByte_writeByte_same {a : UInt8}
    (h : Register.ofAddress? a = none → a.toNat < m.bus.cells.size) (v : UInt8) :
    ((m.writeByte a v).readByte a).1 = v := by
  unfold writeByte readByte
  cases ha : Register.ofAddress? a with
  | some r => exact Bank.get_set_same m.bank r v
  | none =>
    have hcell := h ha
    simp [Bus.read, Bus.write, Memory.read, Memory.write, hcell]

/-- Behind `writeAll` every address reads as the last byte written there (`Image.lastAt?`). -/
theorem readByte_writeAll (cells : List (UInt8 × UInt8))
    (h : ∀ cell ∈ cells, Register.ofAddress? cell.1 = none → cell.1.toNat < m.bus.cells.size)
    (a : UInt8) :
    ((m.writeAll cells).readByte a).1 = (lastAt? cells a).getD (m.readByte a).1 := by
  refine read_foldl_write (fun k : Machine Memory => (k.readByte a).1) writeByte
    (fun k => Register.ofAddress? a = none → a.toNat < k.bus.cells.size) ?_ ?_ ?_ cells m ?_
  · intro k b v hk ha
    rw [size_writeByte]
    exact hk ha
  · exact fun k v hk => k.readByte_writeByte_same hk v
  · exact fun k b v hb => k.readByte_writeByte_of_ne (Ne.symm hb) v
  · rintro cell hcell rfl
    exact h cell hcell

end Machine

/-! ## Cells -/

/-- Behind `Image.apply` every cell holds the last byte that the image has for it. -/
theorem Image.getD_apply (image : Image) {cells : Array UInt8} {a : UInt8}
    (h : a.toNat < cells.size) :
    (image.apply cells).getD a.toNat 0 =
      (lastAt? image.cells a).getD (cells.getD a.toNat 0) := by
  refine read_foldl_write (fun cells : Array UInt8 => cells.getD a.toNat 0)
    (fun cells b v => cells.setIfInBounds b.toNat v) (fun cells => a.toNat < cells.size)
    ?_ ?_ ?_ image.cells cells fun _ _ _ => h
  · intro cells b v hcells
    simpa using hcells
  · intro cells v hcells
    simp [hcells]
  · intro cells b v hb
    have hne : b.toNat ≠ a.toNat := fun e => hb (UInt8.toNat_inj.mp e)
    simp [hne]

/-! ## Zeroed memory -/

/-- Zeroed memory has a cell for every address. -/
theorem toNat_lt_size_zero (a : UInt8) : a.toNat < Memory.zero.cells.size := by
  have hsize : Memory.zero.cells.size = 256 := Array.size_replicate
  exact hsize ▸ a.toNat_lt

theorem Memory.getD_zero (n : Nat) : Memory.zero.cells.getD n 0 = 0 := by
  rw [Array.getD_eq_getD_getElem?, Memory.zero, Array.getElem?_replicate]
  split <;> rfl

/-- A fresh machine reads as zero everywhere. -/
theorem Machine.readByte_fresh (a : UInt8) : (Machine.fresh.readByte a).1 = 0 := by
  unfold Machine.readByte
  cases Register.ofAddress? a with
  | none =>
    dsimp only [Bus.read]
    exact Memory.getD_zero a.toNat
  | some r => cases r <;> rfl

end Kenbak1
