/-
  Kenbak1.Proofs.FrontPanel.KeyIn

  Keying in. An operator puts a byte into the input bit by bit and has it stored at the latched
  address, which moves on. The input is a scratch register on the way: what it holds between two
  bytes is gone with the next byte, and with the last key (`released`). So `pressAll_bytes` finds
  the bytes entered one after another (`enter`), and `enter_writes` finds them written, each at its
  address and in order, and then the input zeroed.
-/
import Kenbak1.Proofs.FrontPanel
import Kenbak1.Proofs.Machine.Quiet
import Kenbak1.Proofs.Machine.Writes

namespace Kenbak1

/-- The cells of a run of bytes, with their addresses counted from the first one. -/
theorem Image.cellsFrom_eq (start : UInt8) (bytes : List UInt8) :
    cellsFrom start bytes = bytes.zipIdx.map fun byte => (start + byte.2.toUInt8, byte.1) := by
  induction bytes generalizing start with
  | nil => rfl
  | cons byte rest ih =>
    have hfirst : start + (0 : Nat).toUInt8 = start := UInt8.add_zero _
    simp only [cellsFrom, ih, List.zipIdx_cons', List.map_cons, List.map_map, hfirst,
      add_one_add_toUInt8]
    rfl

/-! ## The input as a scratch register -/

namespace Machine

variable {β : Type} [Bus β] (m : Machine β)

/-- The machine after bytes have been put into the input and stored, one after another. -/
def enter (bytes : List UInt8) : Machine β :=
  bytes.foldl (fun m byte => (m.set .input byte).storeInput) m

/-- What keying in does not work with: the machine without its input, its latch and its journal. -/
def released {β : Type} (m : Machine β) : Machine β :=
  { m.clearInput with latch := 0, journal := .off }

/-- A write leaves the same behind, whatever was worked with before. -/
theorem released_writeByte (a v : UInt8) :
    (m.writeByte a v).released = (m.released.writeByte a v).released := by
  unfold writeByte
  cases Register.ofAddress? a with
  | none => rfl
  | some r => cases r <;> rfl

theorem released_writeAll {m k : Machine β} (h : m.released = k.released)
    (cells : List (UInt8 × UInt8)) : (m.writeAll cells).released = (k.writeAll cells).released := by
  induction cells generalizing m k with
  | nil => exact h
  | cons cell rest ih =>
    refine ih ?_
    rw [released_writeByte, h, ← released_writeByte]

theorem latch_storeInput : m.storeInput.latch = m.latch + 1 := by
  unfold storeInput
  rw [writeByte_eq]

/-- Bytes that `enter` puts into the input and stores are written from the latched address on, and
    the latch moves past them. -/
theorem enter_writes (bytes : List UInt8) :
    (m.enter bytes).released = (m.writeAll (Image.cellsFrom m.latch bytes)).released ∧
      (m.enter bytes).latch = m.latch + bytes.length.toUInt8 := by
  -- The induction is on the bytes; each moves the latch to the address of the next.
  induction bytes generalizing m with
  | nil => exact ⟨rfl, (UInt8.add_zero _).symm⟩
  | cons byte rest ih =>
    obtain ⟨hcells, hlatch⟩ := ih (m.set .input byte).storeInput
    have hmoved : (m.set .input byte).storeInput.latch = m.latch + 1 := latch_storeInput _
    -- Storing the input comes to writing the byte.
    have hstored : (m.set .input byte).storeInput.released = (m.writeByte m.latch byte).released := by
      show ((m.set .input byte).writeByte m.latch byte).released = _
      rw [released_writeByte, released_writeByte m]
      rfl
    rw [hmoved] at hcells hlatch
    exact ⟨hcells.trans (released_writeAll hstored _), hlatch.trans (add_one_add_toUInt8 _ _)⟩

end Machine

/-! ## Buttons -/

namespace FrontPanel

/-- The bits that are set in a byte, bit 0 first. -/
def setBits (value : UInt8) : List (Fin 8) :=
  (List.finRange 8).filter fun bit => value &&& bitMask bit != 0

theorem bitButtons_eq (value : UInt8) :
    bitButtons value = (setBits value).map fun bit => .bit (UInt8.ofNat bit.val) := by
  unfold bitButtons setBits
  rw [← List.filterMap_eq_filter, List.map_filterMap]
  congr 1
  funext bit
  cases h : value &&& bitMask bit != 0 <;> simp [Option.guard, h]

/-- A byte is put together from the bits that are set in it. -/
theorem foldl_setBits (value : UInt8) :
    (setBits value).foldl (fun input bit => input ||| bitMask bit) 0 = value := by
  revert value
  apply forall_byte
  decide +kernel

variable {β : Type}

/-- The panel with a byte in the input, and shown. -/
def showInput (panel : FrontPanel β) (value : UInt8) : FrontPanel β :=
  panel.showRegister (panel.machine.set .input value) .input .input

/-! ### Where nothing is noted -/

section Quiet

variable [Bus β] {panel : FrontPanel β} (h : panel.machine.journal = .off)

include h

theorem press_bit (number : UInt8) :
    panel.press (.bit number) =
      panel.showInput (panel.machine.bank.input ||| bitMask (Fin.ofNat 8 number.toNat)) := by
  unfold press
  rw [Machine.note_of_off h]
  rfl

theorem press_clear : panel.press .clear = panel.showInput 0 := by
  unfold press
  rw [Machine.note_of_off h]
  rfl

theorem press_set :
    panel.press .set = panel.showRegister panel.machine.latchInput .address .out := by
  unfold press
  rw [Machine.note_of_off h]

theorem press_store :
    panel.press .store = panel.showRegister panel.machine.storeInput .memory .out := by
  unfold press
  rw [Machine.note_of_off h]

/-- Data buttons add their bits to the input. -/
theorem pressAll_bits (input : UInt8) (bits : List (Fin 8)) :
    (panel.showInput input).pressAll (bits.map fun bit => .bit (UInt8.ofNat bit.val)) =
      panel.showInput (bits.foldl (fun input bit => input ||| bitMask bit) input) := by
  induction bits generalizing input with
  | nil => rfl
  | cons bit rest ih =>
    have hoff : (panel.showInput input).machine.journal = .off := h
    have hnumber : Fin.ofNat 8 (UInt8.ofNat bit.val).toNat = bit := by
      apply Fin.ext
      simp
    have hpressed : (panel.showInput input).press (.bit (UInt8.ofNat bit.val)) =
        panel.showInput (input ||| bitMask bit) := by
      rw [press_bit hoff, hnumber]
      rfl
    rw [List.map_cons, List.foldl_cons, ← ih, ← hpressed]
    rfl

/-- A byte is put into the input, whatever was there. -/
theorem pressAll_byteButtons (value : UInt8) :
    panel.pressAll (byteButtons value) = panel.showInput value := by
  have hbits := pressAll_bits h 0 (setBits value)
  rw [foldl_setBits, ← bitButtons_eq, ← press_clear h] at hbits
  exact hbits

/-- Bytes keyed in and stored one after another are entered into the machine (`enter`). What the
    lamps showed on the way does not matter once the input is shown. -/
theorem pressAll_bytes (bytes : List UInt8) :
    (panel.pressAll (bytes.flatMap fun byte => byteButtons byte ++ [.store])).showInput 0 =
      { panel with machine := panel.machine.enter bytes }.showInput 0 := by
  -- The induction is on the bytes, over all panels: each store changes lamps and machine.
  induction bytes generalizing panel with
  | nil => rfl
  | cons byte rest ih =>
    have hkeyed : (panel.showInput byte).machine.journal = .off := h
    have hstored : panel.pressAll (byteButtons byte ++ [.store]) =
        (panel.showInput byte).showRegister (panel.machine.set .input byte).storeInput
          .memory .out := by
      rw [pressAll_append, pressAll_byteButtons h]
      exact press_store hkeyed
    have hoff := off_pressAll h (byteButtons byte ++ [.store])
    rw [List.flatMap_cons, pressAll_append, ih hoff, hstored]
    rfl

/-- What is left of keying in: the latch set, the bytes entered, and the input zeroed and shown. -/
theorem keyIn_of_off (address : UInt8) (bytes : List UInt8) :
    panel.keyIn address bytes =
      { panel with machine := (panel.machine.set .input address).latchInput.enter bytes }.showInput
        0 := by
  have hkeyed : (panel.showInput address).machine.journal = .off := h
  have hlatched : panel.pressAll (byteButtons address ++ [.set]) =
      (panel.showInput address).showRegister (panel.machine.set .input address).latchInput
        .address .out := by
    rw [pressAll_append, pressAll_byteButtons h]
    exact press_set hkeyed
  have hoff := off_pressAll h (byteButtons address ++ [.set])
  have hbytes := pressAll_bytes hoff bytes
  rw [← press_clear (off_pressAll hoff _), hlatched] at hbytes
  unfold keyIn
  rw [pressAll_append, List.append_cons, pressAll_append, hlatched]
  exact hbytes

end Quiet

/-! ### What keying in comes to -/

section KeyedIn

variable [Bus β]

/-- Of a panel after bytes have been keyed in: the address space and the latch are as wanted, the
    lamps show the zeroed input, and the machine has neither been started nor stopped nor run. -/
structure KeyedIn (panel : FrontPanel β) (written : Machine β) (latch : UInt8)
    (after : FrontPanel β) : Prop where
  cells : ∀ a, (after.machine.readByte a).1 = (written.readByte a).1
  bank : after.machine.bank = written.bank
  bus : after.machine.bus = written.bus
  latch : after.machine.latch = latch
  input : after.lamps.isLit Lamps.inputMask
  address : ¬ after.lamps.isLit Lamps.addressMask
  memory : ¬ after.lamps.isLit Lamps.memoryMask
  data : after.lamps.word.toUInt8 = 0
  run : after.lamps.isLit Lamps.runMask = panel.lamps.isLit Lamps.runMask
  state : after.machine.state = panel.machine.state
  executed : after.machine.executed = panel.machine.executed

variable (panel : FrontPanel β)

/-- `keyIn` is writing the bytes, each at the address it comes to lie at, and zeroing the input. -/
theorem keyedIn (address : UInt8) (bytes : List UInt8) :
    KeyedIn panel
      (panel.machine.writeAll
        (bytes.zipIdx.map fun byte => (address + byte.2.toUInt8, byte.1))).clearInput
      (address + bytes.length.toUInt8) (panel.keyIn address bytes) := by
  rw [← Image.cellsFrom_eq]
  -- With the journal off the buttons are known one by one; forgetting it behind them is the same.
  have hquiet : panel.quiet.machine.journal = .off := rfl
  have hkeyed : (panel.keyIn address bytes).quiet = _ :=
    (panel.pressAll_quiet _).symm.trans (keyIn_of_off hquiet address bytes)
  obtain ⟨hcells, hlatch⟩ :=
    Machine.enter_writes (panel.quiet.machine.set .input address).latchInput bytes
  -- Setting the latch leaves nothing behind but the latch and the input.
  have hsame : (panel.quiet.machine.set .input address).latchInput.released =
      panel.machine.released := rfl
  have hreleased := hcells.trans (Machine.released_writeAll hsame _)
  have hwritten := panel.machine.writeAll_eq (Image.cellsFrom address bytes)
  have hbank := (congrArg (·.machine.bank) hkeyed).trans (congrArg (·.bank) hreleased)
  have hbus := (congrArg (·.machine.bus) hkeyed).trans (congrArg (·.bus) hreleased)
  have hlamps : (panel.keyIn address bytes).lamps = (panel.lamps.select (some .input)).display 0 :=
    congrArg (·.lamps) hkeyed
  exact
    { cells := Machine.readByte_congr hbank hbus
      bank := hbank
      bus := hbus
      latch := (congrArg (·.machine.latch) hkeyed).trans hlatch
      input := by rw [hlamps, Lamps.isLit_input]; rfl
      address := by rw [hlamps, Lamps.isLit_address]; exact Bool.false_ne_true
      memory := by rw [hlamps, Lamps.isLit_memory]; exact Bool.false_ne_true
      data := by rw [hlamps, Lamps.toUInt8_word]; rfl
      run := by rw [hlamps, Lamps.isLit_run, Lamps.isLit_run]; rfl
      state := (congrArg (·.machine.state) hkeyed).trans
        ((congrArg (·.state) hreleased).trans (congrArg (·.state) hwritten))
      executed := (congrArg (·.machine.executed) hkeyed).trans
        ((congrArg (·.executed) hreleased).trans (congrArg (·.executed) hwritten)) }

/-- READ shows the byte at the latched address. -/
theorem toUInt8_word_press_read :
    (panel.press .read).lamps.word.toUInt8 =
      (panel.machine.readByte panel.machine.latch).1 := by
  have hread := Machine.readByte_congr (m := panel.machine)
    (k := panel.machine.note (.pressed .read)) rfl rfl panel.machine.latch
  rw [Lamps.toUInt8_word]
  exact hread

/-- `keyIn` leaves the address space as `writeAll` and zeroing the input leave it, and the latch
    behind the last of the bytes; the panel then shows the zeroed input, and machine and run lamp go
    on as they were (`KeyedIn`). Keying in no bytes latches an address for READ, which shows the
    byte there; that of the input is zero by then. -/
theorem keyIn_writes_bytes (address : UInt8) (bytes : List UInt8) :
    KeyedIn panel
        (panel.machine.writeAll
          (bytes.zipIdx.map fun byte => (address + byte.2.toUInt8, byte.1))).clearInput
        (address + bytes.length.toUInt8) (panel.keyIn address bytes) ∧
      ∀ a, let latched := panel.keyIn a []
        (latched.press .read).lamps.word.toUInt8 = (latched.machine.readByte a).1 ∧
          (latched.machine.readByte a).1 =
            if a = Register.input.address then 0 else (panel.machine.readByte a).1 := by
  refine ⟨keyedIn panel address bytes, ?_⟩
  intro a latched
  have hkeyed := keyedIn panel a []
  have hlatch : latched.machine.latch = a := hkeyed.latch.trans (UInt8.add_zero a)
  have hshown := toUInt8_word_press_read latched
  rw [hlatch] at hshown
  exact ⟨hshown, (hkeyed.cells a).trans (panel.machine.readByte_set .input 0 a)⟩

-- Past IN, which the keying itself uses up, and on from A.
example :
    let bank := (FrontPanel.fresh.keyIn 0o376 [1, 2, 3]).machine.bank
    bank.a = 3 ∧ bank.input = 0 := by
  decide +kernel

end KeyedIn

end FrontPanel

end Kenbak1
