/-
  Kenbak1.Proofs.Lamps

  The lamp word in terms of the lamps. The low byte of `Lamps.word` are the data lamps
  (`toUInt8_word`), and each mask of a single lamp finds that lamp (`isLit_of_word`); nothing stands
  above bit 11 if no spare bit is set (`word_lt`).
-/
import Kenbak1.Lamps
import Mathlib.Data.Nat.Bitwise

namespace Kenbak1
namespace Lamps

/-! ## The word as a number -/

theorem toNat_word (lamps : Lamps) :
    lamps.word.toNat = lamps.data.toNat + 0x100 * lamps.input.toNat + 0x200 * lamps.address.toNat
      + 0x400 * lamps.memory.toNat + 0x800 * lamps.run.toNat + 0x1000 * lamps.spare.val := by
  have hdata := lamps.data.toNat_lt
  have hspare := lamps.spare.isLt
  have hinput := Bool.toNat_le lamps.input
  have haddress := Bool.toNat_le lamps.address
  have hmemory := Bool.toNat_le lamps.memory
  have hrun := Bool.toNat_le lamps.run
  rw [word, UInt16.toNat_ofNat', Nat.mod_eq_of_lt]
  omega

/-- The low byte of the `word` are the data lamps. -/
theorem toUInt8_word (lamps : Lamps) : lamps.word.toUInt8 = lamps.data := by
  have hdata := lamps.data.toNat_lt
  rw [← UInt8.toNat_inj, UInt16.toNat_toUInt8, toNat_word]
  omega

/-- Without spare bits the word has twelve bits. -/
theorem word_lt (lamps : Lamps) (h : lamps.spare = 0) : lamps.word < 0x1000 := by
  have hdata := lamps.data.toNat_lt
  have hinput := Bool.toNat_le lamps.input
  have haddress := Bool.toNat_le lamps.address
  have hmemory := Bool.toNat_le lamps.memory
  have hrun := Bool.toNat_le lamps.run
  have hspare : lamps.spare.val = 0 := by rw [h]; rfl
  rw [UInt16.lt_iff_toNat_lt, toNat_word, hspare, show (0x1000 : UInt16).toNat = 0x1000 from rfl]
  omega

/-! ## Single lamps -/

/-- A mask of one bit tells whether the bit is set. -/
theorem and_mask_ne_zero (w : UInt16) {mask : UInt16} {place : Nat} (h : mask.toNat = 2 ^ place) :
    (w &&& mask != 0) = w.toNat.testBit place := by
  have hand : (w &&& mask).toNat = (w.toNat.testBit place).toNat * 2 ^ place := by
    rw [UInt16.toNat_and, h, Nat.and_two_pow]
  cases hbit : w.toNat.testBit place with
  | false =>
    rw [hbit, Bool.toNat_false, Nat.zero_mul] at hand
    have hzero : w &&& mask = 0 := UInt16.toNat_inj.mp hand
    simp [hzero]
  | true =>
    have hne : w &&& mask ≠ 0 := by
      intro hzero
      rw [hzero, hbit, Bool.toNat_true, Nat.one_mul] at hand
      exact absurd hand.symm (Nat.two_pow_pos place).ne'
    simpa using hne

/-- A lamp is what stands in the word at its place. -/
theorem isLit_of_word {lamps : Lamps} {mask : UInt16} {place low : Nat} {lit : Bool} (high : Nat)
    (hmask : mask.toNat = 2 ^ place) (hlow : low < 2 ^ place)
    (hword : lamps.word.toNat = low + 2 ^ place * (lit.toNat + 2 * high)) :
    lamps.isLit mask = lit := by
  have hdiv : lamps.word.toNat / 2 ^ place = lit.toNat + 2 * high := by
    rw [hword, Nat.add_mul_div_left _ _ (Nat.two_pow_pos place), Nat.div_eq_of_lt hlow, Nat.zero_add]
  rw [isLit, and_mask_ne_zero _ hmask, Nat.testBit_eq_decide_div_mod_eq, hdiv,
    Nat.add_mul_mod_self_left]
  cases lit <;> rfl

section Places

variable (lamps : Lamps)

theorem isLit_input : lamps.isLit inputMask = lamps.input := by
  have hmask : inputMask.toNat = 2 ^ 8 := rfl
  refine isLit_of_word (lamps.address.toNat + 2 * lamps.memory.toNat + 4 * lamps.run.toNat
    + 8 * lamps.spare.val) hmask lamps.data.toNat_lt ?_
  rw [toNat_word]
  omega

theorem isLit_address : lamps.isLit addressMask = lamps.address := by
  have hmask : addressMask.toNat = 2 ^ 9 := rfl
  have hlow : lamps.data.toNat + 0x100 * lamps.input.toNat < 2 ^ 9 := by
    have hdata := lamps.data.toNat_lt
    have hinput := Bool.toNat_le lamps.input
    omega
  refine isLit_of_word (lamps.memory.toNat + 2 * lamps.run.toNat + 4 * lamps.spare.val)
    hmask hlow ?_
  rw [toNat_word]
  omega

theorem isLit_memory : lamps.isLit memoryMask = lamps.memory := by
  have hmask : memoryMask.toNat = 2 ^ 10 := rfl
  have hlow : lamps.data.toNat + 0x100 * lamps.input.toNat + 0x200 * lamps.address.toNat
      < 2 ^ 10 := by
    have hdata := lamps.data.toNat_lt
    have hinput := Bool.toNat_le lamps.input
    have haddress := Bool.toNat_le lamps.address
    omega
  refine isLit_of_word (lamps.run.toNat + 2 * lamps.spare.val) hmask hlow ?_
  rw [toNat_word]
  omega

theorem isLit_run : lamps.isLit runMask = lamps.run := by
  have hmask : runMask.toNat = 2 ^ 11 := rfl
  have hlow : lamps.data.toNat + 0x100 * lamps.input.toNat + 0x200 * lamps.address.toNat
      + 0x400 * lamps.memory.toNat < 2 ^ 11 := by
    have hdata := lamps.data.toNat_lt
    have hinput := Bool.toNat_le lamps.input
    have haddress := Bool.toNat_le lamps.address
    have hmemory := Bool.toNat_le lamps.memory
    omega
  refine isLit_of_word lamps.spare.val hmask hlow ?_
  rw [toNat_word]
  omega

/-- The `word` tells everything about the lamps. -/
theorem ofWord_word : ofWord lamps.word = lamps := by
  have hspare : Fin.ofNat 16 (lamps.word.toNat / 0x1000) = lamps.spare := by
    have hdata := lamps.data.toNat_lt
    have hinput := Bool.toNat_le lamps.input
    have haddress := Bool.toNat_le lamps.address
    have hmemory := Bool.toNat_le lamps.memory
    have hrun := Bool.toNat_le lamps.run
    have hlt := lamps.spare.isLt
    rw [Fin.ext_iff, Fin.val_ofNat, toNat_word]
    omega
  have hlit : ofWord lamps.word =
      { data := lamps.word.toUInt8
        input := lamps.isLit inputMask
        address := lamps.isLit addressMask
        memory := lamps.isLit memoryMask
        run := lamps.isLit runMask
        spare := Fin.ofNat 16 (lamps.word.toNat / 0x1000) } := rfl
  rw [hlit, toUInt8_word, isLit_input, isLit_address, isLit_memory, isLit_run, hspare]

end Places

end Lamps
end Kenbak1
