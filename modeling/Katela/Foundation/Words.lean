import Mathlib.Algebra.Ring.Nat

/-! # Words put together from fields

The values of machine words that are built with shifts and a bitwise or, and taken
apart again with shifts and a mask. -/

namespace Katela

variable {value shift high low : UInt32} {width : Nat}

/-- A shift to the left that loses no bit. -/
theorem toNat_shiftLeft_fits (small : shift.toNat < 32)
    (fits : value.toNat * 2 ^ shift.toNat < 2 ^ 32) :
    (value <<< shift).toNat = value.toNat * 2 ^ shift.toNat := by
  rw [UInt32.toNat_shiftLeft, Nat.mod_eq_of_lt small, Nat.shiftLeft_eq,
    Nat.mod_eq_of_lt fits]

/-- A word joined with one that lies below all of its bits. -/
theorem toNat_or_below (above : 2 ^ width ∣ high.toNat)
    (below : low.toNat < 2 ^ width) :
    (high ||| low).toNat = high.toNat + low.toNat := by
  rcases above with ⟨upper, isHigh⟩
  rw [UInt32.toNat_or, isHigh, Nat.mul_comm, ← Nat.shiftLeft_eq,
    Nat.shiftLeft_add_eq_or_of_lt below]

/-- A field of a word. -/
theorem toNat_field (small : shift.toNat < 32) {mask : UInt32}
    (isMask : mask.toNat = 2 ^ width - 1) :
    ((value >>> shift) &&& mask).toNat = value.toNat / 2 ^ shift.toNat % 2 ^ width := by
  rw [UInt32.toNat_and, isMask, Nat.and_two_pow_sub_one_eq_mod,
    UInt32.toNat_shiftRight, Nat.mod_eq_of_lt small, Nat.shiftRight_eq_div_pow]

/-- A word without its lowest bits. -/
theorem toNat_and_not {mask : UInt32} (isMask : mask.toNat = 2 ^ width - 1) :
    (value &&& ~~~mask).toNat = value.toNat / 2 ^ width * 2 ^ width := by
  have power := Nat.two_pow_pos width
  have bound := mask.toNat_lt
  have complement : (~~~mask).toNat = 2 ^ 32 - (mask.toNat + 1) := by
    rw [UInt32.toNat_not, UInt32.size]
    omega
  rw [UInt32.toNat_and, complement]
  apply Nat.eq_of_testBit_eq
  intro i
  rw [Nat.testBit_and, Nat.testBit_two_pow_sub_succ bound, isMask,
    Nat.testBit_two_pow_sub_one, ← Nat.shiftRight_eq_div_pow, ← Nat.shiftLeft_eq,
    Nat.testBit_shiftLeft, Nat.testBit_shiftRight]
  by_cases isLow : i < width
  · simp [isLow, Nat.not_le_of_lt isLow]
  · have isIndex : width + (i - width) = i := by omega
    by_cases inside : i < 32
    · simp [isLow, inside, isIndex, Nat.le_of_not_lt isLow]
    · have isZero : value.toNat.testBit i = false :=
        Nat.testBit_lt_two_pow (Nat.lt_of_lt_of_le value.toNat_lt
          (Nat.pow_le_pow_right (by decide) (by omega)))
      simp [isIndex, isZero]

end Katela
