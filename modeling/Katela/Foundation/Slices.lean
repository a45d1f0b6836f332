import Mathlib.Algebra.Order.Ring.Nat
import Mathlib.Data.List.GetD
import Mathlib.Tactic.Ring

/-! # Slices of byte strings

Replacing a part of a byte string, numbers as byte strings, and the parts of a memory. -/

namespace Katela

/-- A byte string with the part from `start` to `stop` replaced. -/
def setSlice (bytes : List UInt8) (start stop : Nat) (slice : List UInt8) : List UInt8 :=
  bytes.take start ++ slice ++ bytes.drop stop

/-- A number, its least significant byte first. -/
def littleEndian : (count value : Nat) → List UInt8
  | 0, _ => []
  | count + 1, value => UInt8.ofNat value :: littleEndian count (value / 256)

def ofLittleEndian : List UInt8 → Nat
  | [] => 0
  | byte :: bytes => byte.toNat + 256 * ofLittleEndian bytes

/-- A part of a memory. -/
def bytesAt (memory : Nat → UInt8) (start count : Nat) : List UInt8 :=
  (List.range count).map fun i => memory (start + i)

section Slices

variable {bytes slice : List UInt8} {start stop : Nat}

theorem length_setSlice (isStop : stop = start + slice.length) (inside : stop ≤ bytes.length) :
    (setSlice bytes start stop slice).length = bytes.length := by
  unfold setSlice
  rw [List.length_append, List.length_append, List.length_take, List.length_drop]
  omega

/-- A byte of the result is one of the slice or is as before. -/
theorem getD_setSlice (isStop : stop = start + slice.length) (inside : stop ≤ bytes.length)
    (index : Nat) :
    (setSlice bytes start stop slice).getD index 0 =
      if start ≤ index ∧ index < stop then slice.getD (index - start) 0
      else bytes.getD index 0 := by
  have isTaken : (bytes.take start).length = start := by
    rw [List.length_take]
    omega
  have isFront : (bytes.take start ++ slice).length = stop := by
    rw [List.length_append, isTaken, isStop]
  simp only [setSlice, List.getD_eq_getElem?_getD]
  by_cases before : index < start
  · rw [if_neg (by omega), List.getElem?_append_left (by omega),
      List.getElem?_append_left (by omega), List.getElem?_take_of_lt before]
  by_cases within : index < stop
  · rw [if_pos ⟨by omega, within⟩, List.getElem?_append_left (by omega),
      List.getElem?_append_right (by omega), isTaken]
  · rw [if_neg (by omega), List.getElem?_append_right (by omega), isFront, List.getElem?_drop,
      Nat.add_sub_cancel' (by omega)]

/-- A byte string has a length and, at every index, a byte. -/
structure Reads (bytes : List UInt8) (length : Nat) (byteAt : Nat → UInt8) : Prop where
  isLength : bytes.length = length
  isByte : ∀ index, bytes.getD index 0 = byteAt index

theorem Reads.replicate (length : Nat) :
    Reads (List.replicate length 0) length fun _ => 0 where
  isLength := List.length_replicate
  isByte := by
    intro index
    rw [List.getD_eq_getElem?_getD, List.getElem?_replicate]
    split <;> rfl

theorem Reads.setSlice {length : Nat} {byteAt : Nat → UInt8} (reads : Reads bytes length byteAt)
    (isStop : stop = start + slice.length) (inside : stop ≤ length) :
    Reads (setSlice bytes start stop slice) length fun index =>
      if start ≤ index ∧ index < stop then slice.getD (index - start) 0 else byteAt index := by
  rw [← reads.isLength] at inside ⊢
  refine ⟨length_setSlice isStop inside, fun index => ?_⟩
  rw [getD_setSlice isStop inside, reads.isByte]

end Slices

theorem length_littleEndian (count : Nat) : ∀ value, (littleEndian count value).length = count := by
  induction count with
  | zero => exact fun _ => rfl
  | succ count ih => exact fun value => congrArg Nat.succ (ih _)

theorem ofLittleEndian_littleEndian (count : Nat) :
    ∀ {value}, value < 256 ^ count → ofLittleEndian (littleEndian count value) = value := by
  induction count with
  | zero =>
      intro value small
      rw [pow_zero] at small
      exact (Nat.lt_one_iff.mp small).symm
  | succ count ih =>
      intro value small
      rw [pow_succ] at small
      have later := @ih (value / 256) (Nat.div_lt_of_lt_mul (by rw [Nat.mul_comm]; exact small))
      rw [littleEndian, ofLittleEndian, later]
      change value % 256 + 256 * (value / 256) = value
      exact Nat.mod_add_div value 256

/-- A part of a memory that has the bytes of a string is that string. -/
theorem bytesAt_eq {memory : Nat → UInt8} {start : Nat} {bytes : List UInt8}
    (same : ∀ i < bytes.length, memory (start + i) = bytes.getD i 0) :
    bytesAt memory start bytes.length = bytes := by
  apply List.ext_getElem
  · rw [bytesAt, List.length_map, List.length_range]
  · intro i _ inside
    simp only [bytesAt, List.getElem_map, List.getElem_range]
    rw [same i inside, List.getD_eq_getElem _ _ inside]

end Katela
