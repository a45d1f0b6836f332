import Mathlib.Algebra.Ring.Nat
import Mathlib.Tactic.Common

/-! # Shift registers with feedback

A register that is shifted to the right, and whose lost bit decides whether a polynomial
is added. Both operations are linear, so several steps can be read from a table. -/

namespace Katela.ShiftRegister

variable {width : Nat}

/-- One shift. -/
def step (polynomial register : BitVec width) : BitVec width :=
  if register.getLsbD 0 then register >>> 1 ^^^ polynomial else register >>> 1

/-- Several shifts. -/
def steps (polynomial : BitVec width) : (count : Nat) → BitVec width → BitVec width
  | 0, register => register
  | count + 1, register => step polynomial (steps polynomial count register)

/-- A single bit at the given place. -/
def bitAt (width place : Nat) (bit : Bool) : BitVec width :=
  (BitVec.ofBool bit).setWidth width <<< place

/-- A shift after a bit of a message was added to the register. -/
def feed (polynomial register : BitVec width) (bit : Bool) : BitVec width :=
  step polynomial (register ^^^ bitAt width 0 bit)

section Linear

variable (polynomial : BitVec width)

theorem step_xor (left right : BitVec width) :
    step polynomial (left ^^^ right) = step polynomial left ^^^ step polynomial right := by
  unfold step
  rw [BitVec.getLsbD_xor, BitVec.ushiftRight_xor_distrib]
  cases left.getLsbD 0 with
  | false =>
      cases right.getLsbD 0 with
      | false => rfl
      | true => exact BitVec.xor_assoc _ _ _
  | true =>
      cases right.getLsbD 0 with
      | false =>
          change left >>> 1 ^^^ right >>> 1 ^^^ polynomial =
            left >>> 1 ^^^ polynomial ^^^ right >>> 1
          rw [BitVec.xor_assoc, BitVec.xor_comm (right >>> 1), ← BitVec.xor_assoc]
      | true =>
          change left >>> 1 ^^^ right >>> 1 =
            left >>> 1 ^^^ polynomial ^^^ (right >>> 1 ^^^ polynomial)
          rw [BitVec.xor_comm (right >>> 1), BitVec.xor_assoc (left >>> 1),
            ← BitVec.xor_assoc polynomial, BitVec.xor_self, BitVec.zero_xor]

theorem steps_xor (count : Nat) (left right : BitVec width) :
    steps polynomial count (left ^^^ right) =
      steps polynomial count left ^^^ steps polynomial count right := by
  induction count with
  | zero => rfl
  | succ count induction =>
      rw [steps, induction, step_xor]
      rfl

theorem steps_add (more count : Nat) (register : BitVec width) :
    steps polynomial (more + count) register =
      steps polynomial more (steps polynomial count register) := by
  induction more with
  | zero => rw [Nat.zero_add, steps]
  | succ more induction => rw [Nat.add_right_comm, steps, induction, steps]

/-- A register whose low bits are clear is only shifted. -/
theorem steps_of_clear {count : Nat} {register : BitVec width}
    (clear : ∀ index, index < count → register.getLsbD index = false) :
    steps polynomial count register = register >>> count := by
  induction count with
  | zero => exact (BitVec.ushiftRight_zero register).symm
  | succ count induction =>
      have lost : (register >>> count).getLsbD 0 = false := by
        rw [BitVec.getLsbD_ushiftRight]
        exact clear _ (Nat.lt_succ_self count)
      rw [steps, induction fun index less => clear index (by omega), step, lost,
        if_neg Bool.false_ne_true, BitVec.shiftRight_add]

/-- The bits below a bound. -/
def lowBits (count : Nat) (register : BitVec width) : BitVec width :=
  register &&& BitVec.ofNat width (2 ^ count - 1)

theorem getLsbD_lowBits (count index : Nat) (register : BitVec width) :
    (lowBits count register).getLsbD index =
      (register.getLsbD index && decide (index < count)) := by
  rw [lowBits, BitVec.getLsbD_and, BitVec.getLsbD_ofNat, Nat.testBit_two_pow_sub_one]
  by_cases inside : index < width
  · rw [decide_eq_true inside, Bool.true_and]
  · rw [BitVec.getLsbD_of_ge register index (Nat.not_lt.mp inside), Bool.false_and,
      Bool.false_and]

/-- The low bits decide what is added, the others are shifted. -/
theorem steps_eq_lookup (count : Nat) (register : BitVec width) :
    steps polynomial count register =
      register >>> count ^^^ steps polynomial count (lowBits count register) := by
  have parts : register = (register ^^^ lowBits count register) ^^^ lowBits count register := by
    rw [BitVec.xor_assoc, BitVec.xor_self, BitVec.xor_zero]
  have clear : ∀ index, index < count →
      (register ^^^ lowBits count register).getLsbD index = false := by
    intro index less
    rw [BitVec.getLsbD_xor, getLsbD_lowBits, decide_eq_true less, Bool.and_true, Bool.xor_self]
  have shifted : (register ^^^ lowBits count register) >>> count = register >>> count := by
    apply BitVec.eq_of_getLsbD_eq
    intro index _
    rw [BitVec.getLsbD_ushiftRight, BitVec.getLsbD_ushiftRight, BitVec.getLsbD_xor,
      getLsbD_lowBits, decide_eq_false (by omega), Bool.and_false, Bool.xor_false]
  calc steps polynomial count register
      = steps polynomial count ((register ^^^ lowBits count register) ^^^
          lowBits count register) := by rw [← parts]
    _ = steps polynomial count (register ^^^ lowBits count register) ^^^
          steps polynomial count (lowBits count register) := steps_xor _ _ _ _
    _ = register >>> count ^^^ steps polynomial count (lowBits count register) := by
          rw [steps_of_clear polynomial clear, shifted]

end Linear

theorem getLsbD_bitAt (place index : Nat) (bit : Bool) :
    (bitAt width place bit).getLsbD index =
      (decide (index < width) && decide (index = place) && bit) := by
  rw [bitAt, BitVec.getLsbD_shiftLeft, BitVec.getLsbD_setWidth, BitVec.getLsbD_ofBool]
  by_cases inside : index < width
  · by_cases below : index < place
    · have different : index ≠ place := Nat.ne_of_lt below
      simp [below, different]
    · by_cases here : index = place
      · subst here
        simp [inside]
        omega
      · have later : index - place ≠ 0 := by omega
        simp [here, later]
  · simp [inside]

theorem lowBits_succ (count : Nat) (message : BitVec width) :
    lowBits (count + 1) message =
      lowBits count message ^^^ bitAt width count (message.getLsbD count) := by
  apply BitVec.eq_of_getLsbD_eq
  intro index inside
  rw [BitVec.getLsbD_xor, getLsbD_lowBits, getLsbD_lowBits, getLsbD_bitAt,
    decide_eq_true inside, Bool.true_and]
  rcases Nat.lt_trichotomy index count with less | rfl | more
  · simp [less, Nat.lt_succ_of_lt less, Nat.ne_of_lt less]
  · simp
  · simp [Nat.not_lt.mpr (Nat.le_of_lt more), Nat.ne_of_gt more, Nat.not_lt.mpr more]

theorem steps_bitAt (polynomial : BitVec width) {count : Nat} (bit : Bool)
    (inside : count < width) :
    steps polynomial count (bitAt width count bit) = bitAt width 0 bit := by
  have clear : ∀ index, index < count → (bitAt width count bit).getLsbD index = false := by
    intro index less
    rw [getLsbD_bitAt, decide_eq_false (Nat.ne_of_lt less), Bool.and_false, Bool.false_and]
  rw [steps_of_clear polynomial clear]
  apply BitVec.eq_of_getLsbD_eq
  intro index less
  rw [BitVec.getLsbD_ushiftRight, getLsbD_bitAt, getLsbD_bitAt]
  by_cases first : index = 0
  · subst first
    simp [inside, less]
  · simp [first]

/-- The first bits of a message, the lowest one first. -/
def firstBits (count : Nat) (message : BitVec width) : List Bool :=
  (List.range count).map message.getLsbD

/-- Feeding bits one by one is adding all of them before the shifts. -/
theorem foldl_feed (polynomial register message : BitVec width) {count : Nat}
    (inside : count ≤ width) :
    (firstBits count message).foldl (feed polynomial) register =
      steps polynomial count (register ^^^ lowBits count message) := by
  induction count with
  | zero =>
      have none : lowBits 0 message = BitVec.ofNat width 0 := by
        apply BitVec.eq_of_getLsbD_eq
        intro index _
        rw [getLsbD_lowBits, decide_eq_false (Nat.not_lt_zero _), Bool.and_false,
          BitVec.getLsbD_zero]
      rw [none, BitVec.xor_zero]
      rfl
  | succ count induction =>
      have bits : firstBits (count + 1) message =
          firstBits count message ++ [message.getLsbD count] := by
        rw [firstBits, List.range_succ, List.map_append]
        rfl
      -- The last bit only passes through the register while the others are fed.
      rw [bits, List.foldl_append, induction (by omega), lowBits_succ, ← BitVec.xor_assoc,
        steps, steps_xor polynomial count (register ^^^ lowBits count message),
        steps_bitAt polynomial _ inside]
      rfl

end Katela.ShiftRegister
