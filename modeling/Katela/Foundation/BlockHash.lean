import Mathlib.Data.List.Basic
import Katela.Foundation.Bytes

/-! # Hashing by blocks

A message is padded to whole blocks, and the blocks are folded into a state one
after the other. -/

namespace Katela

variable {σ : Type} {size : Nat}

/-- The first bytes of a message as a block. -/
def Block.ofList (bytes : List UInt8) : Block size :=
  fun index => bytes.getD index 0

/-- Folds the first `count` blocks of a message into a state. -/
def foldBlocks (compress : σ → Block size → σ) :
    (count : Nat) → σ → List UInt8 → σ
  | 0, state, _ => state
  | count + 1, state, bytes =>
      foldBlocks compress count (compress state (Block.ofList bytes))
        (bytes.drop size)

/-- Folds all whole blocks of a message into a state. -/
def hashBlocks (compress : σ → Block size → σ) (state : σ)
    (bytes : List UInt8) : σ :=
  foldBlocks compress (bytes.length / size) state bytes

/-- The bytes of a number, highest first. -/
def bigEndian (count value : Nat) : List UInt8 :=
  (List.range count).map fun index =>
    UInt8.ofNat (value / 2 ^ (8 * (count - 1 - index)))

/-- What follows a message of `length` bytes in its padded form with blocks of
64 bytes: a one bit, the fewest zeros and the length in bits. -/
def padding (length : Nat) : List UInt8 :=
  0x80 :: List.replicate ((119 - length % 64) % 64) 0 ++ bigEndian 8 (8 * length)

variable (compress : σ → Block size → σ) {state : σ}

theorem Block.ofList_append {front back : List UInt8}
    (enough : size ≤ front.length) :
    (Block.ofList (front ++ back) : Block size) = Block.ofList front := by
  funext index
  have inside : index.val < front.length := by omega
  simp only [ofList, List.getD_eq_getElem?_getD, List.getElem?_append_left inside]

theorem foldBlocks_append (count : Nat) :
    ∀ {state : σ} {front : List UInt8} (back : List UInt8),
      count * size ≤ front.length →
      foldBlocks compress count state (front ++ back) =
        foldBlocks compress count state front := by
  induction count with
  | zero => exact fun _ _ => rfl
  | succ count induction =>
      intro state front back enough
      rw [Nat.succ_mul] at enough
      simp only [foldBlocks]
      rw [Block.ofList_append (by omega), List.drop_append_of_le_length (by omega),
        induction back (by rw [List.length_drop]; omega)]

theorem foldBlocks_add (first second : Nat) :
    ∀ {state : σ} {bytes : List UInt8},
      foldBlocks compress (first + second) state bytes =
        foldBlocks compress second (foldBlocks compress first state bytes)
          (bytes.drop (first * size)) := by
  induction first with
  | zero =>
      intro state bytes
      simp [foldBlocks]
  | succ first induction =>
      intro state bytes
      rw [Nat.succ_add]
      simp only [foldBlocks]
      rw [induction, List.drop_drop, Nat.succ_mul, Nat.add_comm size]

/-- Whole blocks and what follows them. -/
theorem hashBlocks_append (positive : 0 < size) {front back : List UInt8}
    {count : Nat} (whole : front.length = count * size) :
    hashBlocks compress state (front ++ back) =
      hashBlocks compress (hashBlocks compress state front) back := by
  have blocks : (front ++ back).length / size = count + back.length / size := by
    rw [List.length_append, whole, Nat.add_comm, Nat.add_mul_div_right _ _ positive,
      Nat.add_comm]
  have frontBlocks : front.length / size = count := by
    rw [whole, Nat.mul_div_cancel _ positive]
  unfold hashBlocks
  rw [blocks, frontBlocks, foldBlocks_add,
    foldBlocks_append compress count back (by omega), ← whole, List.drop_left]

theorem hashBlocks_block (positive : 0 < size) {bytes : List UInt8}
    (whole : bytes.length = size) :
    hashBlocks compress state bytes = compress state (Block.ofList bytes) := by
  unfold hashBlocks
  rw [whole, Nat.div_self positive]
  rfl

@[simp] theorem length_bigEndian (count value : Nat) :
    (bigEndian count value).length = count := by
  simp [bigEndian]

theorem length_padding (length : Nat) :
    (padding length).length = 9 + (119 - length % 64) % 64 := by
  simp only [padding, List.length_append, List.length_cons, List.length_replicate,
    length_bigEndian]
  omega

end Katela
