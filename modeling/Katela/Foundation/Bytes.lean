import Mathlib.Algebra.Ring.Nat

/-! # Blocks of bytes

Fixed-size blocks of bytes with copies into a part of a block and 32-bit words
in little-endian order. -/

namespace Katela

abbrev Block (size : Nat) : Type := Fin size → UInt8

/-- The values of a 32-bit word repeat after this many. -/
def wordSize : Nat := 2 ^ 32

namespace Block

variable {size : Nat}

def byteAt (block : Block size) (index : Nat) : UInt8 :=
  if bound : index < size then block ⟨index, bound⟩ else 0

/-- The block after `length` bytes of `source` were copied to `offset`. -/
def copyInto (block : Block size) (offset length : Nat) (source : Nat → UInt8) :
    Block size :=
  fun index =>
    if offset ≤ index.val ∧ index.val < offset + length then
      source (index.val - offset)
    else block index

end Block

/-- The word whose bytes, lowest first, start the source. -/
def word (source : Nat → UInt8) : Nat :=
  (source 0).toNat + 2 ^ 8 * (source 1).toNat + 2 ^ 16 * (source 2).toNat +
    2 ^ 24 * (source 3).toNat

def wordBytes (value : Nat) : Nat → UInt8 :=
  fun index => UInt8.ofNat (value / 2 ^ (8 * index))

theorem word_lt (source : Nat → UInt8) : word source < wordSize := by
  have first := (source 0).toNat_lt
  have second := (source 1).toNat_lt
  have third := (source 2).toNat_lt
  have fourth := (source 3).toNat_lt
  simp only [word, wordSize]
  omega

theorem word_wordBytes (value : Nat) :
    word (wordBytes value) = value % wordSize := by
  simp only [word, wordBytes, wordSize, UInt8.toNat_ofNat']
  omega

namespace Block

variable {size offset length index : Nat} {block : Block size}
variable {source : Nat → UInt8}

def wordAt (block : Block size) (offset : Nat) : Nat :=
  word fun index => block.byteAt (offset + index)

def setWordAt (block : Block size) (offset value : Nat) : Block size :=
  block.copyInto offset 4 (wordBytes value)

theorem wordAt_lt (block : Block size) (offset : Nat) :
    block.wordAt offset < wordSize :=
  word_lt _

theorem byteAt_copyInto_inside (lower : offset ≤ index)
    (upper : index < offset + length) (fits : index < size) :
    (block.copyInto offset length source).byteAt index =
      source (index - offset) := by
  simp [byteAt, copyInto, lower, upper, fits]

theorem byteAt_copyInto_outside (outside : index < offset ∨ offset + length ≤ index) :
    (block.copyInto offset length source).byteAt index = block.byteAt index := by
  have apart : ¬ (offset ≤ index ∧ index < offset + length) := by omega
  simp [byteAt, copyInto, apart]

theorem wordAt_copyInto_inside (lower : offset ≤ index)
    (upper : index + 4 ≤ offset + length) (fits : index + 4 ≤ size) :
    (block.copyInto offset length source).wordAt index =
      word fun position => source (index - offset + position) := by
  have byte : ∀ position, position < 4 →
      (block.copyInto offset length source).byteAt (index + position) =
        source (index - offset + position) := by
    intro position small
    rw [byteAt_copyInto_inside (by omega) (by omega) (by omega)]
    congr 1
    omega
  simp only [wordAt, word, byte 0 (by omega), byte 1 (by omega),
    byte 2 (by omega), byte 3 (by omega)]

theorem wordAt_copyInto_outside
    (outside : index + 4 ≤ offset ∨ offset + length ≤ index) :
    (block.copyInto offset length source).wordAt index = block.wordAt index := by
  have byte : ∀ position, position < 4 →
      (block.copyInto offset length source).byteAt (index + position) =
        block.byteAt (index + position) := by
    intro position small
    exact byteAt_copyInto_outside (by omega)
  simp only [wordAt, word, byte 0 (by omega), byte 1 (by omega),
    byte 2 (by omega), byte 3 (by omega)]

theorem wordAt_setWordAt_self {value : Nat} (fits : offset + 4 ≤ size) :
    (block.setWordAt offset value).wordAt offset = value % wordSize := by
  rw [setWordAt, wordAt_copyInto_inside (by omega) (by omega) fits]
  simp only [Nat.sub_self, Nat.zero_add]
  exact word_wordBytes value

theorem wordAt_setWordAt_other {value : Nat}
    (apart : index + 4 ≤ offset ∨ offset + 4 ≤ index) :
    (block.setWordAt offset value).wordAt index = block.wordAt index :=
  wordAt_copyInto_outside apart

end Block

end Katela
