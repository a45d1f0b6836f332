import Mathlib.Tactic.Common
import Katela.Foundation.ShiftRegister

/-! # CRC-32

A model of `crc32.c`, the remainder of a message computed bit by bit, and the proof that
they agree. -/

namespace Katela.Crypto

namespace Crc32

/-! ## The code -/

def table : List UInt32 :=
  [0x00000000, 0x1db71064, 0x3b6e20c8, 0x26d930ac,
   0x76dc4190, 0x6b6b51f4, 0x4db26158, 0x5005713c,
   0xedb88320, 0xf00f9344, 0xd6d6a3e8, 0xcb61b38c,
   0x9b64c2b0, 0x86d3d2d4, 0xa00ae278, 0xbdbdf21c]

/-- `crc = (crc >> 4) ^ table[crc & 0x0f]`. -/
def nibbleStep (crc : UInt32) : UInt32 :=
  crc >>> 4 ^^^ table.getD (crc &&& 0x0f).toNat 0

/-- The loop of `crc32_update`; the bytes are those that are left of the input. -/
def updateLoop : UInt32 → List UInt8 → UInt32
  | crc, [] => crc
  | crc, byte :: rest => updateLoop (nibbleStep (nibbleStep (crc ^^^ byte.toUInt32))) rest

def crc32Update (crc : UInt32) (data : List UInt8) : UInt32 :=
  ~~~ updateLoop (~~~ crc) data

def crc32 (data : List UInt8) : UInt32 := crc32Update 0 data

/-! ## The remainder -/

/-- The polynomial of CRC-32 with its lowest coefficient in the highest bit. -/
def polynomial : BitVec 32 := 0xEDB88320

/-- The bits of a message, of each byte the lowest one first. -/
def messageBits (data : List UInt8) : List Bool :=
  data.flatMap fun byte => ShiftRegister.firstBits 8 byte.toBitVec

/-- The register after all bits of a message; it is complemented before and after. -/
def remainder (crc : UInt32) (data : List UInt8) : UInt32 :=
  ~~~ UInt32.ofBitVec
    ((messageBits data).foldl (ShiftRegister.feed polynomial) (~~~ crc).toBitVec)

/-- The table holds the remainders of four bits. -/
theorem table_eq {index : Nat} (less : index < 16) :
    (table.getD index 0).toBitVec =
      ShiftRegister.steps polynomial 4 (BitVec.ofNat 32 index) := by
  have all : ∀ index : Fin 16, (table.getD index 0).toBitVec =
      ShiftRegister.steps polynomial 4 (BitVec.ofNat 32 index) := by
    decide +kernel
  exact all ⟨index, less⟩

theorem nibbleStep_eq (crc : UInt32) :
    (nibbleStep crc).toBitVec = ShiftRegister.steps polynomial 4 crc.toBitVec := by
  have less : (crc &&& 0x0f).toNat < 16 := by
    rw [UInt32.toNat_and]
    exact Nat.lt_succ_of_le Nat.and_le_right
  have low : BitVec.ofNat 32 (crc &&& 0x0f).toNat =
      ShiftRegister.lowBits 4 crc.toBitVec := by
    rw [UInt32.toNat, BitVec.ofNat_toNat, BitVec.setWidth_eq]
    rfl
  rw [nibbleStep, UInt32.toBitVec_xor, table_eq less, low,
    ShiftRegister.steps_eq_lookup polynomial 4 crc.toBitVec]
  rfl

/-- The bits of a byte are the low bits of the word that it becomes. -/
theorem firstBits_byte (byte : UInt8) :
    ShiftRegister.firstBits 8 byte.toBitVec =
      ShiftRegister.firstBits 8 byte.toUInt32.toBitVec := by
  apply List.map_congr_left
  intro index member
  have less : index < 32 := Nat.lt_trans (List.mem_range.mp member) (by decide)
  rw [UInt8.toBitVec_toUInt32, BitVec.getLsbD_setWidth, decide_eq_true less, Bool.true_and]

theorem lowBits_byte (byte : UInt8) :
    ShiftRegister.lowBits 8 byte.toUInt32.toBitVec = byte.toUInt32.toBitVec := by
  apply BitVec.eq_of_getLsbD_eq
  intro index _
  rw [ShiftRegister.getLsbD_lowBits, UInt8.toBitVec_toUInt32, BitVec.getLsbD_setWidth]
  by_cases less : index < 8
  · rw [decide_eq_true less, Bool.and_true]
  · rw [BitVec.getLsbD_of_ge _ _ (Nat.not_lt.mp less), Bool.and_false, Bool.false_and]

/-- One round of the loop feeds the bits of a byte. -/
theorem round_eq (crc : UInt32) (byte : UInt8) :
    (nibbleStep (nibbleStep (crc ^^^ byte.toUInt32))).toBitVec =
      (ShiftRegister.firstBits 8 byte.toBitVec).foldl (ShiftRegister.feed polynomial)
        crc.toBitVec := by
  rw [firstBits_byte, ShiftRegister.foldl_feed polynomial _ _ (by decide), lowBits_byte,
    nibbleStep_eq, nibbleStep_eq, ← ShiftRegister.steps_add, UInt32.toBitVec_xor]

theorem updateLoop_eq (crc : UInt32) (data : List UInt8) :
    (updateLoop crc data).toBitVec =
      (messageBits data).foldl (ShiftRegister.feed polynomial) crc.toBitVec := by
  induction data generalizing crc with
  | nil => rfl
  | cons byte rest induction =>
      have bits : messageBits (byte :: rest) =
          ShiftRegister.firstBits 8 byte.toBitVec ++ messageBits rest := List.flatMap_cons
      rw [updateLoop, induction, round_eq, bits, List.foldl_append]

theorem updateLoop_append (crc : UInt32) (data more : List UInt8) :
    updateLoop crc (data ++ more) = updateLoop (updateLoop crc data) more := by
  induction data generalizing crc with
  | nil => rfl
  | cons byte rest induction => exact induction _

/-- The code computes the remainder of every message, whole or in pieces. -/
theorem crc32Update_exact :
    (∀ crc data, crc32Update crc data = remainder crc data) ∧
      ∀ crc data more,
        crc32Update (crc32Update crc data) more = crc32Update crc (data ++ more) := by
  constructor
  · intro crc data
    rw [crc32Update, remainder, ← updateLoop_eq]
  · intro crc data more
    unfold crc32Update
    rw [UInt32.not_not, updateLoop_append]

-- The check value of CRC-32, for the text `123456789`.
example : crc32 [49, 50, 51, 52, 53, 54, 55, 56, 57] = 0xcbf43926 := by decide +kernel

end Crc32

end Katela.Crypto
