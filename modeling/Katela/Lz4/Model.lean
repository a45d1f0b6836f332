import Mathlib.Logic.Function.Basic
import Katela.Foundation.Bytes
import Katela.Foundation.Checked
import Katela.Lz4.Format

/-! # Compression and decompression

A model of `crypto/lz4.c`. Pointers are positions in their buffers, and the
accesses of the decoder are checked against the sizes of these. The compressed
bytes are only ever appended to, so they are a list. -/

namespace Katela.Lz4

/-! The constants of `lz4.h`, and the largest size of a buffer. -/

def maxInputSize : Nat := 0x7E000000

def lastLiterals : Nat := 5

def matchFindLimit : Nat := 12

def maxOffset : Nat := 65535

def maxBufferSize : Nat := 0x7FFFFFFF

/-- The difference of two 32-bit numbers. -/
def unsignedSub (left right : Nat) : Nat :=
  (left + (wordSize - right)) % wordSize

/-! ## The encoder -/

/-- `read_word` at a position of the input. -/
def readWord (source : Nat → UInt8) (pos : Nat) : Nat :=
  word fun index => source (pos + index)

/-- `hash_word` with the given number of bits. -/
def hashWord (bits word : Nat) : Nat :=
  (word * 2654435761 % wordSize) >>> (32 - bits)

def extraLengthBytes (value : Nat) : Nat :=
  if value < 15 then 0 else (value - 15) / 255 + 1

/-- The loop of `write_extra_length` and the byte after it. Each round takes 255
from what remains, so there are fewer rounds than that. -/
def writeRemaining : (rounds remaining : Nat) → List UInt8
  | 0, _ => []
  | rounds + 1, remaining =>
      if remaining ≥ 255 then 255 :: writeRemaining rounds (remaining - 255)
      else [UInt8.ofNat remaining]

def writeExtraLength (value : Nat) : List UInt8 :=
  writeRemaining (value - 15 + 1) (value - 15)

/-- The literals are bytes of the input from some position on. -/
def lz4WriteSequence (capacity : Nat) (out : List UInt8) (literals : Nat → UInt8)
    (literalLength offset matchLength : Nat) : Option (List UInt8) :=
  let matchCode := if matchLength ≠ 0 then unsignedSub matchLength minMatch else 0
  let needed := (1 + literalLength + extraLengthBytes literalLength) % wordSize
  let needed :=
    if matchLength ≠ 0 then (needed + (2 + extraLengthBytes matchCode)) % wordSize
    else needed
  if unsignedSub capacity out.length < needed then none
  else
    let token := UInt8.ofNat ((if literalLength ≥ 15 then 15 else literalLength) <<< 4)
    let token :=
      if matchLength ≠ 0 then
        token ||| UInt8.ofNat (if matchCode ≥ 15 then 15 else matchCode)
      else token
    let out := out ++ [token]
    let out :=
      if literalLength ≥ 15 then out ++ writeExtraLength literalLength else out
    let out := out ++ upTo literals literalLength
    if matchLength ≠ 0 then
      let out := out ++ [UInt8.ofNat (offset &&& 0xFF), UInt8.ofNat (offset >>> 8)]
      some (if matchCode ≥ 15 then out ++ writeExtraLength matchCode else out)
    else some out

def lz4Bound (size : Nat) : Nat :=
  (size + size / 255 + 16) % wordSize

/-- The first number from `length` on that does not meet the condition of a
loop. -/
def countWhile (condition : Nat → Bool) : (rounds length : Nat) → Nat
  | 0, length => length
  | rounds + 1, length =>
      if condition length then countWhile condition rounds (length + 1) else length

/-- The variables of `lz4_compress`. -/
structure Compressor where
  table : Nat → Nat
  out : List UInt8
  anchor : Nat
  pos : Nat

/-- The body of the loop of `lz4_compress`. -/
def compressStep (source : Nat → UInt8) (size capacity : Nat) (state : Compressor) :
    Option Compressor :=
  let word := readWord source state.pos
  let slot := hashWord 12 word
  let entry := state.table slot
  let table := Function.update state.table slot (state.pos + 1)
  let candidate := entry - 1
  if entry ≠ 0 ∧ unsignedSub state.pos candidate ≤ maxOffset ∧
      readWord source candidate = word then
    let length := countWhile
      (fun length => state.pos + length < size - lastLiterals ∧
        source (candidate + length) = source (state.pos + length)) size minMatch
    (lz4WriteSequence capacity state.out (fun index => source (state.anchor + index))
      (unsignedSub state.pos state.anchor) (unsignedSub state.pos candidate)
      length).map fun out =>
        { table, out, anchor := state.pos + length, pos := state.pos + length }
  else some { state with table, pos := state.pos + 1 }

/-- The loop of `lz4_compress`. -/
def compressLoop (source : Nat → UInt8) (size capacity : Nat) :
    (rounds : Nat) → Compressor → Checked Unit Compressor
  | 0, _ => .endless
  | rounds + 1, state =>
      if state.pos + matchFindLimit ≤ size then
        match compressStep source size capacity state with
        | none => .failed ()
        | some state => compressLoop source size capacity rounds state
      else .done state

/-- The bytes in the output when the call returns their number. The call fails
where the code returns -1. -/
def lz4Compress (source : Nat → UInt8) (size capacity : Nat) :
    Checked Unit (List UInt8) :=
  if size > maxInputSize ∨ capacity > maxBufferSize then .failed ()
  else do
    let state ← compressLoop source size capacity (size + 1)
      { table := fun _ => 0, out := [], anchor := 0, pos := 0 }
    match lz4WriteSequence capacity state.out
        (fun index => source (state.anchor + index))
        (unsignedSub size state.anchor) 0 0 with
    | none => .failed ()
    | some out => .done out

/-! ## The decoder -/

/-- The pointers `in` and `out` and the bytes of the output buffer. -/
structure Decoder where
  input : Nat
  out : Nat
  dest : Nat → UInt8

def readExtraLength (source : List UInt8) :
    (rounds input value : Nat) → Checked Unit (Nat × Nat)
  | 0, _, _ => .endless
  | rounds + 1, input, value =>
      if input ≥ source.length then .failed ()
      else do
        let byte ← Checked.get source input
        if value > 0x7FFFFFFF - 255 then .failed ()
        else if byte = 255 then
          readExtraLength source rounds (input + 1) (value + byte.toNat)
        else .done (input + 1, value + byte.toNat)

/-- A length of which the token has four bits, and the position after it. -/
def readLength (source : List UInt8) (input bits : Nat) : Checked Unit (Nat × Nat) :=
  if bits = 15 then readExtraLength source (source.length + 1) input bits
  else .done (input, bits)

/-- `*out++ = byte` -/
def writeByte (capacity : Nat) (state : Decoder) (byte : UInt8) :
    Checked Unit Decoder :=
  if state.out < capacity then
    .done { state with
      out := state.out + 1
      dest := Function.update state.dest state.out byte }
  else .outside

/-- `memcpy(out, in, count)`, after which both pointers are moved. -/
def copyLiterals (source : List UInt8) (capacity : Nat) :
    (count : Nat) → Decoder → Checked Unit Decoder
  | 0, state => .done state
  | count + 1, state => do
      let byte ← Checked.get source state.input
      let state ← writeByte capacity state byte
      copyLiterals source capacity count { state with input := state.input + 1 }

/-- A byte of the output buffer, of which the address may lie before it. -/
def readDest (capacity : Nat) (dest : Nat → UInt8) (address : Int) :
    Checked Unit UInt8 :=
  if 0 ≤ address ∧ address < capacity then .done (dest address.toNat) else .outside

/-- `while (match_length > 0) *out++ = *match++;` -/
def copyMatch (capacity : Nat) :
    (matchLength : Nat) → (address : Int) → Decoder → Checked Unit Decoder
  | 0, _, state => .done state
  | matchLength + 1, address, state => do
      let byte ← readDest capacity state.dest address
      let state ← writeByte capacity state byte
      copyMatch capacity matchLength (address + 1) state

/-- The body of the loop from the offset on. -/
def decodeMatch (source : List UInt8) (capacity : Nat) (token : UInt8)
    (state : Decoder) : Checked Unit Decoder :=
  if (source.length : Int) - state.input < 2 then .failed ()
  else do
    let low ← Checked.get source state.input
    let high ← Checked.get source (state.input + 1)
    let offset := low.toNat + 256 * high.toNat
    if offset = 0 ∨ offset > state.out then .failed ()
    else do
      let (input, length) ← readLength source (state.input + 2) (token.toNat % 16)
      let matchLength := length + minMatch
      if unsignedSub capacity state.out < matchLength then .failed ()
      else copyMatch capacity matchLength (state.out - offset) { state with input }

/-- The body of the loop up to the literals. -/
def decodeLiterals (source : List UInt8) (capacity : Nat) (token : UInt8)
    (state : Decoder) : Checked Unit Decoder := do
  let (input, literalLength) ← readLength source state.input (token.toNat / 16)
  if unsignedSub source.length input < literalLength ∨
      unsignedSub capacity state.out < literalLength then .failed ()
  else copyLiterals source capacity literalLength { state with input }

/-- The loop of `lz4_decompress`. -/
def decodeLoop (source : List UInt8) (capacity : Nat) :
    (rounds : Nat) → Decoder → Checked Unit Decoder
  | 0, _ => .endless
  | rounds + 1, state =>
      if state.input ≥ source.length then .failed ()
      else do
        let token ← Checked.get source state.input
        let state ← decodeLiterals source capacity token
          { state with input := state.input + 1 }
        if state.input = source.length then .done state
        else do
          let state ← decodeMatch source capacity token state
          decodeLoop source capacity rounds state

/-- The number of bytes in the output buffer, and the buffer. The call fails where
the code returns -1. -/
def lz4Decompress (source : List UInt8) (dest : Nat → UInt8) (capacity : Nat) :
    Checked Unit (Nat × (Nat → UInt8)) :=
  if source.length = 0 ∨ source.length > maxBufferSize ∨ capacity > maxBufferSize then
    .failed ()
  else do
    let state ← decodeLoop source capacity (source.length + 1)
      { input := 0, out := 0, dest }
    .done (state.out, state.dest)

end Katela.Lz4
