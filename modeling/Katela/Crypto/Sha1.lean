import Mathlib.Data.Fin.VecNotation
import Katela.Crypto.Streaming

/-! # SHA-1

A model of `sha1.c`, the hash of a message as the Secure Hash Standard defines
it, and the proof that they agree however the message is cut. -/

namespace Katela.Crypto

/-! ## The code -/

namespace Sha1

def rotl (x : UInt32) (n : UInt32) : UInt32 := x <<< n ||| x >>> (32 - n)

abbrev State : Type := Fin 5 → UInt32

/-- The local variables `a` to `e` of `transform`. -/
structure Vars where
  a : UInt32
  b : UInt32
  c : UInt32
  d : UInt32
  e : UInt32

/-- The first loop of `transform`. -/
def loadWords (block : Block 64) : List UInt32 :=
  (List.range 16).map fun i =>
    (block.byteAt (i * 4)).toUInt32 <<< 24 |||
      (block.byteAt (i * 4 + 1)).toUInt32 <<< 16 |||
      (block.byteAt (i * 4 + 2)).toUInt32 <<< 8 |||
      (block.byteAt (i * 4 + 3)).toUInt32

/-- The second loop of `transform`, which fills in the rest of `w`. -/
def extendWords : (rounds : Nat) → List UInt32 → List UInt32
  | 0, w => w
  | rounds + 1, w =>
      let i := w.length
      extendWords rounds (w ++ [rotl (w.getD (i - 3) 0 ^^^ w.getD (i - 8) 0 ^^^
        w.getD (i - 14) 0 ^^^ w.getD (i - 16) 0) 1])

/-- The values of `f` and `k` in a round of the third loop. -/
def roundValues (i : Nat) (b c d : UInt32) : UInt32 × UInt32 :=
  if i < 20 then ((b &&& c) ||| (~~~b &&& d), 0x5a827999)
  else if i < 40 then (b ^^^ c ^^^ d, 0x6ed9eba1)
  else if i < 60 then ((b &&& c) ||| (b &&& d) ||| (c &&& d), 0x8f1bbcdc)
  else (b ^^^ c ^^^ d, 0xca62c1d6)

/-- The third loop of `transform`. -/
def roundLoop (w : List UInt32) : (rounds i : Nat) → Vars → Vars
  | 0, _, vars => vars
  | rounds + 1, i, ⟨a, b, c, d, e⟩ =>
      let values := roundValues i b c d
      let temp := rotl a 5 + values.1 + e + values.2 + w.getD i 0
      roundLoop w rounds (i + 1) ⟨temp, a, rotl b 30, c, d⟩

def transform (state : State) (block : Block 64) : State :=
  let w := extendWords 64 (loadWords block)
  let vars := roundLoop w 80 0 ⟨state 0, state 1, state 2, state 3, state 4⟩
  ![state 0 + vars.a, state 1 + vars.b, state 2 + vars.c, state 3 + vars.d,
    state 4 + vars.e]

end Sha1

abbrev Sha1Context : Type := HashContext Sha1.State

/-- The state that `sha1_init` stores. -/
def Sha1.initial : Sha1.State :=
  ![0x67452301, 0xefcdab89, 0x98badcfe, 0x10325476, 0xc3d2e1f0]

/-- `sha1_init` leaves the buffer as it is. -/
def sha1Init (context : Sha1Context) : Sha1Context :=
  { context with
    state := Sha1.initial
    bytesLow := 0
    bytesHigh := 0
    bufferLength := 0 }

def sha1Update (context : Sha1Context) (bytes : List UInt8) : Sha1Context :=
  update Sha1.transform context bytes

/-- A context of which every byte is zero. -/
def Sha1.cleared : Sha1Context := ⟨fun _ => 0, 0, 0, 0, fun _ => 0⟩

/-- `sha1_final`: the digest and the context that it leaves. -/
def sha1Final (context : Sha1Context) : List UInt8 × Sha1Context :=
  ((List.finRange 5).flatMap fun i =>
    storeBigEndian (lastBlocks Sha1.transform context i), Sha1.cleared)

/-- `sha1`; `context` is its local variable, which is not initialized. -/
def sha1 (context : Sha1Context) (data : List UInt8) : List UInt8 :=
  (sha1Final (sha1Update (sha1Init context) data)).1

/-! ## The standard -/

namespace Sha1.Standard

/-- The circular left shift of a word. -/
def rotateLeft (n : Nat) (x : UInt32) : UInt32 := ⟨x.toBitVec.rotateLeft n⟩

def choose (x y z : UInt32) : UInt32 := (x &&& y) ^^^ (~~~x &&& z)

def parity (x y z : UInt32) : UInt32 := x ^^^ y ^^^ z

def majority (x y z : UInt32) : UInt32 := (x &&& y) ^^^ (x &&& z) ^^^ (y &&& z)

/-- The logical function of the round `t`. -/
def function (t : Nat) : UInt32 → UInt32 → UInt32 → UInt32 :=
  if t ≤ 19 then choose else if t ≤ 39 then parity else if t ≤ 59 then majority
  else parity

def constant (t : Nat) : UInt32 :=
  if t ≤ 19 then 0x5a827999 else if t ≤ 39 then 0x6ed9eba1
  else if t ≤ 59 then 0x8f1bbcdc else 0xca62c1d6

def initialHash : Sha1.State :=
  ![0x67452301, 0xefcdab89, 0x98badcfe, 0x10325476, 0xc3d2e1f0]

/-- A word of a block, with its highest byte first. -/
def blockWord (block : Block 64) (t : Nat) : UInt32 :=
  UInt32.ofNat ((block.byteAt (4 * t)).toNat * 2 ^ 24 +
    (block.byteAt (4 * t + 1)).toNat * 2 ^ 16 +
    (block.byteAt (4 * t + 2)).toNat * 2 ^ 8 + (block.byteAt (4 * t + 3)).toNat)

/-- The message schedule. -/
def schedule (block : Block 64) (t : Nat) : UInt32 :=
  if t < 16 then blockWord block t
  else rotateLeft 1 (schedule block (t - 3) ^^^ schedule block (t - 8) ^^^
    schedule block (t - 14) ^^^ schedule block (t - 16))
termination_by t

/-- The working variables before the round `t`. -/
def working (block : Block 64) (state : Sha1.State) : (t : Nat) → Vars
  | 0 => ⟨state 0, state 1, state 2, state 3, state 4⟩
  | t + 1 =>
      let v := working block state t
      { a := rotateLeft 5 v.a + function t v.b v.c v.d + v.e + constant t +
          schedule block t
        b := v.a
        c := rotateLeft 30 v.b
        d := v.c
        e := v.d }

/-- The hash value after one more block. -/
def nextHash (state : Sha1.State) (block : Block 64) : Sha1.State :=
  let v := working block state 80
  ![v.a + state 0, v.b + state 1, v.c + state 2, v.d + state 3, v.e + state 4]

/-- The message digest. -/
def digest (message : List UInt8) : List UInt8 :=
  (List.finRange 5).flatMap fun i =>
    bigEndian 4 (hashBlocks nextHash initialHash
      (message ++ padding message.length) i).toNat

end Sha1.Standard

/-! ## The block function -/

namespace Sha1

open Standard

/-- Where a bit of the first word is set, the second alternative is zero, and the
other way around. -/
theorem or_eq_choose (x y z : UInt32) : (x &&& y) ||| (~~~x &&& z) = choose x y z := by
  apply UInt32.toBitVec_inj.mp
  apply BitVec.eq_of_getLsbD_eq
  intro index inside
  simp only [choose, UInt32.toBitVec_or, UInt32.toBitVec_and, UInt32.toBitVec_not,
    UInt32.toBitVec_xor, BitVec.getLsbD_or, BitVec.getLsbD_and, BitVec.getLsbD_xor,
    BitVec.getLsbD_not]
  cases x.toBitVec.getLsbD index <;> simp

/-- A bit that two of three words have is one that an odd number of pairs have. -/
theorem or_eq_majority (x y z : UInt32) :
    (x &&& y) ||| (x &&& z) ||| (y &&& z) = majority x y z := by
  apply UInt32.toBitVec_inj.mp
  apply BitVec.eq_of_getLsbD_eq
  intro index inside
  simp only [majority, UInt32.toBitVec_or, UInt32.toBitVec_and, UInt32.toBitVec_xor,
    BitVec.getLsbD_or, BitVec.getLsbD_and, BitVec.getLsbD_xor]
  cases x.toBitVec.getLsbD index <;> cases y.toBitVec.getLsbD index <;> simp

theorem roundValues_eq (t : Nat) (b c d : UInt32) :
    roundValues t b c d = (function t b c d, constant t) := by
  unfold roundValues function constant
  have first : t ≤ 19 ↔ t < 20 := by omega
  have second : t ≤ 39 ↔ t < 40 := by omega
  have third : t ≤ 59 ↔ t < 60 := by omega
  simp only [first, second, third]
  by_cases early : t < 20
  · rw [if_pos early, if_pos early, if_pos early, or_eq_choose]
  · rw [if_neg early, if_neg early, if_neg early]
    by_cases middle : t < 40
    · rw [if_pos middle, if_pos middle, if_pos middle]
      rfl
    · rw [if_neg middle, if_neg middle, if_neg middle]
      by_cases late : t < 60
      · rw [if_pos late, if_pos late, if_pos late, or_eq_majority]
      · rw [if_neg late, if_neg late, if_neg late]
        rfl

theorem loadWords_eq (block : Block 64) :
    loadWords block = (List.range 16).map (schedule block) := by
  apply List.map_congr_left
  intro t member
  rw [schedule, if_pos (List.mem_range.mp member), blockWord, joinBytes_eq,
    Nat.mul_comm t 4]

/-- The words so far are those of the schedule. -/
theorem extendWords_eq (block : Block 64) (rounds : Nat) :
    ∀ count, 16 ≤ count →
      extendWords rounds ((List.range count).map (schedule block)) =
        (List.range (count + rounds)).map (schedule block) := by
  induction rounds with
  | zero => exact fun count _ => rfl
  | succ rounds induction =>
      intro count enough
      have next : schedule block count =
          rotl (schedule block (count - 3) ^^^ schedule block (count - 8) ^^^
            schedule block (count - 14) ^^^ schedule block (count - 16)) 1 := by
        rw [schedule, if_neg (by omega)]
        rfl
      simp only [extendWords, List.length_map, List.length_range]
      rw [getD_map_range (by omega), getD_map_range (by omega),
        getD_map_range (by omega), getD_map_range (by omega), ← next]
      have longer := induction (count + 1) (by omega)
      rw [List.range_succ, List.map_append, List.map_singleton] at longer
      rw [longer, Nat.add_right_comm, Nat.add_assoc]

theorem roundLoop_eq (block : Block 64) (state : State) (rounds : Nat) :
    ∀ t, t + rounds ≤ 80 →
      roundLoop ((List.range 80).map (schedule block)) rounds t
        (working block state t) = working block state (t + rounds) := by
  induction rounds with
  | zero => exact fun t _ => rfl
  | succ rounds induction =>
      intro t most
      have step := induction (t + 1) (by omega)
      rw [show t + 1 + rounds = t + (rounds + 1) by omega] at step
      rw [← step, roundLoop, getD_map_range (by omega), roundValues_eq]
      rfl

theorem transform_eq : transform = nextHash := by
  funext state block
  have words : extendWords 64 (loadWords block) =
      (List.range 80).map (schedule block) := by
    rw [loadWords_eq]
    exact extendWords_eq block 64 16 (by decide)
  have rounds : roundLoop ((List.range 80).map (schedule block)) 80 0
      ⟨state 0, state 1, state 2, state 3, state 4⟩ = working block state 80 :=
    roundLoop_eq block state 80 0 (by decide)
  unfold transform nextHash
  simp only [words, rounds]
  generalize working block state 80 = vars
  rw [UInt32.add_comm (state 0), UInt32.add_comm (state 1),
    UInt32.add_comm (state 2), UInt32.add_comm (state 3),
    UInt32.add_comm (state 4)]

end Sha1

/-! ## Messages in pieces -/

theorem sha1Init_represents (context : Sha1Context) :
    Represents Sha1.transform Sha1.initial (sha1Init context) [] :=
  represents_start context.buffer

/-- The digest of a context that was given a message. -/
theorem sha1Final_eq {context : Sha1Context} {message : List UInt8}
    (represents : Represents Sha1.transform Sha1.initial context message)
    (small : message.length < 2 ^ 61) :
    sha1Final context = (Sha1.Standard.digest message, Sha1.cleared) := by
  unfold sha1Final Sha1.Standard.digest
  rw [lastBlocks_eq represents small, Sha1.transform_eq]
  simp only [storeBigEndian_eq]
  rfl

/-- However a message is cut into pieces, the digest is the one of the standard,
and so is the digest of `sha1` if it can take the message at once. -/
theorem sha1_streaming (context : Sha1Context) (message : List UInt8)
    (chunks : List (List UInt8)) (cut : chunks.flatten = message)
    (sizes : ∀ chunk ∈ chunks, chunk.length < 2 ^ 32)
    (small : message.length < 2 ^ 61) :
    (sha1Final (chunks.foldl sha1Update (sha1Init context))).1 =
        Sha1.Standard.digest message ∧
      (message.length < 2 ^ 32 →
        sha1 context message = Sha1.Standard.digest message) := by
  have start := sha1Init_represents context
  constructor
  · have represents := start.updates chunks sizes
    rw [List.nil_append, cut] at represents
    have final := sha1Final_eq represents small
    exact congrArg Prod.fst final
  · intro single
    have represents := start.update single
    rw [List.nil_append] at represents
    have final := sha1Final_eq represents small
    exact congrArg Prod.fst final

theorem sha1_streaming_abc :
    (sha1Final ([[0x61], [], [0x62, 0x63]].foldl sha1Update
        (sha1Init Sha1.cleared))).1 =
      Sha1.Standard.digest [0x61, 0x62, 0x63] :=
  (sha1_streaming Sha1.cleared [0x61, 0x62, 0x63] [[0x61], [], [0x62, 0x63]] rfl
    (by decide) (by decide)).1

example : sha1 Sha1.cleared [0x61, 0x62, 0x63] =
    [0xa9, 0x99, 0x3e, 0x36, 0x47, 0x06, 0x81, 0x6a, 0xba, 0x3e, 0x25, 0x71, 0x78,
      0x50, 0xc2, 0x6c, 0x9c, 0xd0, 0xd8, 0x9d] := by
  decide +kernel

end Katela.Crypto
