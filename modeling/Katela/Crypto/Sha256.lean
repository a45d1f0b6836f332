import Mathlib.Data.Fin.VecNotation
import Mathlib.Data.Nat.Sqrt
import Mathlib.Data.Nat.Find
import Mathlib.Tactic.NormNum
import Katela.Crypto.Streaming

/-! # SHA-256

A model of `sha256.c`, the hash of a message as the Secure Hash Standard
defines it, and the proof that they agree however the message is cut. -/

namespace Katela.Crypto

/-! ## The code -/

namespace Sha256

def rotr (x : UInt32) (n : UInt32) : UInt32 := x >>> n ||| x <<< (32 - n)

def ch (x y z : UInt32) : UInt32 := (x &&& y) ^^^ (~~~x &&& z)

def maj (x y z : UInt32) : UInt32 := (x &&& y) ^^^ (x &&& z) ^^^ (y &&& z)

def bigSigma0 (x : UInt32) : UInt32 := rotr x 2 ^^^ rotr x 13 ^^^ rotr x 22

def bigSigma1 (x : UInt32) : UInt32 := rotr x 6 ^^^ rotr x 11 ^^^ rotr x 25

def smallSigma0 (x : UInt32) : UInt32 := rotr x 7 ^^^ rotr x 18 ^^^ x >>> 3

def smallSigma1 (x : UInt32) : UInt32 := rotr x 17 ^^^ rotr x 19 ^^^ x >>> 10

def constants : List UInt32 :=
  [0x428a2f98, 0x71374491, 0xb5c0fbcf, 0xe9b5dba5, 0x3956c25b, 0x59f111f1,
    0x923f82a4, 0xab1c5ed5, 0xd807aa98, 0x12835b01, 0x243185be, 0x550c7dc3,
    0x72be5d74, 0x80deb1fe, 0x9bdc06a7, 0xc19bf174, 0xe49b69c1, 0xefbe4786,
    0x0fc19dc6, 0x240ca1cc, 0x2de92c6f, 0x4a7484aa, 0x5cb0a9dc, 0x76f988da,
    0x983e5152, 0xa831c66d, 0xb00327c8, 0xbf597fc7, 0xc6e00bf3, 0xd5a79147,
    0x06ca6351, 0x14292967, 0x27b70a85, 0x2e1b2138, 0x4d2c6dfc, 0x53380d13,
    0x650a7354, 0x766a0abb, 0x81c2c92e, 0x92722c85, 0xa2bfe8a1, 0xa81a664b,
    0xc24b8b70, 0xc76c51a3, 0xd192e819, 0xd6990624, 0xf40e3585, 0x106aa070,
    0x19a4c116, 0x1e376c08, 0x2748774c, 0x34b0bcb5, 0x391c0cb3, 0x4ed8aa4a,
    0x5b9cca4f, 0x682e6ff3, 0x748f82ee, 0x78a5636f, 0x84c87814, 0x8cc70208,
    0x90befffa, 0xa4506ceb, 0xbef9a3f7, 0xc67178f2]

abbrev State : Type := Fin 8 → UInt32

/-- The local variables `a` to `h` of `transform`. -/
structure Vars where
  a : UInt32
  b : UInt32
  c : UInt32
  d : UInt32
  e : UInt32
  f : UInt32
  g : UInt32
  h : UInt32

/-- The first loop of `transform`. -/
def loadWords (block : Block 64) : List UInt32 :=
  (List.range 16).map fun i =>
    (block.byteAt (i * 4)).toUInt32 <<< 24 |||
      (block.byteAt (i * 4 + 1)).toUInt32 <<< 16 |||
      (block.byteAt (i * 4 + 2)).toUInt32 <<< 8 |||
      (block.byteAt (i * 4 + 3)).toUInt32

/-- The second loop of `transform`, which fills in the rest of `w`. -/
def extendWords : (rounds : Nat) → List UInt32 → List UInt32
  | 0, w => w
  | rounds + 1, w =>
      let i := w.length
      extendWords rounds (w ++ [smallSigma1 (w.getD (i - 2) 0) +
        w.getD (i - 7) 0 + smallSigma0 (w.getD (i - 15) 0) + w.getD (i - 16) 0])

/-- The third loop of `transform`. -/
def roundLoop (w : List UInt32) : (rounds i : Nat) → Vars → Vars
  | 0, _, vars => vars
  | rounds + 1, i, ⟨a, b, c, d, e, f, g, h⟩ =>
      let t1 := h + bigSigma1 e + ch e f g + constants.getD i 0 + w.getD i 0
      let t2 := bigSigma0 a + maj a b c
      roundLoop w rounds (i + 1) ⟨t1 + t2, a, b, c, d + t1, e, f, g⟩

def transform (state : State) (block : Block 64) : State :=
  let w := extendWords 48 (loadWords block)
  let vars := roundLoop w 64 0 ⟨state 0, state 1, state 2, state 3, state 4,
    state 5, state 6, state 7⟩
  ![state 0 + vars.a, state 1 + vars.b, state 2 + vars.c, state 3 + vars.d,
    state 4 + vars.e, state 5 + vars.f, state 6 + vars.g, state 7 + vars.h]

end Sha256

abbrev Sha256Context : Type := HashContext Sha256.State

/-- The state that `sha256_init` stores. -/
def Sha256.initial : Sha256.State :=
  ![0x6a09e667, 0xbb67ae85, 0x3c6ef372, 0xa54ff53a, 0x510e527f, 0x9b05688c,
    0x1f83d9ab, 0x5be0cd19]

/-- `sha256_init` leaves the buffer as it is. -/
def sha256Init (context : Sha256Context) : Sha256Context :=
  { context with
    state := Sha256.initial
    bytesLow := 0
    bytesHigh := 0
    bufferLength := 0 }

def sha256Update (context : Sha256Context) (bytes : List UInt8) : Sha256Context :=
  update Sha256.transform context bytes

/-- A context of which every byte is zero. -/
def Sha256.cleared : Sha256Context := ⟨fun _ => 0, 0, 0, 0, fun _ => 0⟩

/-- `sha256_final`: the digest and the context that it leaves. -/
def sha256Final (context : Sha256Context) : List UInt8 × Sha256Context :=
  ((List.finRange 8).flatMap fun i =>
    storeBigEndian (lastBlocks Sha256.transform context i), Sha256.cleared)

/-- `sha256`; `context` is its local variable, which is not initialized. -/
def sha256 (context : Sha256Context) (data : List UInt8) : List UInt8 :=
  (sha256Final (sha256Update (sha256Init context) data)).1

/-! ## The standard -/

namespace Sha256.Standard

/-- The first sixty-four primes. -/
def primes : List Nat :=
  (List.range 312).filter fun n =>
    2 ≤ n ∧ ∀ divisor, divisor < n → 2 ≤ divisor → n % divisor ≠ 0

/-- The first 32 bits of the fractional part of the cube root of a prime. -/
def cubeRootBits (prime : Nat) : UInt32 :=
  UInt32.ofNat (Nat.findGreatest (fun root => root ^ 3 ≤ prime * 2 ^ 96)
    (prime * 2 ^ 96))

/-- The first 32 bits of the fractional part of the square root of a prime. -/
def squareRootBits (prime : Nat) : UInt32 :=
  UInt32.ofNat (Nat.sqrt (prime * 2 ^ 64))

def constant (t : Nat) : UInt32 := cubeRootBits (primes.getD t 0)

def initialHash : Sha256.State := fun i => squareRootBits (primes.getD i 0)

/-- The circular right shift of a word. -/
def rotateRight (n : Nat) (x : UInt32) : UInt32 := ⟨x.toBitVec.rotateRight n⟩

/-- The right shift of a word. -/
def shiftRight (n : Nat) (x : UInt32) : UInt32 := ⟨x.toBitVec >>> n⟩

def choose (x y z : UInt32) : UInt32 := (x &&& y) ^^^ (~~~x &&& z)

def majority (x y z : UInt32) : UInt32 := (x &&& y) ^^^ (x &&& z) ^^^ (y &&& z)

def upperSigma0 (x : UInt32) : UInt32 :=
  rotateRight 2 x ^^^ rotateRight 13 x ^^^ rotateRight 22 x

def upperSigma1 (x : UInt32) : UInt32 :=
  rotateRight 6 x ^^^ rotateRight 11 x ^^^ rotateRight 25 x

def lowerSigma0 (x : UInt32) : UInt32 :=
  rotateRight 7 x ^^^ rotateRight 18 x ^^^ shiftRight 3 x

def lowerSigma1 (x : UInt32) : UInt32 :=
  rotateRight 17 x ^^^ rotateRight 19 x ^^^ shiftRight 10 x

/-- A word of a block, with its highest byte first. -/
def blockWord (block : Block 64) (t : Nat) : UInt32 :=
  UInt32.ofNat ((block.byteAt (4 * t)).toNat * 2 ^ 24 +
    (block.byteAt (4 * t + 1)).toNat * 2 ^ 16 +
    (block.byteAt (4 * t + 2)).toNat * 2 ^ 8 + (block.byteAt (4 * t + 3)).toNat)

/-- The message schedule. -/
def schedule (block : Block 64) (t : Nat) : UInt32 :=
  if t < 16 then blockWord block t
  else lowerSigma1 (schedule block (t - 2)) + schedule block (t - 7) +
    lowerSigma0 (schedule block (t - 15)) + schedule block (t - 16)
termination_by t

/-- The working variables before the round `t`. -/
def working (block : Block 64) (state : Sha256.State) : (t : Nat) → Vars
  | 0 => ⟨state 0, state 1, state 2, state 3, state 4, state 5, state 6, state 7⟩
  | t + 1 =>
      let v := working block state t
      let temporary1 := v.h + upperSigma1 v.e + choose v.e v.f v.g + constant t +
        schedule block t
      let temporary2 := upperSigma0 v.a + majority v.a v.b v.c
      { a := temporary1 + temporary2
        b := v.a
        c := v.b
        d := v.c
        e := v.d + temporary1
        f := v.e
        g := v.f
        h := v.g }

/-- The hash value after one more block. -/
def nextHash (state : Sha256.State) (block : Block 64) : Sha256.State :=
  let v := working block state 64
  ![v.a + state 0, v.b + state 1, v.c + state 2, v.d + state 3, v.e + state 4,
    v.f + state 5, v.g + state 6, v.h + state 7]

/-- The message digest. -/
def digest (message : List UInt8) : List UInt8 :=
  (List.finRange 8).flatMap fun i =>
    bigEndian 4 (hashBlocks nextHash initialHash
      (message ++ padding message.length) i).toNat

end Sha256.Standard

/-! ## The constants of the code -/

namespace Sha256

open Standard

theorem primes_eq : primes =
    [2, 3, 5, 7, 11, 13, 17, 19, 23, 29, 31, 37, 41, 43, 47, 53, 59, 61, 67, 71, 73,
      79, 83, 89, 97, 101, 103, 107, 109, 113, 127, 131, 137, 139, 149, 151, 157,
      163, 167, 173, 179, 181, 191, 193, 197, 199, 211, 223, 227, 229, 233, 239,
      241, 251, 257, 263, 269, 271, 277, 281, 283, 293, 307, 311] := by
  decide +kernel

theorem cubeRootBits_eq {prime root : Nat} (lower : root ^ 3 ≤ prime * 2 ^ 96)
    (upper : prime * 2 ^ 96 < (root + 1) ^ 3) :
    cubeRootBits prime = UInt32.ofNat root := by
  have greatest : Nat.findGreatest (fun root => root ^ 3 ≤ prime * 2 ^ 96)
      (prime * 2 ^ 96) = root := by
    apply Nat.findGreatest_eq_iff.mpr
    refine ⟨(Nat.le_self_pow (by decide) root).trans lower, fun _ => lower, ?_⟩
    intro other larger _ below
    have cubes : (root + 1) ^ 3 ≤ other ^ 3 := Nat.pow_le_pow_left larger 3
    omega
  unfold cubeRootBits
  rw [greatest]

theorem squareRootBits_eq {prime root : Nat} (lower : root * root ≤ prime * 2 ^ 64)
    (upper : prime * 2 ^ 64 < (root + 1) * (root + 1)) :
    squareRootBits prime = UInt32.ofNat root := by
  unfold squareRootBits
  rw [← Nat.eq_sqrt.mpr ⟨lower, upper⟩]

/-- A word with a whole part in front of it. -/
theorem ofNat_whole (whole : Nat) (bits : UInt32) :
    UInt32.ofNat (whole * 2 ^ 32 + bits.toNat) = bits := by
  apply UInt32.toNat_inj.mp
  rw [UInt32.toNat_ofNat']
  have bound := bits.toNat_lt
  omega

/-- The whole part of the cube root of a prime up to 311. -/
def wholeCubeRoot (prime : Nat) : Nat :=
  if prime < 8 then 1 else if prime < 27 then 2 else if prime < 64 then 3
  else if prime < 125 then 4 else if prime < 216 then 5 else 6

/-- The table of the code is the one of the standard. -/
theorem constants_eq {t : Nat} (less : t < 64) : constants.getD t 0 = constant t := by
  have all : ∀ t, t < 64 →
      (wholeCubeRoot (primes.getD t 0) * 2 ^ 32 + (constants.getD t 0).toNat) ^ 3 ≤
        primes.getD t 0 * 2 ^ 96 ∧
      primes.getD t 0 * 2 ^ 96 <
        (wholeCubeRoot (primes.getD t 0) * 2 ^ 32 +
          (constants.getD t 0).toNat + 1) ^ 3 := by
    rw [primes_eq]
    decide +kernel
  rcases all t less with ⟨lower, upper⟩
  rw [constant, cubeRootBits_eq lower upper, ofNat_whole]

/-- The whole part of the square root of a prime up to 19. -/
def wholeSquareRoot (prime : Nat) : Nat :=
  if prime < 4 then 1 else if prime < 9 then 2 else if prime < 16 then 3 else 4

theorem initial_eq : initial = initialHash := by
  have all : ∀ i : Fin 8,
      (wholeSquareRoot (primes.getD i 0) * 2 ^ 32 + (initial i).toNat) *
        (wholeSquareRoot (primes.getD i 0) * 2 ^ 32 + (initial i).toNat) ≤
        primes.getD i 0 * 2 ^ 64 ∧
      primes.getD i 0 * 2 ^ 64 <
        (wholeSquareRoot (primes.getD i 0) * 2 ^ 32 + (initial i).toNat + 1) *
          (wholeSquareRoot (primes.getD i 0) * 2 ^ 32 + (initial i).toNat + 1) := by
    rw [primes_eq]
    decide +kernel
  funext i
  rcases all i with ⟨lower, upper⟩
  rw [initialHash, squareRootBits_eq lower upper, ofNat_whole]

/-! ## The block function -/

theorem loadWords_eq (block : Block 64) :
    loadWords block = (List.range 16).map (schedule block) := by
  apply List.map_congr_left
  intro t member
  rw [schedule, if_pos (List.mem_range.mp member), blockWord, joinBytes_eq,
    Nat.mul_comm t 4]

/-- The words so far are those of the schedule. -/
theorem extendWords_eq (block : Block 64) (rounds : Nat) :
    ∀ count, 16 ≤ count →
      extendWords rounds ((List.range count).map (schedule block)) =
        (List.range (count + rounds)).map (schedule block) := by
  induction rounds with
  | zero => exact fun count _ => rfl
  | succ rounds induction =>
      intro count enough
      have next : schedule block count =
          smallSigma1 (schedule block (count - 2)) + schedule block (count - 7) +
            smallSigma0 (schedule block (count - 15)) +
            schedule block (count - 16) := by
        rw [schedule, if_neg (by omega)]
        rfl
      simp only [extendWords, List.length_map, List.length_range]
      rw [getD_map_range (by omega), getD_map_range (by omega),
        getD_map_range (by omega), getD_map_range (by omega), ← next]
      have longer := induction (count + 1) (by omega)
      rw [List.range_succ, List.map_append, List.map_singleton] at longer
      rw [longer, Nat.add_right_comm, Nat.add_assoc]

theorem roundLoop_eq (block : Block 64) (state : State) (rounds : Nat) :
    ∀ t, t + rounds ≤ 64 →
      roundLoop ((List.range 64).map (schedule block)) rounds t
        (working block state t) = working block state (t + rounds) := by
  induction rounds with
  | zero => exact fun t _ => rfl
  | succ rounds induction =>
      intro t most
      have step := induction (t + 1) (by omega)
      rw [show t + 1 + rounds = t + (rounds + 1) by omega] at step
      rw [← step, roundLoop, getD_map_range (by omega), constants_eq (by omega)]
      rfl

theorem transform_eq : transform = nextHash := by
  funext state block
  have words : extendWords 48 (loadWords block) =
      (List.range 64).map (schedule block) := by
    rw [loadWords_eq]
    exact extendWords_eq block 48 16 (by decide)
  have rounds : roundLoop ((List.range 64).map (schedule block)) 64 0
      ⟨state 0, state 1, state 2, state 3, state 4, state 5, state 6, state 7⟩ =
        working block state 64 := roundLoop_eq block state 64 0 (by decide)
  unfold transform nextHash
  simp only [words, rounds]
  generalize working block state 64 = vars
  rw [UInt32.add_comm (state 0), UInt32.add_comm (state 1),
    UInt32.add_comm (state 2), UInt32.add_comm (state 3),
    UInt32.add_comm (state 4), UInt32.add_comm (state 5),
    UInt32.add_comm (state 6), UInt32.add_comm (state 7)]

end Sha256

/-! ## Messages in pieces -/

theorem sha256Init_represents (context : Sha256Context) :
    Represents Sha256.transform Sha256.initial (sha256Init context) [] :=
  represents_start context.buffer

/-- The digest of a context that was given a message. -/
theorem sha256Final_eq {context : Sha256Context} {message : List UInt8}
    (represents : Represents Sha256.transform Sha256.initial context message)
    (small : message.length < 2 ^ 61) :
    sha256Final context = (Sha256.Standard.digest message, Sha256.cleared) := by
  unfold sha256Final Sha256.Standard.digest
  rw [lastBlocks_eq represents small, Sha256.transform_eq, Sha256.initial_eq]
  simp only [storeBigEndian_eq]

/-- However a message is cut into pieces, the digest is the one of the standard,
and so is the digest of `sha256` if it can take the message at once. -/
theorem sha256_streaming (context : Sha256Context) (message : List UInt8)
    (chunks : List (List UInt8)) (cut : chunks.flatten = message)
    (sizes : ∀ chunk ∈ chunks, chunk.length < 2 ^ 32)
    (small : message.length < 2 ^ 61) :
    (sha256Final (chunks.foldl sha256Update (sha256Init context))).1 =
        Sha256.Standard.digest message ∧
      (message.length < 2 ^ 32 →
        sha256 context message = Sha256.Standard.digest message) := by
  have start := sha256Init_represents context
  constructor
  · have represents := start.updates chunks sizes
    rw [List.nil_append, cut] at represents
    have final := sha256Final_eq represents small
    exact congrArg Prod.fst final
  · intro single
    have represents := start.update single
    rw [List.nil_append] at represents
    have final := sha256Final_eq represents small
    exact congrArg Prod.fst final

theorem sha256_streaming_abc :
    (sha256Final ([[0x61], [], [0x62, 0x63]].foldl sha256Update
        (sha256Init Sha256.cleared))).1 =
      Sha256.Standard.digest [0x61, 0x62, 0x63] :=
  (sha256_streaming Sha256.cleared [0x61, 0x62, 0x63] [[0x61], [], [0x62, 0x63]] rfl
    (by decide) (by decide)).1

example : sha256 Sha256.cleared [0x61, 0x62, 0x63] =
    [0xba, 0x78, 0x16, 0xbf, 0x8f, 0x01, 0xcf, 0xea, 0x41, 0x41, 0x40, 0xde, 0x5d,
      0xae, 0x22, 0x23, 0xb0, 0x03, 0x61, 0xa3, 0x96, 0x17, 0x7a, 0x9c, 0xb4, 0x10,
      0xff, 0x61, 0xf2, 0x00, 0x15, 0xad] := by
  decide +kernel

end Katela.Crypto
