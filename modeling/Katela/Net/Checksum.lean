import Mathlib.Tactic.Common
import Katela.Foundation.Bytes

/-! # The internet checksum

A model of `net/checksum.c` and what its sums stand for: numbers modulo 65535, of
which only 0 is written as 0. -/

namespace Katela.Net

/-- `sum += word` with the carry added again. -/
def addWord (sum word : Nat) : Nat :=
  let sum := (sum + word) % wordSize
  if sum < word then (sum + 1) % wordSize else sum

/-- The bytes are all those that the call is given. -/
def checksumAdd (sum : Nat) : List UInt8 → Nat
  | high :: low :: rest =>
      checksumAdd (addWord sum (256 * high.toNat + low.toNat)) rest
  | [last] => addWord sum (256 * last.toNat)
  | [] => sum

/-- The loop of `checksum_finish`. -/
def foldCarries (sum : Nat) : Nat :=
  if sum / 65536 ≠ 0 then foldCarries (sum % 65536 + sum / 65536) else sum
termination_by sum
decreasing_by omega

def checksumFinish (sum : Nat) : UInt16 :=
  ~~~ UInt16.ofNat (foldCarries sum)

def checksum (bytes : List UInt8) : UInt16 :=
  checksumFinish (checksumAdd 0 bytes)

/-! ## Sums modulo 65535 -/

/-- The sum of the big-endian words of some bytes, the last of which may be half
a word. -/
def wordSum : List UInt8 → Nat
  | high :: low :: rest => 256 * high.toNat + low.toNat + wordSum rest
  | [last] => 256 * last.toNat
  | [] => 0

/-- A sum with carries stands for a total. -/
structure StandsFor (sum total : Nat) : Prop where
  same : sum % 65535 = total % 65535
  zero : sum = 0 ↔ total = 0

section Sums

variable {sum total word : Nat} {bytes more : List UInt8}

theorem wordSum_append (even : bytes.length % 2 = 0) :
    wordSum (bytes ++ more) = wordSum bytes + wordSum more := by
  induction bytes using wordSum.induct with
  | case1 high low rest induction =>
      have isEven : rest.length % 2 = 0 := by
        simp only [List.length_cons] at even
        omega
      rw [List.cons_append, List.cons_append, wordSum, wordSum, induction isEven]
      omega
  | case2 last => cases even
  | case3 =>
      rw [List.nil_append, wordSum]
      omega

theorem StandsFor.addWord (stands : StandsFor sum total) (small : sum < wordSize)
    (isWord : word < 65536) :
    StandsFor (Net.addWord sum word) (total + word) ∧
      Net.addWord sum word < wordSize := by
  rcases stands with ⟨same, zero⟩
  unfold wordSize at small
  unfold Net.addWord wordSize
  dsimp only
  by_cases carry : sum + word < 2 ^ 32
  · have isSum : (sum + word) % 2 ^ 32 = sum + word := Nat.mod_eq_of_lt carry
    rw [isSum, if_neg (by omega)]
    exact ⟨⟨by omega, by omega⟩, carry⟩
  · have isSum : (sum + word) % 2 ^ 32 = sum + word - 2 ^ 32 := by omega
    rw [isSum, if_pos (by omega), Nat.mod_eq_of_lt (by omega)]
    exact ⟨⟨by omega, by omega⟩, by omega⟩

theorem StandsFor.checksumAdd (stands : StandsFor sum total) (small : sum < wordSize)
    (bytes : List UInt8) :
    StandsFor (Net.checksumAdd sum bytes) (total + wordSum bytes) ∧
      Net.checksumAdd sum bytes < wordSize := by
  induction bytes using wordSum.induct generalizing sum total with
  | case1 high low rest induction =>
      have isWord : 256 * high.toNat + low.toNat < 65536 := by
        have first := high.toNat_lt
        have second := low.toNat_lt
        omega
      rcases stands.addWord small isWord with ⟨next, small'⟩
      rw [Net.checksumAdd, wordSum, ← Nat.add_assoc]
      exact induction next small'
  | case2 last =>
      have isWord : 256 * last.toNat < 65536 := by
        have first := last.toNat_lt
        omega
      exact stands.addWord small isWord
  | case3 => exact ⟨stands, small⟩

theorem StandsFor.foldCarries (stands : StandsFor sum total) :
    StandsFor (Net.foldCarries sum) total ∧ Net.foldCarries sum < 65536 := by
  induction sum using Net.foldCarries.induct with
  | case1 sum large induction =>
      rw [Net.foldCarries, if_pos large]
      apply induction
      rcases stands with ⟨same, zero⟩
      have parts : sum = 65536 * (sum / 65536) + sum % 65536 :=
        (Nat.div_add_mod sum 65536).symm
      exact ⟨by omega, by omega⟩
  | case2 sum small =>
      rw [Net.foldCarries, if_neg small]
      exact ⟨stands, by omega⟩

theorem toNat_checksumFinish (small : foldCarries sum < 65536) :
    (checksumFinish sum).toNat = 65535 - foldCarries sum := by
  rw [checksumFinish, UInt16.toNat_not, UInt16.toNat_ofNat', Nat.mod_eq_of_lt small]
  rfl

/-- Data with its checksum in it adds up to zero. A checksum of zero may also be
written as 65535. -/
theorem checksumFinish_eq_zero {stored sum' : Nat} (stands : StandsFor sum total)
    (isStored : stored % 65535 = (checksumFinish sum).toNat % 65535)
    (nonzero : total + stored ≠ 0) (stands' : StandsFor sum' (total + stored)) :
    checksumFinish sum' = 0 := by
  rcases stands.foldCarries with ⟨⟨same, _⟩, small⟩
  rcases stands'.foldCarries with ⟨⟨same', zero'⟩, small'⟩
  rw [toNat_checksumFinish small] at isStored
  apply UInt16.toNat_inj.mp
  rw [toNat_checksumFinish small']
  change _ = 0
  omega

theorem standsFor_zero : StandsFor 0 0 := ⟨rfl, Iff.rfl⟩

/-! ## The sum of RFC 1071 -/

/-- The sum of two numbers of 16 bits, with the carry added at the other end. -/
def onesAdd (left right : Nat) : Nat :=
  if left + right < 65536 then left + right else left + right - 65535

/-- The one's complement sum of the words of some bytes. -/
def onesSum : List UInt8 → Nat
  | high :: low :: rest => onesAdd (256 * high.toNat + low.toNat) (onesSum rest)
  | [last] => 256 * last.toNat
  | [] => 0

theorem StandsFor.onesAdd {left right : Nat} (stands : StandsFor right total)
    (isLeft : left < 65536) (isRight : right < 65536) :
    StandsFor (Net.onesAdd left right) (left + total) ∧ Net.onesAdd left right < 65536 := by
  rcases stands with ⟨same, zero⟩
  unfold Net.onesAdd
  split
  · exact ⟨⟨by omega, by omega⟩, by omega⟩
  · exact ⟨⟨by omega, by omega⟩, by omega⟩

theorem onesSum_standsFor (bytes : List UInt8) :
    StandsFor (onesSum bytes) (wordSum bytes) ∧ onesSum bytes < 65536 := by
  induction bytes using wordSum.induct with
  | case1 high low rest induction =>
      have first := high.toNat_lt
      have second := low.toNat_lt
      rw [onesSum, wordSum]
      exact induction.1.onesAdd (by omega) induction.2
  | case2 last =>
      have first := last.toNat_lt
      exact ⟨⟨rfl, Iff.rfl⟩, by rw [onesSum]; omega⟩
  | case3 => exact ⟨standsFor_zero, by decide⟩

/-- A sum of 16 bits is known from what it stands for. -/
theorem StandsFor.unique {sum' : Nat} (stands : StandsFor sum total)
    (stands' : StandsFor sum' total) (small : sum < 65536) (small' : sum' < 65536) :
    sum = sum' := by
  rcases stands with ⟨same, zero⟩
  rcases stands' with ⟨same', zero'⟩
  omega

/-- Pieces may be added one after the other as long as none but the last ends within
a word. -/
theorem StandsFor.pieces {pieces : List (List UInt8)} (stands : StandsFor sum total)
    (small : sum < wordSize) (even : ∀ piece ∈ pieces.dropLast, piece.length % 2 = 0) :
    StandsFor (pieces.foldl Net.checksumAdd sum) (total + wordSum pieces.flatten) := by
  induction pieces generalizing sum total with
  | nil => exact stands
  | cons piece rest induction =>
      rcases stands.checksumAdd small piece with ⟨next, small'⟩
      cases rest with
      | nil =>
          rw [List.flatten_singleton]
          exact next
      | cons other more =>
          rw [List.dropLast_cons_of_ne_nil (List.cons_ne_nil _ _)] at even
          have isEven := even piece List.mem_cons_self
          rw [List.flatten_cons, wordSum_append isEven, ← Nat.add_assoc]
          exact induction next small' fun piece member =>
            even piece (List.mem_cons_of_mem _ member)

theorem checksumFinish_pieces {pieces : List (List UInt8)}
    (even : ∀ piece ∈ pieces.dropLast, piece.length % 2 = 0) :
    checksumFinish (pieces.foldl checksumAdd 0) =
      ~~~ UInt16.ofNat (onesSum pieces.flatten) := by
  have stands := standsFor_zero.pieces (by decide) even
  rw [Nat.zero_add] at stands
  rcases stands.foldCarries with ⟨folded, small⟩
  rcases onesSum_standsFor pieces.flatten with ⟨exactly, small'⟩
  rw [checksumFinish, folded.unique exactly small small']

end Sums

end Katela.Net
