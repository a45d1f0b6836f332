import Katela.Foundation.BackReference

/-! # The LZ4 block format

A block is a list of sequences, each of which is some literals and a back
reference, and some last literals. -/

namespace Katela.Lz4

/-- The shortest back reference, `LZ4_MIN_MATCH`. -/
def minMatch : Nat := 4

/-- Literals and a back reference. The length of the reference is stored less
its minimum. -/
structure Sequence where
  literals : List UInt8
  offset : Nat
  matchCode : Nat
  deriving DecidableEq, Repr

namespace Sequence

def matchLength (sequence : Sequence) : Nat := sequence.matchCode + minMatch

end Sequence

/-- A number as bytes that are added up, of which the last is not 255. -/
def lengthBytes (more : Nat) : List UInt8 :=
  List.replicate (more / 255) 255 ++ [UInt8.ofNat (more % 255)]

/-- The bytes of a length that does not fit in the four bits of the token. -/
def extension (length : Nat) : List UInt8 :=
  if length < 15 then [] else lengthBytes (length - 15)

/-- The bytes of a block are the given sequences and last literals. The low bits
of the last token have no meaning. -/
inductive Parses : List UInt8 → List Sequence → List UInt8 → Prop where
  | last {token : UInt8} {literals : List UInt8}
      (isToken : token.toNat / 16 = min literals.length 15) :
      Parses (token :: (extension literals.length ++ literals)) [] literals
  | sequence {token low high : UInt8} {sequence : Sequence}
      {sequences : List Sequence} {rest literals : List UInt8}
      (isToken : token.toNat =
        16 * min sequence.literals.length 15 + min sequence.matchCode 15)
      (isOffset : low.toNat + 256 * high.toNat = sequence.offset)
      (parses : Parses rest sequences literals) :
      Parses
        (token :: (extension sequence.literals.length ++ (sequence.literals ++
          (low :: high :: (extension sequence.matchCode ++ rest)))))
        (sequence :: sequences) literals

/-- The output after some sequences. A back reference has to reach something
that was produced before. -/
def expand : List Sequence → List UInt8 → Option (List UInt8)
  | [], produced => some produced
  | sequence :: rest, produced =>
      let written := produced ++ sequence.literals
      if 1 ≤ sequence.offset ∧ sequence.offset ≤ written.length then
        expand rest (copyBack sequence.offset sequence.matchLength written)
      else none

/-- The output of a block. -/
def denotation (sequences : List Sequence) (literals : List UInt8) :
    Option (List UInt8) :=
  (expand sequences []).map (· ++ literals)

/-- No length of the block is larger than `most`. -/
def LengthsAtMost (most : Nat) (sequences : List Sequence) (literals : List UInt8) :
    Prop :=
  (∀ sequence ∈ sequences,
    sequence.literals.length ≤ most ∧ sequence.matchCode ≤ most) ∧
  literals.length ≤ most

theorem lengthBytes_of_lt {more : Nat} (small : more < 255) :
    lengthBytes more = [UInt8.ofNat more] := by
  simp [lengthBytes, Nat.div_eq_of_lt small, Nat.mod_eq_of_lt small]

theorem lengthBytes_add (more : Nat) :
    lengthBytes (more + 255) = 255 :: lengthBytes more := by
  have quotient : (more + 255) / 255 = more / 255 + 1 :=
    Nat.add_div_right more (by decide)
  simp [lengthBytes, quotient, List.replicate_succ]

/-- A list of this kind starts with 255 as long as there is more to add. -/
theorem lengthBytes_cases (more : Nat) :
    (more < 255 ∧ lengthBytes more = [UInt8.ofNat more]) ∨
    ∃ less, more = less + 255 ∧ lengthBytes more = 255 :: lengthBytes less := by
  by_cases small : more < 255
  · exact Or.inl ⟨small, lengthBytes_of_lt small⟩
  · rcases Nat.exists_eq_add_of_le' (Nat.le_of_not_lt small) with ⟨less, rfl⟩
    exact Or.inr ⟨less, rfl, lengthBytes_add less⟩

@[simp] theorem length_lengthBytes (more : Nat) :
    (lengthBytes more).length = more / 255 + 1 := by
  simp [lengthBytes]

theorem extension_of_lt {length : Nat} (small : length < 15) :
    extension length = [] :=
  if_pos small

theorem extension_of_le {length : Nat} (large : 15 ≤ length) :
    extension length = lengthBytes (length - 15) :=
  if_neg (by omega)

end Katela.Lz4
