import Katela.Lz4.HighCompression

/-! # Compressed blocks

What holds of every block of both compressors: it fits where `lz4_bound` bytes do, and it
follows the rules of the format, however it is read. -/

namespace Katela.Lz4

/-! ## Room -/

/-- With room for `lz4_bound` bytes no compression fails. -/
theorem lz4Bound_enough (source : Nat → UInt8) (size : Nat) (most : size ≤ maxInputSize) :
    lz4Bound size = size + size / 255 + 16 ∧ lz4Bound size < 2 ^ 31 ∧
    ∀ capacity, lz4Bound size ≤ capacity → capacity ≤ 0x7FFFFFFF →
      (∃ block, lz4Compress source size capacity = .done block) ∧
      ∀ level tables, ∃ block,
        lz4hcCompress source size capacity level tables = .done block := by
  have isMost : maxInputSize = 0x7E000000 := rfl
  have isWord : wordSize = 2 ^ 32 := rfl
  have isBound : lz4Bound size = size + size / 255 + 16 := by
    unfold lz4Bound
    exact Nat.mod_eq_of_lt (by omega)
  refine ⟨isBound, by omega, ?_⟩
  intro capacity room small
  have enough : ¬ Cramped size capacity := by
    unfold Cramped
    omega
  constructor
  · rcases @lz4Compress_spec source size capacity most small with
      ⟨_, cramped⟩ | ⟨block, done, _⟩
    · exact absurd cramped enough
    · exact ⟨block, done⟩
  · intro level tables
    rcases @lz4hcCompress_spec source size capacity most small level tables with
      ⟨_, cramped⟩ | ⟨block, done, _⟩
    · exact absurd cramped enough
    · exact ⟨block, done⟩

theorem lz4Bound_enough_letters :
    lz4Bound 20 = 36 ∧ ∃ block, lz4Compress (fun _ => 97) 20 36 = .done block := by
  rcases lz4Bound_enough (fun _ => 97) 20 (by decide) with ⟨isBound, _, enough⟩
  exact ⟨isBound, (enough 36 (by decide) (by decide)).1⟩

/-! ## One reading of a block -/

theorem lengthBytes_unique {more other : Nat} {rest rest' : List UInt8}
    (same : lengthBytes more ++ rest = lengthBytes other ++ rest') :
    more = other ∧ rest = rest' := by
  induction more using Nat.strongRecOn generalizing other with
  | ind more induction =>
      have small : ∀ {byte : Nat}, byte < 255 → (UInt8.ofNat byte).toNat = byte := by
        intro byte less
        rw [UInt8.toNat_ofNat']
        omega
      have largest : (255 : UInt8).toNat = 255 := rfl
      rcases lengthBytes_cases more with ⟨isSmall, isBytes⟩ | ⟨less, rfl, isBytes⟩
      · rcases lengthBytes_cases other with ⟨isSmall', isBytes'⟩ | ⟨less', rfl, isBytes'⟩
        · rw [isBytes, isBytes'] at same
          injection same with first others
          have equal := congrArg UInt8.toNat first
          rw [small isSmall, small isSmall'] at equal
          exact ⟨equal, others⟩
        · rw [isBytes, isBytes'] at same
          injection same with first others
          have equal := congrArg UInt8.toNat first
          rw [small isSmall, largest] at equal
          omega
      · rcases lengthBytes_cases other with ⟨isSmall', isBytes'⟩ | ⟨less', rfl, isBytes'⟩
        · rw [isBytes, isBytes'] at same
          injection same with first others
          have equal := congrArg UInt8.toNat first
          rw [small isSmall', largest] at equal
          omega
        · rw [isBytes, isBytes'] at same
          injection same with _ others
          rcases induction less (by omega) others with ⟨rfl, equal⟩
          exact ⟨rfl, equal⟩

theorem extension_unique {length other : Nat} {rest rest' : List UInt8}
    (isNibble : min length 15 = min other 15)
    (same : extension length ++ rest = extension other ++ rest') :
    length = other ∧ rest = rest' := by
  by_cases short : length < 15
  · have equal : length = other := by omega
    subst equal
    exact ⟨rfl, List.append_cancel_left same⟩
  · rw [extension_of_le (by omega), extension_of_le (by omega)] at same
    rcases lengthBytes_unique same with ⟨equal, others⟩
    exact ⟨by omega, others⟩

/-- The bytes of a block can be read in one way only. -/
theorem Parses.unique {block literals literals' : List UInt8}
    {sequences sequences' : List Sequence} (parses : Parses block sequences literals)
    (parses' : Parses block sequences' literals') :
    sequences = sequences' ∧ literals = literals' := by
  induction parses generalizing sequences' literals' with
  | @last token literals isToken =>
      generalize isBlock : token :: (extension literals.length ++ literals) = block at parses'
      cases parses' with
      | @last token' literals' isToken' =>
          injection isBlock with sameToken others
          subst sameToken
          exact ⟨rfl, (extension_unique (isToken.symm.trans isToken') others).2⟩
      | @sequence token' low high sequence sequences rest literals' isToken' _ _ =>
          injection isBlock with sameToken others
          subst sameToken
          have isNibble : min literals.length 15 = min sequence.literals.length 15 := by
            omega
          rcases extension_unique isNibble others with ⟨isLength, isRest⟩
          have lengths := congrArg List.length isRest
          rw [List.length_append, List.length_cons] at lengths
          omega
  | @sequence token low high sequence sequences rest literals isToken isOffset parses
      induction =>
      generalize isBlock : token :: (extension sequence.literals.length ++
        (sequence.literals ++ (low :: high :: (extension sequence.matchCode ++ rest)))) =
          block at parses'
      cases parses' with
      | @last token' literals' isToken' =>
          injection isBlock with sameToken others
          subst sameToken
          have isNibble : min sequence.literals.length 15 = min literals'.length 15 := by
            omega
          rcases extension_unique isNibble others with ⟨isLength, isRest⟩
          have lengths := congrArg List.length isRest
          rw [List.length_append, List.length_cons] at lengths
          omega
      | @sequence token' low' high' sequence' sequences'' rest' literals' isToken' isOffset'
          parses' =>
          injection isBlock with sameToken others
          subst sameToken
          rcases extension_unique (by omega) others with ⟨isLength, isRest⟩
          rcases List.append_inj isRest isLength with ⟨sameLiterals, after⟩
          injection after with sameLow after
          injection after with sameHigh after
          rcases extension_unique (by omega) after with ⟨sameCode, sameRest⟩
          subst sameRest sameLow sameHigh
          rcases induction parses' with ⟨rfl, rfl⟩
          have sameSequence : sequence = sequence' := by
            cases sequence
            cases sequence'
            dsimp only at sameLiterals sameCode isOffset isOffset'
            rw [sameLiterals, sameCode, ← isOffset, ← isOffset']
          rw [sameSequence]
          exact ⟨rfl, rfl⟩

/-! ## The rules of the format -/

/-- A block that one of the compressors has produced. -/
inductive Produced (source : Nat → UInt8) (size : Nat) (block : List UInt8) : Prop where
  | fast (capacity : Nat) (done : lz4Compress source size capacity = .done block)
  | high (capacity : Nat) (level : Int) (tables : Tables)
      (done : lz4hcCompress source size capacity level tables = .done block)

theorem Produced.compressed {source : Nat → UInt8} {size : Nat} {block : List UInt8}
    (produced : Produced source size block) : Compressed source size block := by
  cases produced with
  | fast capacity done =>
      have inside : size ≤ maxInputSize ∧ capacity ≤ maxBufferSize := by
        by_contra outside
        rw [lz4Compress, if_pos (by omega)] at done
        cases done
      rcases @lz4Compress_spec source size capacity inside.1 inside.2 with
        ⟨failed, _⟩ | ⟨block', done', _, compressed⟩
      · rw [failed] at done
        cases done
      · rw [done'] at done
        cases done
        exact compressed
  | high capacity level tables done =>
      have inside : size ≤ maxInputSize ∧ capacity ≤ maxBufferSize := by
        by_contra outside
        rw [lz4hcCompress, if_pos (by omega)] at done
        cases done
      rcases @lz4hcCompress_spec source size capacity inside.1 inside.2 level tables with
        ⟨failed, _⟩ | ⟨block', done', _, compressed⟩
      · rw [failed] at done
        cases done
      · rw [done'] at done
        cases done
        exact compressed

/-- Every block that is produced stands for its input, and each of its back references
reaches 1 to 65535 bytes back, is at least 4 bytes long, starts 12 bytes before the end of
the input and ends 5 bytes before it. After the last one there are only literals. -/
theorem produced_conforms (source : Nat → UInt8) (size : Nat) (block : List UInt8)
    (produced : Produced source size block) :
    (∃ sequences literals, Parses block sequences literals) ∧
    ∀ sequences literals, Parses block sequences literals →
      denotation sequences literals = some (upTo source size) ∧
      Conforms size 0 sequences ∧
      ∀ sequence ∈ sequences, 1 ≤ sequence.offset ∧ sequence.offset ≤ 65535 ∧
        4 ≤ sequence.matchLength := by
  rcases produced.compressed with ⟨sequences, literals, parses, isOutput, conforms⟩
  refine ⟨⟨sequences, literals, parses⟩, ?_⟩
  intro sequences' literals' parses'
  rcases parses.unique parses' with ⟨rfl, rfl⟩
  refine ⟨isOutput, conforms, fun sequence member => ?_⟩
  exact ⟨conforms.offset_pos sequence member, (conforms.lengths sequence member).1,
    Nat.le_add_left _ _⟩

theorem produced_conforms_letters :
    ∃ sequences literals,
      Parses [26, 97, 1, 0, 80, 97, 97, 97, 97, 97] sequences literals ∧
      Conforms 20 0 sequences := by
  have done : lz4Compress (fun _ => 97) 20 100 =
      .done [26, 97, 1, 0, 80, 97, 97, 97, 97, 97] := by decide
  rcases produced_conforms (fun _ => 97) 20 _ (.fast 100 done) with
    ⟨⟨sequences, literals, parses⟩, all⟩
  exact ⟨sequences, literals, parses, (all sequences literals parses).2.1⟩

end Katela.Lz4
