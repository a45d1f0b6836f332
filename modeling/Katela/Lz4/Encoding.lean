import Katela.Lz4.Decoding

/-! # The encoder

Every back reference of the encoder was compared byte by byte with what it
stands for, so the output of the block is the input. -/

namespace Katela.Lz4

/-! ## The bytes of a sequence -/

/-- A token with the lengths of the literals and of the back reference. -/
def tokenOf (literalLength matchCode : Nat) : UInt8 :=
  UInt8.ofNat (16 * min literalLength 15 + min matchCode 15)

def encodeSequence (sequence : Sequence) : List UInt8 :=
  tokenOf sequence.literals.length sequence.matchCode ::
    (extension sequence.literals.length ++ (sequence.literals ++
      (UInt8.ofNat (sequence.offset % 256) :: UInt8.ofNat (sequence.offset / 256) ::
        extension sequence.matchCode)))

def encodeLast (literals : List UInt8) : List UInt8 :=
  tokenOf literals.length 0 :: (extension literals.length ++ literals)

theorem toNat_tokenOf (literalLength matchCode : Nat) :
    (tokenOf literalLength matchCode).toNat =
      16 * min literalLength 15 + min matchCode 15 := by
  rw [tokenOf, UInt8.toNat_ofNat']
  exact Nat.mod_eq_of_lt (by omega)

theorem encodeLast_parses (literals : List UInt8) :
    Parses (encodeLast literals) [] literals := by
  apply Parses.last
  rw [toNat_tokenOf]
  omega

theorem encodeSequence_parses {sequence : Sequence} {sequences : List Sequence}
    {rest literals : List UInt8} (small : sequence.offset ≤ maxOffset)
    (parses : Parses rest sequences literals) :
    Parses (encodeSequence sequence ++ rest) (sequence :: sequences) literals := by
  have isOffset : (UInt8.ofNat (sequence.offset % 256)).toNat +
      256 * (UInt8.ofNat (sequence.offset / 256)).toNat = sequence.offset := by
    unfold maxOffset at small
    rw [UInt8.toNat_ofNat', UInt8.toNat_ofNat']
    omega
  have whole := Parses.sequence (toNat_tokenOf _ _) isOffset parses
  simpa [encodeSequence] using whole

theorem encoded_parses {sequences : List Sequence} (literals : List UInt8)
    (small : ∀ sequence ∈ sequences, sequence.offset ≤ maxOffset) :
    Parses (sequences.flatMap encodeSequence ++ encodeLast literals) sequences
      literals := by
  induction sequences with
  | nil => exact encodeLast_parses literals
  | cons sequence sequences induction =>
      rw [List.flatMap_cons, List.append_assoc]
      exact encodeSequence_parses (small sequence (by simp))
        (induction fun other member => small other (by simp [member]))

/-! ## Writing a sequence -/

theorem writeRemaining_eq (rounds : Nat) {remaining : Nat} (enough : remaining < rounds) :
    writeRemaining rounds remaining = lengthBytes remaining := by
  induction rounds generalizing remaining with
  | zero => omega
  | succ rounds induction =>
      unfold writeRemaining
      rcases lengthBytes_cases remaining with ⟨less, isBytes⟩ | ⟨less, rfl, isBytes⟩
      · rw [if_neg (by omega), isBytes]
      · rw [if_pos (by omega), isBytes, Nat.add_sub_cancel,
          induction (by omega)]

theorem writeExtension_eq (length : Nat) (out : List UInt8) :
    (if length ≥ 15 then out ++ writeExtraLength length else out) =
      out ++ extension length := by
  by_cases large : length ≥ 15
  · rw [if_pos large, extension_of_le large, writeExtraLength,
      writeRemaining_eq _ (Nat.lt_succ_self _)]
  · rw [if_neg large, extension_of_lt (by omega), List.append_nil]

theorem extraLengthBytes_eq (length : Nat) :
    extraLengthBytes length = (extension length).length := by
  unfold extraLengthBytes extension
  split
  · rfl
  · rw [length_lengthBytes]

theorem token_eq {left right : Nat} (small : left ≤ 15) (small' : right ≤ 15) :
    UInt8.ofNat (left <<< 4) ||| UInt8.ofNat right = UInt8.ofNat (16 * left + right) := by
  have all : ∀ left right : Fin 16,
      UInt8.ofNat (left.val <<< 4) ||| UInt8.ofNat right.val =
        UInt8.ofNat (16 * left.val + right.val) := by
    decide
  exact all ⟨left, by omega⟩ ⟨right, by omega⟩

theorem nibble_eq (length : Nat) : (if length ≥ 15 then 15 else length) = min length 15 := by
  split <;> omega

/-- The number of bytes of a length is small. -/
theorem length_extension_le (length : Nat) :
    (extension length).length ≤ length / 15 := by
  rw [← extraLengthBytes_eq]
  unfold extraLengthBytes
  split <;> omega

theorem length_encodeSequence (sequence : Sequence) :
    (encodeSequence sequence).length = 1 + sequence.literals.length +
      (extension sequence.literals.length).length +
        (2 + (extension sequence.matchCode).length) := by
  simp only [encodeSequence, List.length_cons, List.length_append]
  omega

theorem length_encodeLast (literals : List UInt8) :
    (encodeLast literals).length =
      1 + literals.length + (extension literals.length).length := by
  simp only [encodeLast, List.length_cons, List.length_append]
  omega

section Write

variable {capacity : Nat} {out : List UInt8} {literals : Nat → UInt8}
variable {literalLength offset matchLength : Nat}

/-- A sequence is written as a whole if there is room for it. -/
theorem lz4WriteSequence_match (small : capacity ≤ maxBufferSize)
    (room : out.length ≤ capacity) (few : literalLength ≤ maxInputSize)
    (least : minMatch ≤ matchLength) (most : matchLength ≤ maxInputSize) :
    lz4WriteSequence capacity out literals literalLength offset matchLength =
      let bytes := encodeSequence
        ⟨upTo literals literalLength, offset, matchLength - minMatch⟩
      if capacity < out.length + bytes.length then none else some (out ++ bytes) := by
  have large : maxInputSize = 0x7E000000 := rfl
  have word : wordSize = 2 ^ 32 := rfl
  have isLeast : minMatch = 4 := rfl
  have isMatch : matchLength ≠ 0 := by omega
  have isCode : unsignedSub matchLength minMatch = matchLength - minMatch :=
    unsignedSub_eq least (by omega)
  generalize isMatchCode : matchLength - minMatch = matchCode at *
  have first := length_extension_le literalLength
  have second := length_extension_le matchCode
  have isLength := length_encodeSequence ⟨upTo literals literalLength, offset, matchCode⟩
  simp only [length_upTo] at isLength
  unfold lz4WriteSequence
  dsimp only
  rw [if_pos isMatch, isCode, if_pos isMatch, if_pos isMatch, if_pos isMatch,
    extraLengthBytes_eq, extraLengthBytes_eq, writeExtension_eq, writeExtension_eq,
    nibble_eq, nibble_eq, token_eq (by omega) (by omega), isLength,
    unsignedSub_eq room (lt_wordSize small)]
  have low : offset &&& 255 = offset % 256 := Nat.and_two_pow_sub_one_eq_mod offset 8
  have high : offset >>> 8 = offset / 256 := Nat.shiftRight_eq_div_pow offset 8
  have noWrap : (1 + literalLength + (extension literalLength).length) % wordSize =
      1 + literalLength + (extension literalLength).length :=
    Nat.mod_eq_of_lt (by omega)
  have noWrap' : (1 + literalLength + (extension literalLength).length +
      (2 + (extension matchCode).length)) % wordSize =
        1 + literalLength + (extension literalLength).length +
          (2 + (extension matchCode).length) :=
    Nat.mod_eq_of_lt (by omega)
  rw [noWrap, noWrap', low, high]
  by_cases full : capacity < out.length + (1 + literalLength +
      (extension literalLength).length + (2 + (extension matchCode).length))
  · rw [if_pos full, if_pos (by omega)]
  · rw [if_neg full, if_neg (by omega)]
    simp [encodeSequence, tokenOf]

/-- The last literals are written as a whole if there is room for them. -/
theorem lz4WriteSequence_last (small : capacity ≤ maxBufferSize)
    (room : out.length ≤ capacity) (few : literalLength ≤ maxInputSize) :
    lz4WriteSequence capacity out literals literalLength 0 0 =
      let bytes := encodeLast (upTo literals literalLength)
      if capacity < out.length + bytes.length then none else some (out ++ bytes) := by
  have large : maxInputSize = 0x7E000000 := rfl
  have word : wordSize = 2 ^ 32 := rfl
  have first := length_extension_le literalLength
  have isLength := length_encodeLast (upTo literals literalLength)
  rw [length_upTo] at isLength
  have noMatch : ¬ (0 : Nat) ≠ 0 := by omega
  have noWrap : (1 + literalLength + (extension literalLength).length) % wordSize =
      1 + literalLength + (extension literalLength).length :=
    Nat.mod_eq_of_lt (by omega)
  have isToken : UInt8.ofNat (min literalLength 15 <<< 4) =
      UInt8.ofNat (16 * min literalLength 15 + min 0 15) := by
    rw [Nat.shiftLeft_eq]
    congr 1
    omega
  unfold lz4WriteSequence
  dsimp only
  rw [if_neg noMatch, if_neg noMatch, if_neg noMatch,
    extraLengthBytes_eq, writeExtension_eq, nibble_eq, isToken, isLength, noWrap,
    unsignedSub_eq room (lt_wordSize small)]
  by_cases full : capacity < out.length +
      (1 + literalLength + (extension literalLength).length)
  · rw [if_pos full, if_pos (by omega)]
  · rw [if_neg full, if_neg (by omega)]
    simp [encodeLast, tokenOf]

end Write

/-! ## What was emitted -/

/-- The rules of the format for the end of a block: a back reference starts and ends
a while before it. -/
def Conforms (size : Nat) : (start : Nat) → List Sequence → Prop
  | _, [] => True
  | start, sequence :: rest =>
      1 ≤ sequence.offset ∧ sequence.offset ≤ maxOffset ∧
      start + sequence.literals.length + matchFindLimit ≤ size ∧
      start + sequence.literals.length + sequence.matchLength + lastLiterals ≤ size ∧
      Conforms size (start + sequence.literals.length + sequence.matchLength) rest

/-- The sequences stand for the input up to `anchor`. -/
structure Emitted (source : Nat → UInt8) (size anchor : Nat)
    (sequences : List Sequence) : Prop where
  expands : expand sequences [] = some (upTo source anchor)
  conforms : Conforms size 0 sequences

/-- A back reference that was found at a position of the input. -/
structure Match (source : Nat → UInt8) (size pos offset length : Nat) : Prop where
  positive : 1 ≤ offset
  near : offset ≤ maxOffset
  reaches : offset ≤ pos
  long : minMatch ≤ length
  starts : pos + matchFindLimit ≤ size
  ends : pos + length + lastLiterals ≤ size
  repeats : ∀ index, index < length →
    source (pos - offset + index) = source (pos + index)

section Emit

variable {source : Nat → UInt8} {size anchor pos offset length start : Nat}
variable {sequences : List Sequence}

theorem expand_append {more : List Sequence} {produced bytes : List UInt8}
    (expands : expand sequences produced = some bytes) :
    expand (sequences ++ more) produced = expand more bytes := by
  induction sequences generalizing produced with
  | nil => rw [List.nil_append, Option.some.inj expands]
  | cons sequence sequences induction =>
      rw [List.cons_append, expand]
      rw [expand] at expands
      split at expands
      case isTrue valid =>
        rw [if_pos valid]
        exact induction expands
      case isFalse => cases expands

/-- The rules for some more sequences are about the position that is reached. -/
theorem Conforms.append {more : List Sequence} {produced bytes : List UInt8}
    (conforms : Conforms size produced.length sequences)
    (expands : expand sequences produced = some bytes)
    (conforms' : Conforms size bytes.length more) :
    Conforms size produced.length (sequences ++ more) := by
  induction sequences generalizing produced with
  | nil =>
      rw [Option.some.inj expands]
      exact conforms'
  | cons sequence sequences induction =>
      rcases conforms with ⟨positive, near, starts, ends, rest⟩
      rw [expand] at expands
      split at expands
      case isTrue valid =>
        have isLength : (copyBack sequence.offset sequence.matchLength
            (produced ++ sequence.literals)).length =
              produced.length + sequence.literals.length + sequence.matchLength := by
          rw [length_copyBack (by omega) _ valid.2, List.length_append]
        rw [← isLength] at rest
        have whole := induction rest expands
        rw [isLength] at whole
        exact ⟨positive, near, starts, ends, whole⟩
      case isFalse => cases expands

theorem Conforms.lengths (conforms : Conforms size start sequences) :
    ∀ sequence ∈ sequences, sequence.offset ≤ maxOffset ∧
      sequence.literals.length ≤ size ∧ sequence.matchCode ≤ size := by
  induction sequences generalizing start with
  | nil =>
      intro sequence member
      cases member
  | cons first sequences induction =>
      rcases conforms with ⟨_, near, _, ends, rest⟩
      intro sequence member
      rcases List.mem_cons.mp member with rfl | member
      · unfold Sequence.matchLength at ends
        exact ⟨near, by omega, by omega⟩
      · exact induction rest sequence member

theorem Conforms.offset_pos (conforms : Conforms size start sequences) :
    ∀ sequence ∈ sequences, 1 ≤ sequence.offset := by
  induction sequences generalizing start with
  | nil =>
      intro sequence member
      cases member
  | cons first sequences induction =>
      rcases conforms with ⟨positive, _, _, _, rest⟩
      intro sequence member
      rcases List.mem_cons.mp member with rfl | member
      · exact positive
      · exact induction rest sequence member

/-- The sequence that is written for a back reference. -/
def sequenceOf (source : Nat → UInt8) (anchor pos offset length : Nat) : Sequence :=
  ⟨upTo (fun index => source (anchor + index)) (pos - anchor), offset,
    length - minMatch⟩

theorem Emitted.snoc (emitted : Emitted source size anchor sequences)
    (order : anchor ≤ pos) (found : Match source size pos offset length) :
    Emitted source size (pos + length)
      (sequences ++ [sequenceOf source anchor pos offset length]) := by
  have isPos : anchor + (pos - anchor) = pos := by omega
  have written : upTo source anchor ++
      (sequenceOf source anchor pos offset length).literals = upTo source pos := by
    unfold sequenceOf
    rw [← upTo_add, isPos]
  have isLength :
      (sequenceOf source anchor pos offset length).matchLength = length := by
    have long := found.long
    unfold sequenceOf Sequence.matchLength
    dsimp only
    omega
  have isOffset : (sequenceOf source anchor pos offset length).offset = offset := rfl
  have isCount : (sequenceOf source anchor pos offset length).literals.length =
      pos - anchor := length_upTo _ _
  constructor
  · rw [expand_append emitted.expands, expand, written, isOffset, isLength,
      length_upTo, if_pos ⟨found.positive, found.reaches⟩,
      copyBack_upTo found.positive length found.reaches found.repeats]
    rfl
  · have starts := found.starts
    have ends := found.ends
    refine Conforms.append emitted.conforms emitted.expands ?_
    rw [length_upTo, Conforms, isOffset, isLength, isCount, isPos]
    exact ⟨found.positive, found.near, starts, ends, trivial⟩

/-! ### Room for a block -/

/-- What a sequence takes is paid for by the bytes that it stands for. -/
theorem length_encodeSequence_le (start : Nat) (sequence : Sequence) :
    start + start / 255 + (encodeSequence sequence).length ≤
      start + sequence.literals.length + sequence.matchLength +
        (start + sequence.literals.length + sequence.matchLength) / 255 := by
  have least : sequence.matchLength = sequence.matchCode + 4 := rfl
  rw [length_encodeSequence, ← extraLengthBytes_eq, ← extraLengthBytes_eq, least]
  unfold extraLengthBytes
  split <;> split <;> omega

theorem length_encoded_le {produced bytes : List UInt8}
    (expands : expand sequences produced = some bytes) :
    produced.length + produced.length / 255 + (sequences.flatMap encodeSequence).length ≤
      bytes.length + bytes.length / 255 := by
  induction sequences generalizing produced with
  | nil =>
      rw [Option.some.inj expands]
      exact Nat.le_refl _
  | cons sequence sequences induction =>
      rw [expand] at expands
      split at expands
      case isTrue valid =>
        have isLength : (copyBack sequence.offset sequence.matchLength
            (produced ++ sequence.literals)).length =
              produced.length + sequence.literals.length + sequence.matchLength := by
          rw [length_copyBack (by omega) _ valid.2, List.length_append]
        have first := length_encodeSequence_le produced.length sequence
        have rest := induction expands
        rw [isLength] at rest
        rw [List.flatMap_cons, List.length_append]
        omega
      case isFalse => cases expands

theorem Emitted.length_le (emitted : Emitted source size anchor sequences) :
    (sequences.flatMap encodeSequence).length ≤ anchor + anchor / 255 := by
  have most := length_encoded_le emitted.expands
  rw [length_upTo, List.length_nil] at most
  omega

/-- The bytes of a block that stands for the input and follows the rules of the
format. -/
def Compressed (source : Nat → UInt8) (size : Nat) (block : List UInt8) : Prop :=
  ∃ sequences literals, Parses block sequences literals ∧
    denotation sequences literals = some (upTo source size) ∧
    Conforms size 0 sequences

theorem Emitted.compressed (emitted : Emitted source size anchor sequences)
    (order : anchor ≤ size) :
    Compressed source size (sequences.flatMap encodeSequence ++
      encodeLast (upTo (fun index => source (anchor + index)) (size - anchor))) := by
  have isSize : anchor + (size - anchor) = size := by omega
  refine ⟨sequences, _, encoded_parses _ fun sequence member =>
    (emitted.conforms.lengths sequence member).1, ?_, emitted.conforms⟩
  unfold denotation
  rw [emitted.expands, Option.map_some, ← upTo_add, isSize]

theorem Parses.ne_nil {block literals : List UInt8}
    (parses : Parses block sequences literals) : block ≠ [] := by
  cases parses with
  | last => exact List.cons_ne_nil _ _
  | sequence => exact List.cons_ne_nil _ _

/-- The decoder gives the input back. -/
theorem Compressed.decompress {block : List UInt8}
    (compressed : Compressed source size block) (most : size ≤ maxInputSize)
    (small : block.length ≤ maxBufferSize) (dest : Nat → UInt8) {capacity : Nat}
    (room : size ≤ capacity) (small' : capacity ≤ maxBufferSize) :
    ∃ dest', lz4Decompress block dest capacity = .done (size, dest') ∧
      ∀ index, index < size → dest' index = source index := by
  rcases compressed with ⟨sequences, literals, parses, isDenotation, conforms⟩
  have isMost : maxInputSize = 0x7E000000 := rfl
  have isLength : (upTo source size).length = size := length_upTo source size
  have few : literals.length ≤ size := by
    rcases Option.map_eq_some_iff.mp isDenotation with ⟨expanded, _, whole⟩
    have total := congrArg List.length whole
    rw [List.length_append, isLength] at total
    omega
  have short : LengthsAtMost 0x7FFFFF00 sequences literals := by
    refine ⟨fun sequence member => ?_, by omega⟩
    have lengths := conforms.lengths sequence member
    exact ⟨by omega, by omega⟩
  have accepts := (lz4Decompress_exact block dest capacity parses.ne_nil small
    small').2.2 sequences literals (upTo source size) parses short isDenotation
  rw [isLength] at accepts
  rcases accepts room with ⟨dest', done, same⟩
  exact ⟨dest', done, fun index less => upTo_injective same less⟩

end Emit

/-! ## The search of `lz4_compress` -/

theorem countWhile_spec (condition : Nat → Bool) (rounds length : Nat) :
    length ≤ countWhile condition rounds length ∧
    ∀ index, length ≤ index → index < countWhile condition rounds length →
      condition index = true := by
  induction rounds generalizing length with
  | zero => exact ⟨Nat.le_refl _, fun index lower upper => absurd lower (by
      rw [countWhile] at upper
      omega)⟩
  | succ rounds induction =>
      rw [countWhile]
      by_cases holds : condition length = true
      · rw [if_pos holds]
        have rest := induction (length + 1)
        refine ⟨by omega, fun index lower upper => ?_⟩
        by_cases first : index = length
        · rw [first]
          exact holds
        · exact rest.2 index (by omega) upper
      · rw [if_neg holds]
        exact ⟨Nat.le_refl _, fun index lower upper => absurd lower (by omega)⟩

/-- Words are equal only if all their bytes are. -/
theorem word_injective {first second : Nat → UInt8} (same : word first = word second)
    {index : Nat} (less : index < 4) : first index = second index := by
  have bounds : ∀ index, (first index).toNat < 256 ∧ (second index).toNat < 256 :=
    fun index => ⟨(first index).toNat_lt, (second index).toNat_lt⟩
  have at0 := bounds 0
  have at1 := bounds 1
  have at2 := bounds 2
  have at3 := bounds 3
  simp only [word] at same
  apply UInt8.toNat_inj.mp
  have cases : index = 0 ∨ index = 1 ∨ index = 2 ∨ index = 3 := by omega
  rcases cases with rfl | rfl | rfl | rfl
  · omega
  · omega
  · omega
  · omega

section Compress

variable {source : Nat → UInt8} {size capacity : Nat} {state : Compressor}

/-- What holds at the start of each round of `lz4_compress`. -/
structure Compressing (source : Nat → UInt8) (size capacity : Nat)
    (state : Compressor) : Prop where
  order : state.anchor ≤ state.pos
  inside : state.pos ≤ size
  room : state.out.length ≤ capacity
  table : ∀ slot, state.table slot ≤ state.pos
  emitted : ∃ sequences, state.out = sequences.flatMap encodeSequence ∧
    Emitted source size state.anchor sequences

/-- A sequence was written for a back reference. -/
theorem Emitted.write {sequences : List Sequence} {out out' : List UInt8}
    {anchor pos offset length : Nat} (most : size ≤ maxInputSize)
    (small : capacity ≤ maxBufferSize) (room : out.length ≤ capacity)
    (emitted : Emitted source size anchor sequences)
    (isOut : out = sequences.flatMap encodeSequence) (order : anchor ≤ pos)
    (found : Match source size pos offset length)
    (written : lz4WriteSequence capacity out (fun index => source (anchor + index))
      (unsignedSub pos anchor) offset length = some out') :
    out'.length ≤ capacity ∧ ∃ sequences', out' = sequences'.flatMap encodeSequence ∧
      Emitted source size (pos + length) sequences' := by
  have isMost : maxInputSize < wordSize := by decide
  have starts := found.starts
  have ends := found.ends
  rw [unsignedSub_eq order (by omega), lz4WriteSequence_match small room (by omega)
    found.long (by omega)] at written
  dsimp only at written
  split at written
  · cases written
  · next fits =>
      cases written
      refine ⟨by rw [List.length_append]; omega, _, ?_, emitted.snoc order found⟩
      rw [List.flatMap_append, isOut]
      simp [sequenceOf]

/-- The capacity is less than a compressed block may need. -/
def Cramped (size capacity : Nat) : Prop := capacity < size + size / 255 + 16

/-- A sequence that does not fit. -/
theorem Emitted.write_none {sequences : List Sequence} {out : List UInt8}
    {anchor pos offset length : Nat} (most : size ≤ maxInputSize)
    (small : capacity ≤ maxBufferSize) (room : out.length ≤ capacity)
    (emitted : Emitted source size anchor sequences)
    (isOut : out = sequences.flatMap encodeSequence) (order : anchor ≤ pos)
    (found : Match source size pos offset length)
    (written : lz4WriteSequence capacity out (fun index => source (anchor + index))
      (unsignedSub pos anchor) offset length = none) : Cramped size capacity := by
  have isMost : maxInputSize < wordSize := by decide
  have starts := found.starts
  have ends := found.ends
  have whole := (emitted.snoc order found).length_le
  rw [unsignedSub_eq order (by omega), lz4WriteSequence_match small room (by omega)
    found.long (by omega)] at written
  dsimp only at written
  split at written
  · next full =>
      rw [List.flatMap_append, List.length_append, ← isOut, List.flatMap_singleton] at whole
      unfold sequenceOf at whole
      unfold Cramped
      omega
  · cases written

/-- Last literals that do not fit. -/
theorem Emitted.finish_none {sequences : List Sequence} {out : List UInt8}
    {anchor : Nat} (most : size ≤ maxInputSize) (small : capacity ≤ maxBufferSize)
    (room : out.length ≤ capacity) (emitted : Emitted source size anchor sequences)
    (isOut : out = sequences.flatMap encodeSequence) (order : anchor ≤ size)
    (written : lz4WriteSequence capacity out (fun index => source (anchor + index))
      (unsignedSub size anchor) 0 0 = none) : Cramped size capacity := by
  have isMost : maxInputSize < wordSize := by decide
  have before := emitted.length_le
  rw [← isOut] at before
  rw [unsignedSub_eq order (by omega), lz4WriteSequence_last small room (by omega)]
    at written
  dsimp only at written
  split at written
  · next full =>
      rw [length_encodeLast, length_upTo, ← extraLengthBytes_eq] at full
      unfold extraLengthBytes at full
      unfold Cramped
      split at full
      · omega
      · omega
  · cases written

theorem compressStep_match (most : size ≤ maxInputSize)
    (compressing : Compressing source size capacity state)
    (starts : state.pos + matchFindLimit ≤ size) {entry : Nat} (used : entry ≠ 0)
    (bound : entry ≤ state.pos)
    (near : unsignedSub state.pos (entry - 1) ≤ maxOffset)
    (same : readWord source (entry - 1) = readWord source state.pos) :
    Match source size state.pos (unsignedSub state.pos (entry - 1))
      (countWhile (fun length => state.pos + length < size - lastLiterals ∧
        source (entry - 1 + length) = source (state.pos + length)) size minMatch) := by
  have isMost : maxInputSize < wordSize := by decide
  have limit : matchFindLimit = 12 := rfl
  have last : lastLiterals = 5 := rfl
  have least : minMatch = 4 := rfl
  have inside := compressing.inside
  rw [unsignedSub_eq (by omega) (by omega)] at near ⊢
  rcases countWhile_spec (fun length => state.pos + length < size - lastLiterals ∧
    source (entry - 1 + length) = source (state.pos + length)) size minMatch with
    ⟨lower, checked⟩
  generalize countWhile _ size minMatch = length at *
  refine ⟨by omega, near, by omega, lower, starts, ?_, ?_⟩
  · by_cases extended : length = minMatch
    · omega
    · have final := checked (length - 1) (by omega) (by omega)
      simp only [decide_eq_true_eq] at final
      omega
  · have isStart : state.pos - (state.pos - (entry - 1)) = entry - 1 := by omega
    intro index less
    rw [isStart]
    by_cases first : index < minMatch
    · exact word_injective same first
    · have equal := checked index (by omega) less
      simp only [decide_eq_true_eq] at equal
      exact equal.2

theorem compressStep_spec (most : size ≤ maxInputSize)
    (small : capacity ≤ maxBufferSize)
    (compressing : Compressing source size capacity state)
    (starts : state.pos + matchFindLimit ≤ size) :
    compressStep source size capacity state = none ∧ Cramped size capacity ∨
    ∃ state', compressStep source size capacity state = some state' ∧
      state.pos < state'.pos ∧ Compressing source size capacity state' := by
  have limit : matchFindLimit = 12 := rfl
  have last : lastLiterals = 5 := rfl
  have least : minMatch = 4 := rfl
  have order := compressing.order
  -- The entry of the current position is behind all later ones.
  have table : ∀ slot entry, Function.update state.table slot (state.pos + 1) entry ≤
      state.pos + 1 := by
    intro slot entry
    by_cases own : entry = slot
    · rw [own, Function.update_self]
    · rw [Function.update_of_ne own]
      exact Nat.le_succ_of_le (compressing.table entry)
  unfold compressStep
  dsimp only
  by_cases found : state.table (hashWord 12 (readWord source state.pos)) ≠ 0 ∧
      unsignedSub state.pos
        (state.table (hashWord 12 (readWord source state.pos)) - 1) ≤ maxOffset ∧
      readWord source (state.table (hashWord 12 (readWord source state.pos)) - 1) =
        readWord source state.pos
  · rw [if_pos found]
    have isMatch := compressStep_match most compressing starts found.1
      (compressing.table _) found.2.1 found.2.2
    generalize countWhile _ size minMatch = length at *
    rcases compressing.emitted with ⟨sequences, isOut, emitted⟩
    have long := isMatch.long
    have ends := isMatch.ends
    cases written : lz4WriteSequence capacity state.out
        (fun index => source (state.anchor + index))
        (unsignedSub state.pos state.anchor)
        (unsignedSub state.pos
          (state.table (hashWord 12 (readWord source state.pos)) - 1)) length with
    | none =>
        exact Or.inl ⟨rfl, emitted.write_none most small compressing.room isOut order isMatch
          written⟩
    | some out =>
        have next := emitted.write most small compressing.room isOut order isMatch written
        refine Or.inr ⟨_, rfl, by simp only; omega, Nat.le_refl _, by simp only; omega,
          next.1, fun slot => Nat.le_trans (table _ slot) (by simp only; omega), next.2⟩
  · rw [if_neg found]
    exact Or.inr ⟨_, rfl, Nat.lt_succ_self _, by simp only; omega, by simp only; omega,
      compressing.room, table _, compressing.emitted⟩

theorem compressLoop_spec (most : size ≤ maxInputSize)
    (small : capacity ≤ maxBufferSize) (rounds : Nat)
    (enough : size < rounds + state.pos)
    (compressing : Compressing source size capacity state) :
    compressLoop source size capacity rounds state = .failed () ∧ Cramped size capacity ∨
    ∃ state', compressLoop source size capacity rounds state = .done state' ∧
      Compressing source size capacity state' := by
  induction rounds generalizing state with
  | zero =>
      have inside := compressing.inside
      omega
  | succ rounds induction =>
      unfold compressLoop
      by_cases starts : state.pos + matchFindLimit ≤ size
      · rw [if_pos starts]
        rcases compressStep_spec most small compressing starts with
          ⟨failed, cramped⟩ | ⟨state', step, further, compressing'⟩
        · rw [failed]
          exact Or.inl ⟨rfl, cramped⟩
        · rw [step]
          exact induction (by omega) compressing'
      · rw [if_neg starts]
        exact Or.inr ⟨state, rfl, compressing⟩

/-- The last literals complete a block. -/
theorem Emitted.finish {sequences : List Sequence} {out block : List UInt8}
    {anchor : Nat} (most : size ≤ maxInputSize) (small : capacity ≤ maxBufferSize)
    (room : out.length ≤ capacity) (emitted : Emitted source size anchor sequences)
    (isOut : out = sequences.flatMap encodeSequence) (order : anchor ≤ size)
    (written : lz4WriteSequence capacity out (fun index => source (anchor + index))
      (unsignedSub size anchor) 0 0 = some block) :
    block.length ≤ capacity ∧ Compressed source size block := by
  have isMost : maxInputSize < wordSize := by decide
  rw [unsignedSub_eq order (by omega), lz4WriteSequence_last small room (by omega)]
    at written
  dsimp only at written
  split at written
  · cases written
  · next fits =>
      cases written
      refine ⟨by rw [List.length_append]; omega, ?_⟩
      rw [isOut]
      exact emitted.compressed order

theorem lz4Compress_spec (most : size ≤ maxInputSize)
    (small : capacity ≤ maxBufferSize) :
    lz4Compress source size capacity = .failed () ∧ Cramped size capacity ∨
    ∃ block, lz4Compress source size capacity = .done block ∧
      block.length ≤ capacity ∧ Compressed source size block := by
  have start : Compressing source size capacity
      { table := fun _ => 0, out := [], anchor := 0, pos := 0 } :=
    ⟨Nat.le_refl _, Nat.zero_le _, Nat.zero_le _, fun _ => Nat.le_refl _,
      [], rfl, rfl, trivial⟩
  unfold lz4Compress
  rw [if_neg (by omega)]
  rcases compressLoop_spec most small (size + 1) (by simp only; omega) start with
    ⟨failed, cramped⟩ | ⟨state, done, compressing⟩
  · rw [failed]
    exact Or.inl ⟨rfl, cramped⟩
  · rw [done, Checked.done_bind]
    rcases compressing.emitted with ⟨sequences, isOut, emitted⟩
    have order := Nat.le_trans compressing.order compressing.inside
    cases written : lz4WriteSequence capacity state.out
        (fun index => source (state.anchor + index)) (unsignedSub size state.anchor)
        0 0 with
    | none =>
        exact Or.inl ⟨rfl, emitted.finish_none most small compressing.room isOut order written⟩
    | some block =>
        exact Or.inr ⟨block, rfl, emitted.finish most small compressing.room isOut order
          written⟩

end Compress

/-- The decoder gives back what was compressed. -/
theorem lz4_roundTrip (source : Nat → UInt8) (size capacity : Nat)
    (most : size ≤ maxInputSize) (small : capacity ≤ 0x7FFFFFFF) :
    (lz4Compress source size capacity).Safe ∧
    ∀ block, lz4Compress source size capacity = .done block →
      block.length ≤ capacity ∧
      ∀ dest outCapacity, size ≤ outCapacity → outCapacity ≤ 0x7FFFFFFF →
        ∃ dest', lz4Decompress block dest outCapacity = .done (size, dest') ∧
          ∀ index, index < size → dest' index = source index := by
  rcases lz4Compress_spec most small with ⟨failed, _⟩ | ⟨block, done, fits, compressed⟩
  · rw [failed]
    refine ⟨trivial, ?_⟩
    intro block impossible
    cases impossible
  · rw [done]
    refine ⟨trivial, ?_⟩
    intro other isBlock
    cases isBlock
    exact ⟨fits, fun dest _ room small' =>
      compressed.decompress most (Nat.le_trans fits small) dest room small'⟩

theorem lz4_roundTrip_letters :
    lz4Compress (fun _ => 97) 20 100 =
      .done [26, 97, 1, 0, 80, 97, 97, 97, 97, 97] ∧
    ∃ dest', lz4Decompress [26, 97, 1, 0, 80, 97, 97, 97, 97, 97] (fun _ => 0) 20 =
        .done (20, dest') ∧ ∀ index, index < 20 → dest' index = 97 := by
  have done : lz4Compress (fun _ => 97) 20 100 =
      .done [26, 97, 1, 0, 80, 97, 97, 97, 97, 97] := by decide
  exact ⟨done, ((lz4_roundTrip (fun _ => 97) 20 100 (by decide) (by decide)).2 _ done).2
    (fun _ => 0) 20 (by decide) (by decide)⟩

end Katela.Lz4
