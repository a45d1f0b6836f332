import Katela.Lz4.Model

/-! # The decoder

On any bytes the decoder stays inside of its buffers and ends. It accepts blocks
of the format only, and all of them that fit. -/

namespace Katela.Lz4

theorem unsignedSub_eq {left right : Nat} (order : right ≤ left)
    (bound : left < wordSize) : unsignedSub left right = left - right := by
  have shifted : left + (wordSize - right) = left - right + wordSize := by omega
  unfold unsignedSub
  rw [shifted, Nat.add_mod_right]
  exact Nat.mod_eq_of_lt (by omega)

theorem lt_wordSize {size : Nat} (small : size ≤ maxBufferSize) : size < wordSize := by
  unfold maxBufferSize at small
  unfold wordSize
  omega

/-! ## Lengths -/

section Lengths

variable {source : List UInt8}

theorem readExtraLength_cases (rounds : Nat) {input value : Nat}
    (enough : source.length < rounds + input) (bound : input ≤ source.length) :
    readExtraLength source rounds input value = .failed () ∨
    ∃ input' more,
      readExtraLength source rounds input value = .done (input', value + more) ∧
      input ≤ input' ∧ input' ≤ source.length ∧
      source.drop input = lengthBytes more ++ source.drop input' := by
  induction rounds generalizing input value with
  | zero => omega
  | succ rounds induction =>
      unfold readExtraLength
      by_cases ends : input ≥ source.length
      · exact Or.inl (if_pos ends)
      · have inside : input < source.length := by omega
        have isDrop := List.drop_eq_getElem_cons inside
        rw [if_neg ends, Checked.get_of_lt inside, Checked.done_bind]
        by_cases tooLarge : value > 0x7FFFFFFF - 255
        · exact Or.inl (if_pos tooLarge)
        · rw [if_neg tooLarge]
          by_cases more : source[input] = 255
          · rw [if_pos more]
            rcases @induction (input + 1) _ (by omega) (by omega) with
              failed | ⟨input', rest, done, lower, upper, isRest⟩
            · exact Or.inl failed
            · refine Or.inr ⟨input', rest + 255, ?_, by omega, upper, ?_⟩
              · rw [done, more]
                simp only [Checked.done.injEq, Prod.mk.injEq, true_and]
                have isNumber : (255 : UInt8).toNat = 255 := rfl
                omega
              · rw [isDrop, isRest, lengthBytes_add, more]
                rfl
          · rw [if_neg more]
            have less : source[input].toNat < 255 := by
              have bound := source[input].toNat_lt
              have different : source[input].toNat ≠ (255 : UInt8).toNat :=
                fun equal => more (UInt8.toNat_inj.mp equal)
              have isNumber : (255 : UInt8).toNat = 255 := rfl
              omega
            refine Or.inr ⟨input + 1, source[input].toNat, rfl, by omega, inside, ?_⟩
            rw [isDrop, lengthBytes_of_lt less, UInt8.ofNat_toNat]
            rfl

theorem readExtraLength_lengthBytes (rounds : Nat) {input value more : Nat}
    {rest : List UInt8} (isDrop : source.drop input = lengthBytes more ++ rest)
    (small : value + more ≤ 0x7FFFFFFF - 255) (enough : more / 255 < rounds) :
    readExtraLength source rounds input value =
      .done (input + (lengthBytes more).length, value + more) := by
  induction rounds generalizing input value more with
  | zero => omega
  | succ rounds induction =>
      have notLarge : ¬ value > 0x7FFFFFFF - 255 := by omega
      unfold readExtraLength
      rcases lengthBytes_cases more with ⟨less, isBytes⟩ | ⟨less, rfl, isBytes⟩
      · rw [isBytes] at isDrop
        have notEnd : ¬ input ≥ source.length := by
          have inside := lt_length_of_drop isDrop
          omega
        have isNumber : (UInt8.ofNat more).toNat = more := by
          rw [UInt8.toNat_ofNat']
          omega
        have notMore : UInt8.ofNat more ≠ 255 := by
          intro equal
          rw [equal] at isNumber
          have isNumber' : (255 : UInt8).toNat = 255 := rfl
          omega
        rw [if_neg notEnd, Checked.get_eq (getElem?_of_drop isDrop).1,
          Checked.done_bind, if_neg notLarge, if_neg notMore, isBytes, isNumber]
        rfl
      · rw [isBytes] at isDrop
        have notEnd : ¬ input ≥ source.length := by
          have inside := lt_length_of_drop isDrop
          omega
        have isNumber : (255 : UInt8).toNat = 255 := rfl
        rw [if_neg notEnd, Checked.get_eq (getElem?_of_drop isDrop).1,
          Checked.done_bind, if_neg notLarge, if_pos rfl, isNumber,
          induction (getElem?_of_drop isDrop).2 (by omega) (by omega), isBytes,
          List.length_cons]
        simp only [Checked.done.injEq, Prod.mk.injEq]
        omega

theorem readLength_cases {input bits : Nat} (isBits : bits ≤ 15)
    (bound : input ≤ source.length) :
    readLength source input bits = .failed () ∨
    ∃ input' value, readLength source input bits = .done (input', value) ∧
      min value 15 = bits ∧ input ≤ input' ∧ input' ≤ source.length ∧
      source.drop input = extension value ++ source.drop input' := by
  unfold readLength
  by_cases extended : bits = 15
  · rw [if_pos extended]
    rcases readExtraLength_cases (source.length + 1) (by omega) bound with
      failed | ⟨input', more, done, lower, upper, isDrop⟩
    · exact Or.inl failed
    · refine Or.inr ⟨input', bits + more, done, by omega, lower, upper, ?_⟩
      rw [extension_of_le (by omega), extended, Nat.add_sub_cancel_left]
      exact isDrop
  · rw [if_neg extended]
    refine Or.inr ⟨input, bits, rfl, by omega, Nat.le_refl _, bound, ?_⟩
    rw [extension_of_lt (by omega)]
    rfl

theorem readLength_extension {input value : Nat} {rest : List UInt8}
    (isDrop : source.drop input = extension value ++ rest)
    (small : value ≤ 0x7FFFFFFF - 255) :
    readLength source input (min value 15) =
      .done (input + (extension value).length, value) := by
  unfold readLength
  by_cases less : value < 15
  · rw [if_neg (by omega), extension_of_lt less, Nat.min_eq_left (by omega)]
    rfl
  · have large : 15 ≤ value := by omega
    rw [extension_of_le large] at isDrop
    have enough : (value - 15) / 255 < source.length + 1 := by
      have shorter := congrArg List.length isDrop
      rw [List.length_drop, List.length_append, length_lengthBytes] at shorter
      omega
    rw [Nat.min_eq_right large, if_pos rfl, extension_of_le large,
      readExtraLength_lengthBytes _ isDrop (by omega) enough]
    simp only [Checked.done.injEq, Prod.mk.injEq, true_and]
    omega

end Lengths

/-! ## Copies -/

/-- The bytes that were written so far. -/
def Decoder.produced (state : Decoder) : List UInt8 := upTo state.dest state.out

/-- The pointers are inside of their buffers or at their ends. -/
structure Placed (source : List UInt8) (capacity : Nat) (state : Decoder) : Prop where
  input : state.input ≤ source.length
  out : state.out ≤ capacity

section Copies

variable {source : List UInt8} {capacity : Nat} {state : Decoder}

theorem writeByte_eq (room : state.out < capacity) (byte : UInt8) :
    writeByte capacity state byte = .done
      ⟨state.input, state.out + 1, Function.update state.dest state.out byte⟩ :=
  if_pos room

theorem upTo_update (dest : Nat → UInt8) (out : Nat) (byte : UInt8) :
    upTo (Function.update dest out byte) (out + 1) = upTo dest out ++ [byte] := by
  rw [upTo_succ, Function.update_self]
  congr 1
  apply upTo_congr
  intro index less
  exact Function.update_of_ne (Nat.ne_of_lt less) byte dest

theorem copyLiterals_spec (literals : List UInt8) {rest : List UInt8}
    (isDrop : source.drop state.input = literals ++ rest)
    (room : state.out + literals.length ≤ capacity) :
    ∃ state', copyLiterals source capacity literals.length state = .done state' ∧
      state'.input = state.input + literals.length ∧
      state'.out = state.out + literals.length ∧
      state'.produced = state.produced ++ literals := by
  induction literals generalizing state with
  | nil => exact ⟨state, rfl, rfl, rfl, (List.append_nil _).symm⟩
  | cons byte literals induction =>
      rw [List.length_cons] at room
      rcases getElem?_of_drop isDrop with ⟨isByte, isNext⟩
      rcases @induction ⟨state.input + 1, state.out + 1,
          Function.update state.dest state.out byte⟩ isNext
          (by simp only; omega) with ⟨state', done, isInput, isOut, isProduced⟩
      simp only at isInput isOut
      refine ⟨state', ?_, ?_, ?_, ?_⟩
      · rw [List.length_cons, copyLiterals, Checked.get_eq isByte, Checked.done_bind,
          writeByte_eq (by omega), Checked.done_bind]
        exact done
      · rw [isInput, List.length_cons]
        omega
      · rw [isOut, List.length_cons]
        omega
      · rw [isProduced]
        unfold Decoder.produced
        rw [upTo_update, List.append_assoc]
        rfl

theorem copyMatch_spec (matchLength : Nat) {offset : Nat} (positive : 0 < offset)
    (reaches : offset ≤ state.out) (room : state.out + matchLength ≤ capacity) :
    ∃ state', copyMatch capacity matchLength (state.out - offset) state =
        .done state' ∧
      state'.input = state.input ∧ state'.out = state.out + matchLength ∧
      state'.produced = copyBack offset matchLength state.produced := by
  induction matchLength generalizing state with
  | zero => exact ⟨state, rfl, rfl, rfl, rfl⟩
  | succ matchLength induction =>
      have isAddress : ((state.out : Int) - offset).toNat = state.out - offset := by
        omega
      have read : readDest capacity state.dest (state.out - offset) =
          .done (state.dest (state.out - offset)) := by
        unfold readDest
        rw [if_pos (by omega), isAddress]
      have isNext : state.produced[state.produced.length - offset]? =
          some (state.dest (state.out - offset)) := by
        unfold Decoder.produced
        rw [length_upTo]
        exact upTo_getElem? _ (by omega)
      rcases @induction ⟨state.input, state.out + 1,
          Function.update state.dest state.out (state.dest (state.out - offset))⟩
          (by simp only; omega) (by simp only; omega) with
        ⟨state', done, isInput, isOut, isProduced⟩
      refine ⟨state', ?_, isInput, ?_, ?_⟩
      · have next : (state.out : Int) - offset + 1 = (state.out + 1 : Nat) - offset := by
          omega
        rw [copyMatch, read, Checked.done_bind, writeByte_eq (by omega),
          Checked.done_bind, next]
        exact done
      · rw [isOut]
        simp only
        omega
      · rw [isProduced, copyBack, isNext]
        unfold Decoder.produced
        rw [upTo_update]
        rfl

end Copies

/-! ## One sequence -/

section Sequences

variable {source : List UInt8} {capacity : Nat} {state : Decoder} {token : UInt8}

theorem decodeLiterals_cases (small : source.length ≤ maxBufferSize)
    (small' : capacity ≤ maxBufferSize) (placed : Placed source capacity state) :
    decodeLiterals source capacity token state = .failed () ∨
    ∃ state' literals, decodeLiterals source capacity token state = .done state' ∧
      Placed source capacity state' ∧ state.input ≤ state'.input ∧
      token.toNat / 16 = min literals.length 15 ∧
      source.drop state.input =
        extension literals.length ++ (literals ++ source.drop state'.input) ∧
      state'.produced = state.produced ++ literals := by
  have isBits : token.toNat / 16 ≤ 15 := by
    have bound := token.toNat_lt
    omega
  have room := placed.out
  unfold decodeLiterals
  rcases readLength_cases isBits placed.input with
    failed | ⟨input, length, done, isLength, lower, upper, isDrop⟩
  · rw [failed]
    exact Or.inl rfl
  · rw [done, Checked.done_bind]
    dsimp only
    rw [unsignedSub_eq upper (lt_wordSize small),
      unsignedSub_eq placed.out (lt_wordSize small')]
    by_cases tooLong : source.length - input < length ∨ capacity - state.out < length
    · exact Or.inl (if_pos tooLong)
    · rw [if_neg tooLong]
      have isCount : ((source.drop input).take length).length = length := by
        rw [List.length_take, List.length_drop]
        omega
      rcases @copyLiterals_spec source capacity { state with input }
          ((source.drop input).take length) ((source.drop input).drop length)
          (List.take_append_drop length _).symm (by simp only; omega) with
        ⟨state', copied, isInput, isOut, isProduced⟩
      rw [isCount] at copied isInput isOut
      simp only at isInput isOut
      refine Or.inr ⟨state', (source.drop input).take length, copied,
        ⟨by omega, by omega⟩, by omega, ?_, ?_, isProduced⟩
      · rw [isCount]
        exact isLength.symm
      · rw [isCount, isDrop, isInput, ← List.drop_drop, List.take_append_drop]

theorem decodeLiterals_extension (small : source.length ≤ maxBufferSize)
    (small' : capacity ≤ maxBufferSize) (placed : Placed source capacity state)
    {literals rest : List UInt8}
    (isToken : token.toNat / 16 = min literals.length 15)
    (isDrop : source.drop state.input =
      extension literals.length ++ (literals ++ rest))
    (short : literals.length ≤ 0x7FFFFFFF - 255)
    (room : state.out + literals.length ≤ capacity) :
    ∃ state', decodeLiterals source capacity token state = .done state' ∧
      Placed source capacity state' ∧ source.drop state'.input = rest ∧
      state.input ≤ state'.input ∧ state'.out = state.out + literals.length ∧
      state'.produced = state.produced ++ literals := by
  have isNext := drop_of_drop isDrop
  have isLength := congrArg List.length isDrop
  rw [List.length_drop, List.length_append, List.length_append] at isLength
  have lower := placed.input
  rcases @copyLiterals_spec source capacity
      { state with input := state.input + (extension literals.length).length }
      literals rest isNext room with ⟨state', copied, isInput, isOut, isProduced⟩
  simp only at isInput isOut
  refine ⟨state', ?_, ⟨by omega, by omega⟩, ?_, by omega, isOut, isProduced⟩
  · unfold decodeLiterals
    rw [isToken, readLength_extension isDrop short, Checked.done_bind]
    dsimp only
    rw [unsignedSub_eq (by omega) (lt_wordSize small),
      unsignedSub_eq placed.out (lt_wordSize small'), if_neg (by omega)]
    exact copied
  · rw [isInput]
    exact drop_of_drop isNext

theorem decodeMatch_cases (small' : capacity ≤ maxBufferSize)
    (placed : Placed source capacity state) :
    decodeMatch source capacity token state = .failed () ∨
    ∃ state' low high matchCode,
      decodeMatch source capacity token state = .done state' ∧
      Placed source capacity state' ∧ state.input ≤ state'.input ∧
      token.toNat % 16 = min matchCode 15 ∧
      source.drop state.input =
        low :: high :: (extension matchCode ++ source.drop state'.input) ∧
      1 ≤ low.toNat + 256 * high.toNat ∧ low.toNat + 256 * high.toNat ≤ state.out ∧
      state'.produced = copyBack (low.toNat + 256 * high.toNat)
        (matchCode + minMatch) state.produced := by
  have isBits : token.toNat % 16 ≤ 15 := by omega
  have room := placed.out
  unfold decodeMatch
  by_cases ends : (source.length : Int) - state.input < 2
  · exact Or.inl (if_pos ends)
  · have first : state.input < source.length := by omega
    have second : state.input + 1 < source.length := by omega
    have isDrop : source.drop state.input = source[state.input] ::
        source[state.input + 1] :: source.drop (state.input + 2) := by
      rw [List.drop_eq_getElem_cons first, List.drop_eq_getElem_cons second]
    rw [if_neg ends, Checked.get_of_lt first, Checked.done_bind,
      Checked.get_of_lt second, Checked.done_bind]
    dsimp only
    generalize source[state.input] = low at *
    generalize source[state.input + 1] = high at *
    by_cases wrong : low.toNat + 256 * high.toNat = 0 ∨
        low.toNat + 256 * high.toNat > state.out
    · exact Or.inl (if_pos wrong)
    · rw [if_neg wrong]
      rcases readLength_cases isBits (by omega : state.input + 2 ≤ source.length) with
        failed | ⟨input, matchCode, done, isLength, lower, upper, isRest⟩
      · rw [failed]
        exact Or.inl rfl
      · rw [done, Checked.done_bind]
        dsimp only
        rw [unsignedSub_eq placed.out (lt_wordSize small')]
        by_cases tooLong : capacity - state.out < matchCode + minMatch
        · exact Or.inl (if_pos tooLong)
        · rw [if_neg tooLong]
          rcases @copyMatch_spec capacity { state with input } (matchCode + minMatch)
              (low.toNat + 256 * high.toNat) (by omega) (by simp only; omega)
              (by simp only; omega) with ⟨state', copied, isInput, isOut, isProduced⟩
          simp only at isInput isOut
          refine Or.inr ⟨state', low, high, matchCode, copied, ⟨by omega, by omega⟩,
            by omega, isLength.symm, ?_, by omega, by omega, isProduced⟩
          rw [isDrop, isRest, isInput]

theorem decodeMatch_extension (small' : capacity ≤ maxBufferSize)
    (placed : Placed source capacity state) {low high : UInt8} {matchCode : Nat}
    {rest : List UInt8} (isToken : token.toNat % 16 = min matchCode 15)
    (isDrop : source.drop state.input = low :: high :: (extension matchCode ++ rest))
    (positive : 1 ≤ low.toNat + 256 * high.toNat)
    (reaches : low.toNat + 256 * high.toNat ≤ state.out)
    (short : matchCode ≤ 0x7FFFFFFF - 255)
    (room : state.out + (matchCode + minMatch) ≤ capacity) :
    ∃ state', decodeMatch source capacity token state = .done state' ∧
      Placed source capacity state' ∧ source.drop state'.input = rest ∧
      state.input ≤ state'.input ∧
      state'.out = state.out + (matchCode + minMatch) ∧
      state'.produced = copyBack (low.toNat + 256 * high.toNat)
        (matchCode + minMatch) state.produced := by
  rcases getElem?_of_drop isDrop with ⟨isLow, isDrop'⟩
  rcases getElem?_of_drop isDrop' with ⟨isHigh, isRest⟩
  have isLength := congrArg List.length isDrop
  rw [List.length_drop, List.length_cons, List.length_cons, List.length_append]
    at isLength
  have isNext := drop_of_drop isRest
  rcases @copyMatch_spec capacity
      { state with input := state.input + 2 + (extension matchCode).length }
      (matchCode + minMatch) (low.toNat + 256 * high.toNat) positive reaches room with
    ⟨state', copied, isInput, isOut, isProduced⟩
  simp only at isInput isOut
  refine ⟨state', ?_, ⟨by omega, by omega⟩, ?_, by omega, isOut, isProduced⟩
  · unfold decodeMatch
    rw [if_neg (by omega), Checked.get_eq isLow, Checked.done_bind,
      Checked.get_eq isHigh, Checked.done_bind]
    dsimp only
    rw [if_neg (by omega), isToken, readLength_extension isRest short,
      Checked.done_bind]
    dsimp only
    rw [unsignedSub_eq placed.out (lt_wordSize small'), if_neg (by omega)]
    exact copied
  · rw [isInput]
    exact isNext

end Sequences

/-! ## Whole blocks -/

theorem length_le_of_expand {sequences : List Sequence} {produced bytes : List UInt8}
    (expands : expand sequences produced = some bytes) :
    produced.length ≤ bytes.length := by
  induction sequences generalizing produced with
  | nil =>
      have isBytes : produced = bytes := Option.some.inj expands
      rw [isBytes]
  | cons sequence sequences induction =>
      rw [expand] at expands
      split at expands
      · next valid =>
          have longer := induction expands
          rw [length_copyBack (by omega) _ valid.2, List.length_append] at longer
          omega
      · cases expands

section Blocks

variable {source : List UInt8} {capacity : Nat} {state : Decoder}

theorem Decoder.length_produced (state : Decoder) :
    state.produced.length = state.out :=
  length_upTo _ _

/-- What the loop accepts is a block, and its output is the one of the block. -/
theorem decodeLoop_cases (small : source.length ≤ maxBufferSize)
    (small' : capacity ≤ maxBufferSize) (rounds : Nat)
    (enough : source.length < rounds + state.input)
    (placed : Placed source capacity state) :
    decodeLoop source capacity rounds state = .failed () ∨
    ∃ state' sequences literals,
      decodeLoop source capacity rounds state = .done state' ∧
      Placed source capacity state' ∧
      Parses (source.drop state.input) sequences literals ∧
      (expand sequences state.produced).map (· ++ literals) =
        some state'.produced := by
  induction rounds generalizing state with
  | zero =>
      have bound := placed.input
      omega
  | succ rounds induction =>
      unfold decodeLoop
      by_cases ends : state.input ≥ source.length
      · exact Or.inl (if_pos ends)
      · have inside : state.input < source.length := by omega
        have isDrop := List.drop_eq_getElem_cons inside
        have placed' : Placed source capacity { state with input := state.input + 1 } :=
          ⟨inside, placed.out⟩
        rw [if_neg ends, Checked.get_of_lt inside, Checked.done_bind, isDrop]
        generalize source[state.input] = token
        rcases decodeLiterals_cases small small' placed' with
          failed | ⟨middle, literals, read, placedMiddle, lower, isToken, isLiterals,
            isProduced⟩
        · rw [failed]
          exact Or.inl rfl
        · rw [read, Checked.done_bind, isLiterals]
          simp only at lower
          have isProduced' : middle.produced = state.produced ++ literals := isProduced
          by_cases last : middle.input = source.length
          · rw [if_pos last]
            refine Or.inr ⟨middle, [], literals, rfl, placedMiddle, ?_, ?_⟩
            · rw [last, List.drop_length, List.append_nil]
              exact Parses.last isToken
            · rw [isProduced']
              rfl
          · rw [if_neg last]
            rcases decodeMatch_cases small' placedMiddle with
              failed | ⟨next, low, high, matchCode, copied, placedNext, lower', isCode,
                isMatch, positive, reaches, isCopied⟩
            · rw [failed]
              exact Or.inl rfl
            · rw [copied, Checked.done_bind]
              rcases @induction next (by omega) placedNext with
                failed | ⟨state', sequences, rest, done, placedEnd, parses, expands⟩
              · exact Or.inl failed
              · refine Or.inr ⟨state',
                  ⟨literals, low.toNat + 256 * high.toNat, matchCode⟩ :: sequences,
                  rest, done, placedEnd, ?_, ?_⟩
                · have isToken' : token.toNat =
                      16 * min literals.length 15 + min matchCode 15 := by
                    omega
                  rw [isMatch]
                  exact @Parses.sequence token low high
                    ⟨literals, low.toNat + 256 * high.toNat, matchCode⟩ sequences _ rest
                    isToken' rfl parses
                · have valid : 1 ≤ low.toNat + 256 * high.toNat ∧
                      low.toNat + 256 * high.toNat ≤
                        (state.produced ++ literals).length := by
                    rw [← isProduced', Decoder.length_produced]
                    exact ⟨positive, reaches⟩
                  rw [expand, if_pos valid, ← isProduced']
                  rw [isCopied] at expands
                  exact expands

/-- The loop accepts every block that fits. -/
theorem decodeLoop_parses (small : source.length ≤ maxBufferSize)
    (small' : capacity ≤ maxBufferSize) {sequences : List Sequence}
    {block literals bytes : List UInt8} (parses : Parses block sequences literals)
    (short : LengthsAtMost (0x7FFFFFFF - 255) sequences literals) (rounds : Nat)
    (enough : source.length < rounds + state.input)
    (placed : Placed source capacity state) (isBlock : source.drop state.input = block)
    (expands : expand sequences state.produced = some bytes)
    (room : bytes.length + literals.length ≤ capacity) :
    ∃ state', decodeLoop source capacity rounds state = .done state' ∧
      state'.produced = bytes ++ literals := by
  have lower := length_le_of_expand expands
  rw [Decoder.length_produced] at lower
  induction parses generalizing state rounds with
  | @last token literals isToken =>
      cases rounds with
      | zero =>
          have bound := placed.input
          omega
      | succ rounds =>
          have inside := lt_length_of_drop isBlock
          rcases getElem?_of_drop isBlock with ⟨isByte, isRest⟩
          have placed' :
              Placed source capacity { state with input := state.input + 1 } :=
            ⟨inside, placed.out⟩
          have isRest' : source.drop (state.input + 1) =
              extension literals.length ++ (literals ++ []) := by
            rw [List.append_nil]
            exact isRest
          rcases decodeLiterals_extension small small' placed' isToken isRest' short.2
              (by simp only; omega) with ⟨state', read, placedEnd, isEnd, _, _, isProduced⟩
          have isBytes : state.produced = bytes := Option.some.inj expands
          have ends : state'.input = source.length := by
            have atEnd := List.drop_eq_nil_iff.mp isEnd
            have bound := placedEnd.input
            omega
          refine ⟨state', ?_, ?_⟩
          · rw [decodeLoop, if_neg (by omega), Checked.get_eq isByte, Checked.done_bind,
              read, Checked.done_bind, if_pos ends]
          · rw [isProduced, ← isBytes]
            rfl
  | @sequence token low high sequence sequences rest literals isToken isOffset parses
      induction =>
      cases rounds with
      | zero =>
          have bound := placed.input
          omega
      | succ rounds =>
          have inside := lt_length_of_drop isBlock
          rcases getElem?_of_drop isBlock with ⟨isByte, isRest⟩
          have placed' :
              Placed source capacity { state with input := state.input + 1 } :=
            ⟨inside, placed.out⟩
          have lengths := short.1 sequence (by simp)
          have isHigh : token.toNat / 16 = min sequence.literals.length 15 := by omega
          have isLow : token.toNat % 16 = min sequence.matchCode 15 := by omega
          rw [expand] at expands
          split at expands
          case isFalse => cases expands
          case isTrue valid =>
            have longer := length_le_of_expand expands
            rw [length_copyBack (by omega) _ valid.2, List.length_append,
              Decoder.length_produced, Sequence.matchLength] at longer
            rcases decodeLiterals_extension small small' placed' isHigh isRest
                lengths.1 (by simp only; omega) with
              ⟨middle, read, placedMiddle, isMatch, lower', isOut, isProduced⟩
            have isProduced' : middle.produced =
                state.produced ++ sequence.literals := isProduced
            simp only at lower' isOut
            rw [← isProduced', Decoder.length_produced, ← isOffset] at valid
            rcases decodeMatch_extension small' placedMiddle isLow isMatch valid.1
                valid.2 lengths.2 (by omega) with
              ⟨next, copied, placedNext, isNext, lower'', isOut', isCopied⟩
            have notLast : middle.input ≠ source.length := by
              have notEnd := lt_length_of_drop isMatch
              omega
            rw [← isProduced', ← isOffset, Sequence.matchLength, ← isCopied] at expands
            have longer' := length_le_of_expand expands
            rw [Decoder.length_produced] at longer'
            rcases induction ⟨fun other member => short.1 other (by simp [member]),
                short.2⟩ rounds (by omega) placedNext isNext expands room longer' with
              ⟨state', done, isEnd⟩
            refine ⟨state', ?_, isEnd⟩
            rw [decodeLoop, if_neg (by omega), Checked.get_eq isByte, Checked.done_bind,
              read, Checked.done_bind, if_neg notLast, copied, Checked.done_bind]
            exact done

end Blocks

/-- The decoder of the whole buffer. It does not touch anything outside of its
buffers, whatever it is given. What it accepts is a block of the format with the
output that it wrote, and it accepts all of those that fit and that have no length
close to the largest number. -/
theorem lz4Decompress_exact (source : List UInt8) (dest : Nat → UInt8)
    (capacity : Nat) (nonempty : source ≠ []) (small : source.length ≤ 0x7FFFFFFF)
    (small' : capacity ≤ 0x7FFFFFFF) :
    (lz4Decompress source dest capacity).Safe ∧
    (∀ size dest', lz4Decompress source dest capacity = .done (size, dest') →
      size ≤ capacity ∧ ∃ sequences literals, Parses source sequences literals ∧
        denotation sequences literals = some (upTo dest' size)) ∧
    (∀ sequences literals bytes, Parses source sequences literals →
      LengthsAtMost 0x7FFFFF00 sequences literals →
      denotation sequences literals = some bytes → bytes.length ≤ capacity →
      ∃ dest', lz4Decompress source dest capacity = .done (bytes.length, dest') ∧
        upTo dest' bytes.length = bytes) := by
  have accepted : ¬ (source.length = 0 ∨ source.length > maxBufferSize ∨
      capacity > maxBufferSize) := by
    have positive := List.length_pos_iff.mpr nonempty
    unfold maxBufferSize
    omega
  have placed : Placed source capacity { input := 0, out := 0, dest } :=
    ⟨Nat.zero_le _, Nat.zero_le _⟩
  unfold lz4Decompress
  rw [if_neg accepted]
  refine ⟨?_, ?_, ?_⟩
  · rcases decodeLoop_cases small small' _ (Nat.lt_succ_self _) placed with
      failed | ⟨state', _, _, done, _⟩
    · rw [failed]
      trivial
    · rw [done]
      trivial
  · intro size dest' isDone
    rcases decodeLoop_cases small small' _ (Nat.lt_succ_self _) placed with
      failed | ⟨state', sequences, literals, done, placedEnd, parses, expands⟩
    · rw [failed] at isDone
      cases isDone
    · rw [done] at isDone
      cases isDone
      exact ⟨placedEnd.out, sequences, literals, parses, expands⟩
  · intro sequences literals bytes parses short isDenotation room
    rcases Option.map_eq_some_iff.mp isDenotation with ⟨expanded, expands, rfl⟩
    rw [List.length_append] at room
    rcases decodeLoop_parses small small' parses short _ (Nat.lt_succ_self _) placed rfl
        expands room with ⟨state', done, isProduced⟩
    have isOut : state'.out = (expanded ++ literals).length := by
      rw [← isProduced, Decoder.length_produced]
    refine ⟨state'.dest, ?_, ?_⟩
    · rw [done, ← isOut]
      rfl
    · rw [← isOut]
      exact isProduced

/-- A literal that is repeated six times, and no last literals. -/
theorem lz4Decompress_exact_run :
    (lz4Decompress [0x12, 97, 1, 0, 0] (fun _ => 0) 16).Safe ∧
    ∃ dest', lz4Decompress [0x12, 97, 1, 0, 0] (fun _ => 0) 16 = .done (7, dest') ∧
      upTo dest' 7 = [97, 97, 97, 97, 97, 97, 97] := by
  have exact := lz4Decompress_exact [0x12, 97, 1, 0, 0] (fun _ => 0) 16 (by decide)
    (by decide) (by decide)
  have last : Parses [0] [] [] := @Parses.last 0 [] (by decide)
  have parses : Parses [0x12, 97, 1, 0, 0] [⟨[97], 1, 2⟩] [] :=
    @Parses.sequence 0x12 1 0 ⟨[97], 1, 2⟩ [] [0] [] (by decide) (by decide) last
  have short : LengthsAtMost 0x7FFFFF00 [⟨[97], 1, 2⟩] [] := by
    refine ⟨fun sequence member => ?_, by decide⟩
    rw [List.mem_singleton.mp member]
    exact ⟨by decide, by decide⟩
  exact ⟨exact.1, exact.2.2 _ _ [97, 97, 97, 97, 97, 97, 97] parses short (by decide)
    (by decide)⟩

end Katela.Lz4
