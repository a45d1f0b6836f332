import Katela.Crypto.Base64

/-! # Which texts are decoded

A text that is filled up with equals signs, said of the places of its characters, and
the bits that it stands for. `base64_decode` accepts these texts and no others, and the
bytes it writes have these bits. -/

namespace Katela.Crypto.Base64

/-! ## Bits -/

/-- The lowest bits of a number, the highest of them first. -/
def bitsOf : (width : Nat) → Nat → List Bool
  | 0, _ => []
  | width + 1, value => value.testBit width :: bitsOf width value

@[simp] theorem length_bitsOf (width value : Nat) : (bitsOf width value).length = width := by
  induction width with
  | zero => rfl
  | succ width ih => exact congrArg (· + 1) ih

theorem bitsOf_mod {width places : Nat} (inside : width ≤ places) (value : Nat) :
    bitsOf width (value % 2 ^ places) = bitsOf width value := by
  induction width with
  | zero => rfl
  | succ width ih =>
      rw [bitsOf, bitsOf, ih (by omega), Nat.testBit_mod_two_pow,
        decide_eq_true (by omega), Bool.true_and]

/-- The bits of a number are those above a place and those below it. -/
theorem bitsOf_add (upper lower value : Nat) :
    bitsOf (upper + lower) value =
      bitsOf upper (value / 2 ^ lower) ++ bitsOf lower value := by
  induction upper with
  | zero => rw [Nat.zero_add, bitsOf, List.nil_append]
  | succ upper ih =>
      rw [Nat.add_right_comm, bitsOf, ih, bitsOf, List.cons_append,
        Nat.testBit_div_two_pow]

/-- Numbers with the same upper bits and the same lower bits. -/
theorem bitsOf_join {upper lower value high low : Nat}
    (isHigh : value / 2 ^ lower % 2 ^ upper = high % 2 ^ upper)
    (isLow : value % 2 ^ lower = low % 2 ^ lower) :
    bitsOf (upper + lower) value = bitsOf upper high ++ bitsOf lower low := by
  rw [bitsOf_add, ← bitsOf_mod (Nat.le_refl upper), isHigh,
    bitsOf_mod (Nat.le_refl upper), ← @bitsOf_mod lower lower (Nat.le_refl lower) value,
    isLow, bitsOf_mod (Nat.le_refl lower)]

/-- The bits of a byte. -/
def byteBits (byte : UInt8) : List Bool := bitsOf 8 byte.toNat

/-- The six bits that a symbol stands for: those of its place in the alphabet. -/
def symbolBits (symbol : UInt8) : List Bool := bitsOf 6 (alphabet.idxOf symbol)

@[simp] theorem length_byteBits (byte : UInt8) : (byteBits byte).length = 8 :=
  length_bitsOf 8 _

@[simp] theorem length_symbolBits (symbol : UInt8) : (symbolBits symbol).length = 6 :=
  length_bitsOf 6 _

theorem byteBits_ofNat {value upper lower high low : Nat} (isEight : upper + lower = 8)
    (isHigh : value / 2 ^ lower % 2 ^ upper = high % 2 ^ upper)
    (isLow : value % 2 ^ lower = low % 2 ^ lower) :
    byteBits (UInt8.ofNat value) = bitsOf upper high ++ bitsOf lower low := by
  unfold byteBits
  rw [UInt8.toNat_ofNat', @bitsOf_mod 8 8 (Nat.le_refl 8) value, ← isEight]
  exact bitsOf_join isHigh isLow

/-! ## Texts -/

/-- A text of whole groups of four. A character is a symbol, or it is an equals sign at
one of the last two places with nothing but equals signs after it. -/
structure IsPadded (text : List UInt8) : Prop where
  groups : text.length % 4 = 0
  characters : ∀ index character, text[index]? = some character →
    character ∈ alphabet ∨
      character = equals ∧ text.length ≤ index + 2 ∧
        ∀ next ∈ text.drop (index + 1), next = equals

/-- The bits that the symbols of a text stand for. -/
def textBits (text : List UInt8) : List Bool :=
  (text.filter (· ≠ equals)).flatMap symbolBits

theorem idxOf_lt {symbol : UInt8} (isSymbol : symbol ∈ alphabet) :
    alphabet.idxOf symbol < 64 := by
  rw [← length_alphabet]
  exact List.idxOf_lt_length_of_mem isSymbol

theorem symbolOf_idxOf {symbol : UInt8} (isSymbol : symbol ∈ alphabet) :
    symbolOf (alphabet.idxOf symbol) = symbol := by
  unfold symbolOf
  rw [List.getD_eq_getElem?_getD,
    List.getElem?_eq_getElem (List.idxOf_lt_length_of_mem isSymbol), Option.getD_some]
  exact List.getElem_idxOf _

/-- The value of a symbol is its place in the alphabet. -/
theorem symbolValue_mem {symbol : UInt8} (isSymbol : symbol ∈ alphabet) :
    symbolValue symbol = some (UInt32.ofNat (alphabet.idxOf symbol)) := by
  have isValue := symbolValue_symbolOf (idxOf_lt isSymbol)
  rw [symbolOf_idxOf isSymbol] at isValue
  exact isValue

theorem symbolOf_symbolValue {symbol : UInt8} {value : UInt32}
    (isValue : symbolValue symbol = some value) : symbolOf value.toNat = symbol := by
  have all : ∀ number : Fin 256, (symbolValue (UInt8.ofNat number)).all
      (fun value => decide (symbolOf value.toNat = UInt8.ofNat number)) = true := by
    simp only [symbolOf, alphabet_eq]
    decide +kernel
  have here := all ⟨symbol.toNat, symbol.toNat_lt⟩
  simp only [UInt8.ofNat_toNat, isValue, Option.all_some, decide_eq_true_iff] at here
  exact here

/-- Other characters have no value. -/
theorem symbolValue_not_mem {symbol : UInt8} (noSymbol : symbol ∉ alphabet) :
    symbolValue symbol = none := by
  cases isValue : symbolValue symbol with
  | none => rfl
  | some value =>
      apply absurd _ noSymbol
      rw [← symbolOf_symbolValue isValue]
      exact symbolOf_mem_alphabet (symbolValue_lt isValue)

theorem equals_not_mem : equals ∉ alphabet := by
  rw [alphabet_eq]
  decide +kernel

theorem ne_equals_of_mem {symbol : UInt8} (isSymbol : symbol ∈ alphabet) :
    symbol ≠ equals := fun same => equals_not_mem (same ▸ isSymbol)

/-! ### A group -/

/-- A group of four characters. Only the last one may end in equals signs. -/
def IsGroup (isLast : Bool) (a b c d : UInt8) : Prop :=
  a ∈ alphabet ∧ b ∈ alphabet ∧
    (c ∈ alphabet ∧ d ∈ alphabet ∨
      isLast = true ∧ d = equals ∧ (c ∈ alphabet ∨ c = equals))

/-- A group without bytes is not well formed. -/
theorem not_isGroup {isLast : Bool} {a b c d : UInt8}
    (isNone : decodeGroup isLast a b c d = none) : ¬ IsGroup isLast a b c d := by
  rintro ⟨isA, isB, ends⟩
  rw [← symbolOf_idxOf isA, ← symbolOf_idxOf isB] at isNone
  rcases ends with ⟨isC, isD⟩ | ⟨last, rfl, isC | rfl⟩
  · rw [← symbolOf_idxOf isC, ← symbolOf_idxOf isD, decodeGroup_three _ (idxOf_lt isA)
      (idxOf_lt isB) (idxOf_lt isC) (idxOf_lt isD)] at isNone
    cases isNone
  · rw [last, ← symbolOf_idxOf isC, decodeGroup_two (idxOf_lt isA) (idxOf_lt isB)
      (idxOf_lt isC)] at isNone
    cases isNone
  · rw [last, decodeGroup_one (idxOf_lt isA) (idxOf_lt isB)] at isNone
    cases isNone

/-- A group with bytes is well formed. -/
theorem isGroup_of_decodeGroup {isLast : Bool} {a b c d : UInt8} {bytes : List UInt8}
    (isSome : decodeGroup isLast a b c d = some bytes) : IsGroup isLast a b c d := by
  unfold decodeGroup at isSome
  by_cases isA : a ∈ alphabet
  swap
  · simp [symbolValue_not_mem isA] at isSome
  by_cases isB : b ∈ alphabet
  swap
  · simp [symbolValue_not_mem isB] at isSome
  refine ⟨isA, isB, ?_⟩
  simp only [symbolValue_mem isA, symbolValue_mem isB, Option.bind_eq_bind,
    Option.bind_some] at isSome
  by_cases isC : c ∈ alphabet
  · by_cases isD : d ∈ alphabet
    · exact Or.inl ⟨isC, isD⟩
    · by_cases ends : isLast = true ∧ d = equals
      · exact Or.inr ⟨ends.1, ends.2, Or.inl isC⟩
      · simp [ends, symbolValue_not_mem isD] at isSome
  · by_cases ends : isLast = true ∧ d = equals
    · by_cases equalsC : c = equals
      · exact Or.inr ⟨ends.1, ends.2, Or.inr equalsC⟩
      · simp [ends, equalsC, symbolValue_not_mem isC] at isSome
    · simp [ends, symbolValue_not_mem isC] at isSome

section GroupBits

variable {first second third fourth : Nat}

theorem byteBits_first (isSecond : second < 64) :
    byteBits (UInt8.ofNat (first * 4 + second / 16)) =
      bitsOf 6 first ++ bitsOf 2 (second / 16) :=
  byteBits_ofNat rfl (by omega) (by omega)

theorem byteBits_second (isThird : third < 64) :
    byteBits (UInt8.ofNat (second * 16 + third / 4)) =
      bitsOf 4 second ++ bitsOf 4 (third / 4) :=
  byteBits_ofNat rfl (by omega) (by omega)

theorem byteBits_third (isFourth : fourth < 64) :
    byteBits (UInt8.ofNat (third * 64 + fourth)) = bitsOf 2 third ++ bitsOf 6 fourth :=
  byteBits_ofNat rfl (by omega) (by omega)

end GroupBits

theorem symbolBits_second (symbol : UInt8) :
    symbolBits symbol =
      bitsOf 2 (alphabet.idxOf symbol / 16) ++ bitsOf 4 (alphabet.idxOf symbol) :=
  bitsOf_add 2 4 _

theorem symbolBits_third (symbol : UInt8) :
    symbolBits symbol =
      bitsOf 4 (alphabet.idxOf symbol / 4) ++ bitsOf 2 (alphabet.idxOf symbol) :=
  bitsOf_add 4 2 _

/-- The bytes of a text are as many as its equals signs leave, and their bits are the
first ones of its symbols. -/
structure Stands (text bytes : List UInt8) : Prop where
  size : bytes.length + text.count equals = 3 * text.length / 4
  bits : bytes.flatMap byteBits = (textBits text).take (8 * bytes.length)

theorem stands_nil : Stands [] [] where
  size := rfl
  bits := rfl

theorem textBits_append (front back : List UInt8) :
    textBits (front ++ back) = textBits front ++ textBits back := by
  unfold textBits
  rw [List.filter_append, List.flatMap_append]

/-- A text after a group without equals signs. -/
theorem Stands.append {front back frontBytes backBytes : List UInt8}
    (isFront : Stands front frontBytes) (isBack : Stands back backBytes)
    (whole : front.length % 4 = 0) (full : (textBits front).length = 8 * frontBytes.length) :
    Stands (front ++ back) (frontBytes ++ backBytes) where
  size := by
    have first := isFront.size
    have second := isBack.size
    rw [List.length_append, List.length_append, List.count_append]
    omega
  bits := by
    have isSum : 8 * (frontBytes ++ backBytes).length =
        (textBits front).length + 8 * backBytes.length := by
      rw [List.length_append, full]
      omega
    rw [List.flatMap_append, isFront.bits, isBack.bits, textBits_append,
      List.take_of_length_le (Nat.le_of_eq full), isSum, List.take_length_add_append]

section Groups

variable {a b c d : UInt8} {isLast : Bool} {bytes : List UInt8}

/-- A group of four symbols. Its bits are all in its bytes. -/
theorem stands_symbols (isA : a ∈ alphabet) (isB : b ∈ alphabet) (isC : c ∈ alphabet)
    (isD : d ∈ alphabet) (isGroup : decodeGroup isLast a b c d = some bytes) :
    Stands [a, b, c, d] bytes ∧ (textBits [a, b, c, d]).length = 8 * bytes.length := by
  rw [← symbolOf_idxOf isA, ← symbolOf_idxOf isB, ← symbolOf_idxOf isC,
    ← symbolOf_idxOf isD, decodeGroup_three _ (idxOf_lt isA) (idxOf_lt isB) (idxOf_lt isC)
      (idxOf_lt isD)] at isGroup
  cases isGroup
  have isBits : textBits [a, b, c, d] =
      symbolBits a ++ (symbolBits b ++ (symbolBits c ++ symbolBits d)) := by
    simp [textBits, ne_equals_of_mem isA, ne_equals_of_mem isB, ne_equals_of_mem isC,
      ne_equals_of_mem isD]
  have isLength : (textBits [a, b, c, d]).length = 24 := by simp [isBits]
  refine ⟨⟨?_, ?_⟩, isLength⟩
  · simp [ne_equals_of_mem isA, ne_equals_of_mem isB, ne_equals_of_mem isC,
      ne_equals_of_mem isD]
  · rw [List.take_of_length_le (by simp [isLength]), isBits, symbolBits_second b,
      symbolBits_third c]
    simp only [List.flatMap_cons, List.flatMap_nil, byteBits_first (idxOf_lt isB),
      byteBits_second (idxOf_lt isC), byteBits_third (idxOf_lt isD), symbolBits,
      List.append_assoc, List.append_nil]

theorem stands_one_equals (isA : a ∈ alphabet) (isB : b ∈ alphabet) (isC : c ∈ alphabet)
    (isGroup : decodeGroup true a b c equals = some bytes) :
    Stands [a, b, c, equals] bytes := by
  rw [← symbolOf_idxOf isA, ← symbolOf_idxOf isB, ← symbolOf_idxOf isC,
    decodeGroup_two (idxOf_lt isA) (idxOf_lt isB) (idxOf_lt isC)] at isGroup
  cases isGroup
  have isBits : textBits [a, b, c, equals] =
      symbolBits a ++ (symbolBits b ++ symbolBits c) := by
    simp [textBits, ne_equals_of_mem isA, ne_equals_of_mem isB, ne_equals_of_mem isC]
  refine ⟨?_, ?_⟩
  · simp [ne_equals_of_mem isA, ne_equals_of_mem isB, ne_equals_of_mem isC]
  · rw [isBits, symbolBits_second b, symbolBits_third c]
    simp only [List.flatMap_cons, List.flatMap_nil, byteBits_first (idxOf_lt isB),
      byteBits_second (idxOf_lt isC), symbolBits, List.append_nil]
    rw [← List.append_assoc, ← List.append_assoc, ← List.append_assoc,
      ← List.append_assoc, List.take_left' (by simp)]

theorem stands_two_equals (isA : a ∈ alphabet) (isB : b ∈ alphabet)
    (isGroup : decodeGroup true a b equals equals = some bytes) :
    Stands [a, b, equals, equals] bytes := by
  rw [← symbolOf_idxOf isA, ← symbolOf_idxOf isB,
    decodeGroup_one (idxOf_lt isA) (idxOf_lt isB)] at isGroup
  cases isGroup
  have isBits : textBits [a, b, equals, equals] = symbolBits a ++ symbolBits b := by
    simp [textBits, ne_equals_of_mem isA, ne_equals_of_mem isB]
  refine ⟨?_, ?_⟩
  · simp [ne_equals_of_mem isA, ne_equals_of_mem isB]
  · rw [isBits, symbolBits_second b]
    simp only [List.flatMap_cons, List.flatMap_nil, byteBits_first (idxOf_lt isB),
      symbolBits, List.append_nil]
    rw [← List.append_assoc, List.take_left' (by simp)]

end Groups

/-! ### A whole text -/

theorem isPadded_nil : IsPadded [] where
  groups := rfl
  characters := by
    intro index character found
    cases found

/-- What holds at every place of a text holds of its first group and after it. -/
theorem isPadded_cons {a b c d : UInt8} {rest : List UInt8} :
    IsPadded (a :: b :: c :: d :: rest) ↔ IsGroup rest.isEmpty a b c d ∧ IsPadded rest := by
  constructor
  · rintro ⟨groups, characters⟩
    have wholeRest : rest.length % 4 = 0 := by
      simp only [List.length_cons] at groups
      omega
    have atA := characters 0 a rfl
    have atB := characters 1 b rfl
    have atC := characters 2 c rfl
    have atD := characters 3 d rfl
    simp only [List.length_cons, List.drop_succ_cons, List.drop_zero] at atA atB atC atD
    refine ⟨⟨?_, ?_, ?_⟩, wholeRest, ?_⟩
    · rcases atA with isA | ⟨-, near, -⟩
      · exact isA
      · omega
    · rcases atB with isB | ⟨-, near, -⟩
      · exact isB
      · omega
    · have isLast : rest.length ≤ 1 → rest.isEmpty = true := by
        intro small
        rw [List.isEmpty_iff_length_eq_zero]
        omega
      rcases atD with isD | ⟨equalsD, near, -⟩
      · rcases atC with isC | ⟨-, -, after⟩
        · exact Or.inl ⟨isC, isD⟩
        · exact absurd (after d List.mem_cons_self) (ne_equals_of_mem isD)
      · refine Or.inr ⟨isLast (by omega), equalsD, ?_⟩
        rcases atC with isC | ⟨equalsC, -, -⟩
        · exact Or.inl isC
        · exact Or.inr equalsC
    · intro index character found
      have here := characters (index + 4) character found
      simp only [List.length_cons, List.drop_succ_cons] at here
      rcases here with isSymbol | ⟨isEquals, near, after⟩
      · exact Or.inl isSymbol
      · exact Or.inr ⟨isEquals, by omega, after⟩
  · rintro ⟨⟨isA, isB, ends⟩, groups, characters⟩
    refine ⟨by simp only [List.length_cons]; omega, ?_⟩
    intro index character found
    simp only [List.length_cons]
    match index, found with
    | 0, found =>
        cases found
        exact Or.inl isA
    | 1, found =>
        cases found
        exact Or.inl isB
    | 2, found =>
        cases found
        rcases ends with ⟨isC, -⟩ | ⟨isLast, rfl, isC | rfl⟩
        · exact Or.inl isC
        · exact Or.inl isC
        · rw [List.isEmpty_iff.mp isLast]
          exact Or.inr ⟨rfl, Nat.le_refl _, by simp⟩
    | 3, found =>
        cases found
        rcases ends with ⟨-, isD⟩ | ⟨isLast, rfl, -⟩
        · exact Or.inl isD
        · rw [List.isEmpty_iff.mp isLast]
          exact Or.inr ⟨rfl, by simp, by simp⟩
    | index + 4, found =>
        rcases characters index character found with isSymbol | ⟨isEquals, near, after⟩
        · exact Or.inl isSymbol
        · exact Or.inr ⟨isEquals, by omega, after⟩

/-- What a text has to be for it to have these bytes, or none. -/
def TextDecodes (text : List UInt8) : Option (List UInt8) → Prop
  | none => ¬ IsPadded text
  | some bytes => IsPadded text ∧ Stands text bytes

theorem decodeText_decodes (text : List UInt8) : TextDecodes text (decodeText text) := by
  fun_induction decodeText text with
  | case1 => exact ⟨isPadded_nil, stands_nil⟩
  | case2 a b c d rest ih =>
      cases isGroup : decodeGroup rest.isEmpty a b c d with
      | none => exact fun padded => not_isGroup isGroup (isPadded_cons.mp padded).1
      | some group =>
          have wellFormed := isGroup_of_decodeGroup isGroup
          cases isRest : decodeText rest with
          | none =>
              rw [isRest] at ih
              exact fun padded => ih (isPadded_cons.mp padded).2
          | some others =>
              rw [isRest] at ih
              refine ⟨isPadded_cons.mpr ⟨wellFormed, ih.1⟩, ?_⟩
              rcases wellFormed with ⟨isA, isB, ⟨isC, isD⟩ | ⟨isLast, rfl, ends⟩⟩
              · have whole := stands_symbols isA isB isC isD isGroup
                exact whole.1.append ih.2 (Nat.mod_self 4) whole.2
              · rw [List.isEmpty_iff.mp isLast] at isRest
                rw [isLast] at isGroup
                cases isRest
                rw [List.isEmpty_iff.mp isLast, List.append_nil]
                rcases ends with isC | rfl
                · exact stands_one_equals isA isB isC isGroup
                · exact stands_two_equals isA isB isGroup
  | case3 text noNil noGroup =>
      rintro ⟨groups, -⟩
      match text, noNil, noGroup, groups with
      | [], noNil, _, _ => exact noNil rfl
      | [_], _, _, groups => cases groups
      | [_, _], _, _, groups => cases groups
      | [_, _, _], _, _, groups => cases groups
      | a :: b :: c :: d :: rest, _, noGroup, _ => exact noGroup a b c d rest rfl

/-! ## The code -/

/-- A length that is no multiple of four is that of no padded text. -/
theorem base64Decode_decodes (input : Buffer) (length : UInt32) (output : Buffer) :
    ∃ found, TextDecodes (bytesAt input 0 length.toNat) found ∧
      Decodes (base64Decode input length output) 0 output found := by
  by_cases whole : length % 4 = 0
  · exact ⟨_, decodeText_decodes _, base64Decode_eq input length output whole⟩
  · refine ⟨none, ?_, output, if_pos whole⟩
    rintro ⟨groups, -⟩
    apply whole
    apply UInt32.toNat_inj.mp
    rw [length_bytesAt] at groups
    rw [UInt32.toNat_mod]
    exact groups

/-- The code succeeds on a padded text and on no other. It then stores the number of
bytes that the equals signs leave, and the bits of the bytes that it wrote are the first
ones of the text. -/
theorem base64Decode_padded (input : Buffer) (length : UInt32) (output : Buffer) :
    ((∃ size written, base64Decode input length output = .done (size, written)) ↔
      IsPadded (bytesAt input 0 length.toNat)) ∧
    ((∃ left, base64Decode input length output = .failed left) ↔
      ¬ IsPadded (bytesAt input 0 length.toNat)) ∧
    ∀ size written, base64Decode input length output = .done (size, written) →
      size.toNat =
        3 * length.toNat / 4 - (bytesAt input 0 length.toNat).count equals ∧
      (bytesAt written 0 size.toNat).flatMap byteBits =
        (textBits (bytesAt input 0 length.toNat)).take (8 * size.toNat) ∧
      ∀ index, size.toNat ≤ index → written index = output index := by
  have bound := length.toNat_lt
  rcases base64Decode_decodes input length output with ⟨found, text, outcome⟩
  cases found with
  | none =>
      rcases outcome with ⟨left, isFailed⟩
      rw [isFailed]
      refine ⟨⟨?_, fun padded => absurd padded text⟩, ⟨fun _ => text, fun _ => ⟨left, rfl⟩⟩,
        ?_⟩
      · rintro ⟨size, written, same⟩
        cases same
      · intro size written same
        cases same
  | some bytes =>
      have isSize := text.2.size
      rw [length_bytesAt] at isSize
      have toNatSize : (UInt32.ofNat (0 + bytes.length)).toNat = bytes.length := by
        rw [Nat.zero_add]
        exact UInt32.toNat_ofNat_of_lt' (by
          rw [show UInt32.size = 2 ^ 32 from rfl]; omega)
      rw [show base64Decode input length output = _ from outcome]
      refine ⟨⟨fun _ => text.1, fun _ => ⟨_, _, rfl⟩⟩, ⟨?_, fun no => absurd text.1 no⟩, ?_⟩
      · rintro ⟨left, same⟩
        cases same
      · intro size written same
        cases same
        rw [toNatSize]
        have isWritten := bytesAt_write output 0 bytes []
        rw [List.append_nil] at isWritten
        refine ⟨by omega, ?_, ?_⟩
        · rw [isWritten]
          exact text.2.bits
        · intro index after
          exact output.write_after (by omega)

end Katela.Crypto.Base64
