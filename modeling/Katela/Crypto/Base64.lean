import Mathlib.Data.List.Basic
import Katela.Foundation.Checked
import Katela.Foundation.Words

/-! # Base64

A model of `base64.c`, the text of a string of bytes and the bytes of a text as lists,
and the proofs that the code computes them and that the text of a string stands for
that string. -/

namespace Katela.Crypto.Base64

/-! ## The code -/

/-- Memory behind a pointer. -/
abbrev Buffer : Type := Nat → UInt8

/-- `buffer[offset++] = value` for each value. -/
def Buffer.write (buffer : Buffer) (offset : Nat) (values : List UInt8) : Buffer :=
  fun index =>
    if offset ≤ index ∧ index < offset + values.length then
      values.getD (index - offset) 0
    else buffer index

def alphabet : List UInt8 :=
  "ABCDEFGHIJKLMNOPQRSTUVWXYZabcdefghijklmnopqrstuvwxyz0123456789+/".toList.map
    fun symbol => UInt8.ofNat symbol.toNat

/-- The symbol for six bits. -/
def symbolAt (value : UInt32) : UInt8 := alphabet.getD value.toNat 0

/-- The sign that fills up the last group. -/
def equals : UInt8 := 0x3d

def symbolValue (symbol : UInt8) : Option UInt32 :=
  if symbol ≥ 0x41 ∧ symbol ≤ 0x5a then some (symbol - 0x41).toUInt32
  else if symbol ≥ 0x61 ∧ symbol ≤ 0x7a then some ((symbol - 0x61).toUInt32 + 26)
  else if symbol ≥ 0x30 ∧ symbol ≤ 0x39 then some ((symbol - 0x30).toUInt32 + 52)
  else if symbol = 0x2b then some 62
  else if symbol = 0x2f then some 63
  else none

def base64EncodedSize (size : UInt32) : UInt32 := (size + 2) / 3 * 4

def base64DecodedSize (length : UInt32) : UInt32 := length / 4 * 3

/-- The symbol for the six bits of a group above a position. -/
def groupSymbol (group shift : UInt32) : UInt8 :=
  symbolAt ((group >>> shift) &&& 0x3f)

/-- The loop over the whole groups: the values of `i` and `written` after it, and the
output. -/
def encodeLoop (input : Buffer) (size i written : UInt32) (output : Buffer) :
    UInt32 × UInt32 × Buffer :=
  if 3 ≤ size - i then
    let group := (input i.toNat).toUInt32 <<< 16 |||
      (input (i + 1).toNat).toUInt32 <<< 8 ||| (input (i + 2).toNat).toUInt32
    encodeLoop input size (i + 3) (written + 4) (output.write written.toNat
      [groupSymbol group 18, groupSymbol group 12, groupSymbol group 6,
        groupSymbol group 0])
  else (i, written, output)
termination_by (size - i).toNat
decreasing_by
  have enough : (3 : UInt32) ≤ size - i := by assumption
  have less : (3 : UInt32).toNat ≤ (size - i).toNat := UInt32.le_iff_toNat_le.mp enough
  have same : size - (i + 3) = size - i - 3 := by
    rw [UInt32.sub_eq_add_neg, UInt32.neg_add, UInt32.sub_eq_add_neg (-i),
      ← UInt32.add_assoc, ← UInt32.sub_eq_add_neg, ← UInt32.sub_eq_add_neg]
  have three : (3 : UInt32).toNat = 3 := rfl
  rw [same, UInt32.toNat_sub_of_le _ _ enough]
  omega

/-- The last group, which has one or two bytes. -/
def encodeRest (input : Buffer) (size i written : UInt32) (output : Buffer) :
    UInt32 × Buffer :=
  if size - i = 1 then
    let group := (input i.toNat).toUInt32 <<< 16
    (written + 4, output.write written.toNat
      [groupSymbol group 18, groupSymbol group 12, equals, equals])
  else if size - i = 2 then
    let group := (input i.toNat).toUInt32 <<< 16 |||
      (input (i + 1).toNat).toUInt32 <<< 8
    (written + 4, output.write written.toNat
      [groupSymbol group 18, groupSymbol group 12, groupSymbol group 6, equals])
  else (written, output)

/-- The number that is returned and the output. -/
def base64Encode (input : Buffer) (size : UInt32) (output : Buffer) :
    UInt32 × Buffer :=
  let (i, written, output) := encodeLoop input size 0 0 output
  let (written, output) := encodeRest input size i written output
  (written, output.write written.toNat [0])

/-- The loop over the symbols of a group, with the number of equals signs and the values
so far. -/
def groupLoop (input : Buffer) (length i : UInt32) :
    (rounds j padding : Nat) → List UInt32 → Option (Nat × List UInt32)
  | 0, _, padding, values => some (padding, values)
  | rounds + 1, j, padding, values =>
      let symbol := input (i + UInt32.ofNat j).toNat
      if symbol = equals then
        if i + 4 ≠ length ∨ j < 2 then none
        else groupLoop input length i rounds (j + 1) (padding + 1) (values ++ [0])
      else if padding ≠ 0 then none
      else
        match symbolValue symbol with
        | none => none
        | some value => groupLoop input length i rounds (j + 1) padding (values ++ [value])

/-- The bytes of a group that are stored. -/
def groupBytes (padding : Nat) (values : List UInt32) : List UInt8 :=
  let group := values.getD 0 0 <<< 18 ||| values.getD 1 0 <<< 12 |||
    values.getD 2 0 <<< 6 ||| values.getD 3 0
  [(group >>> 16).toUInt8] ++ (if padding < 2 then [(group >>> 8).toUInt8] else []) ++
    (if padding < 1 then [group.toUInt8] else [])

/-- The loop over the groups. An error leaves the output of the groups before it. -/
def decodeLoop (input : Buffer) (length : UInt32) :
    (rounds : Nat) → (i written : UInt32) → Buffer → Checked Buffer (UInt32 × Buffer)
  | 0, _, _, _ => .endless
  | rounds + 1, i, written, output =>
      if i < length then
        match groupLoop input length i 4 0 0 [] with
        | none => .failed output
        | some (padding, values) =>
            let bytes := groupBytes padding values
            decodeLoop input length rounds (i + 4)
              (written + UInt32.ofNat bytes.length) (output.write written.toNat bytes)
      else .done (written, output)

/-- The size that is stored and the output. There are not more rounds than groups. -/
def base64Decode (input : Buffer) (length : UInt32) (output : Buffer) :
    Checked Buffer (UInt32 × Buffer) :=
  if length % 4 ≠ 0 then .failed output
  else decodeLoop input length (length.toNat / 4 + 1) 0 0 output

/-! ## Texts as lists -/

/-- The symbol for a number below 64. -/
def symbolOf (value : Nat) : UInt8 := alphabet.getD value 0

/-- The text of a string of bytes. -/
def encodeText : List UInt8 → List UInt8
  | [] => []
  | [a] => [symbolOf (a.toNat / 4), symbolOf (a.toNat % 4 * 16), equals, equals]
  | [a, b] =>
      [symbolOf (a.toNat / 4), symbolOf (a.toNat % 4 * 16 + b.toNat / 16),
        symbolOf (b.toNat % 16 * 4), equals]
  | a :: b :: c :: rest =>
      [symbolOf (a.toNat / 4), symbolOf (a.toNat % 4 * 16 + b.toNat / 16),
        symbolOf (b.toNat % 16 * 4 + c.toNat / 64), symbolOf (c.toNat % 64)] ++
        encodeText rest

/-- The bytes of a group of symbols. Only the last group may have equals signs. -/
def decodeGroup (isLast : Bool) (a b c d : UInt8) : Option (List UInt8) := do
  let first ← symbolValue a
  let second ← symbolValue b
  if isLast ∧ d = equals then
    if c = equals then some [UInt8.ofNat (first.toNat * 4 + second.toNat / 16)]
    else do
      let third ← symbolValue c
      some [UInt8.ofNat (first.toNat * 4 + second.toNat / 16),
        UInt8.ofNat (second.toNat * 16 + third.toNat / 4)]
  else do
    let third ← symbolValue c
    let fourth ← symbolValue d
    some [UInt8.ofNat (first.toNat * 4 + second.toNat / 16),
      UInt8.ofNat (second.toNat * 16 + third.toNat / 4),
      UInt8.ofNat (third.toNat * 64 + fourth.toNat)]

/-- The bytes that a text stands for. -/
def decodeText : List UInt8 → Option (List UInt8)
  | [] => some []
  | a :: b :: c :: d :: rest => do
      let group ← decodeGroup rest.isEmpty a b c d
      let others ← decodeText rest
      some (group ++ others)
  | _ => none

theorem length_encodeText (bytes : List UInt8) :
    (encodeText bytes).length = (bytes.length + 2) / 3 * 4 := by
  fun_induction encodeText bytes with
  | case1 => rfl
  | case2 a => simp
  | case3 a b => simp
  | case4 a b c rest ih =>
      simp only [List.length_append, List.length_cons, List.length_nil, ih]
      omega

/-- The codes of the symbols. -/
theorem alphabet_eq : alphabet =
    [0x41, 0x42, 0x43, 0x44, 0x45, 0x46, 0x47, 0x48, 0x49, 0x4a, 0x4b, 0x4c, 0x4d,
      0x4e, 0x4f, 0x50, 0x51, 0x52, 0x53, 0x54, 0x55, 0x56, 0x57, 0x58, 0x59, 0x5a,
      0x61, 0x62, 0x63, 0x64, 0x65, 0x66, 0x67, 0x68, 0x69, 0x6a, 0x6b, 0x6c, 0x6d,
      0x6e, 0x6f, 0x70, 0x71, 0x72, 0x73, 0x74, 0x75, 0x76, 0x77, 0x78, 0x79, 0x7a,
      0x30, 0x31, 0x32, 0x33, 0x34, 0x35, 0x36, 0x37, 0x38, 0x39, 0x2b, 0x2f] := by
  decide +kernel

theorem length_alphabet : alphabet.length = 64 := by
  rw [alphabet_eq]
  rfl

theorem symbolValue_symbolOf {value : Nat} (less : value < 64) :
    symbolValue (symbolOf value) = some (UInt32.ofNat value) := by
  have all : ∀ value : Fin 64,
      symbolValue (symbolOf value) = some (UInt32.ofNat value) := by
    simp only [symbolOf, alphabet_eq]
    decide +kernel
  exact all ⟨value, less⟩

theorem symbolOf_mem_alphabet {value : Nat} (less : value < 64) :
    symbolOf value ∈ alphabet := by
  have inside : value < alphabet.length := by
    rw [length_alphabet]
    exact less
  rw [symbolOf, List.getD_eq_getElem?_getD, List.getElem?_eq_getElem inside,
    Option.getD_some]
  exact List.getElem_mem inside

theorem symbolOf_mem {value : Nat} (less : value < 64) :
    symbolOf value ∈ equals :: alphabet :=
  List.mem_cons_of_mem _ (symbolOf_mem_alphabet less)

/-- A text has no other characters. -/
theorem encodeText_mem (bytes : List UInt8) :
    ∀ symbol ∈ encodeText bytes, symbol ∈ equals :: alphabet := by
  have isEquals : equals ∈ equals :: alphabet := List.mem_cons_self
  fun_induction encodeText bytes with
  | case1 => simp
  | case2 a =>
      have bound := a.toNat_lt
      simp only [List.forall_mem_cons, List.not_mem_nil, false_imp_iff, implies_true,
        and_true]
      exact ⟨symbolOf_mem (by omega), symbolOf_mem (by omega), isEquals, isEquals⟩
  | case3 a b =>
      have boundA := a.toNat_lt
      have boundB := b.toNat_lt
      simp only [List.forall_mem_cons, List.not_mem_nil, false_imp_iff, implies_true,
        and_true]
      exact ⟨symbolOf_mem (by omega), symbolOf_mem (by omega), symbolOf_mem (by omega),
        isEquals⟩
  | case4 a b c rest ih =>
      have boundA := a.toNat_lt
      have boundB := b.toNat_lt
      have boundC := c.toNat_lt
      simp only [List.cons_append, List.nil_append, List.forall_mem_cons]
      exact ⟨symbolOf_mem (by omega), symbolOf_mem (by omega), symbolOf_mem (by omega),
        symbolOf_mem (by omega), ih⟩

theorem symbolOf_ne_equals {value : Nat} (less : value < 64) :
    symbolOf value ≠ equals := by
  intro same
  have found := symbolValue_symbolOf less
  rw [same] at found
  cases found

theorem toNat_ofNat_of_lt_64 {value : Nat} (less : value < 64) :
    (UInt32.ofNat value).toNat = value :=
  UInt32.toNat_ofNat_of_lt' (Nat.lt_trans less (by decide))

/-- A byte from its bits. -/
theorem ofNat_eq_byte {value : Nat} {byte : UInt8} (same : value % 256 = byte.toNat) :
    UInt8.ofNat value = byte := by
  apply UInt8.toNat_inj.mp
  rw [UInt8.toNat_ofNat', same]

section Groups

variable {first second third fourth : Nat}

theorem decodeGroup_three (isLast : Bool) (isFirst : first < 64) (isSecond : second < 64)
    (isThird : third < 64) (isFourth : fourth < 64) :
    decodeGroup isLast (symbolOf first) (symbolOf second) (symbolOf third)
        (symbolOf fourth) =
      some [UInt8.ofNat (first * 4 + second / 16), UInt8.ofNat (second * 16 + third / 4),
        UInt8.ofNat (third * 64 + fourth)] := by
  unfold decodeGroup
  rw [symbolValue_symbolOf isFirst, symbolValue_symbolOf isSecond,
    symbolValue_symbolOf isThird, symbolValue_symbolOf isFourth]
  simp only [symbolOf_ne_equals isFourth, and_false, if_false, Option.bind_eq_bind,
    Option.bind_some, toNat_ofNat_of_lt_64, isFirst, isSecond, isThird, isFourth]

theorem decodeGroup_two (isFirst : first < 64) (isSecond : second < 64)
    (isThird : third < 64) :
    decodeGroup true (symbolOf first) (symbolOf second) (symbolOf third) equals =
      some [UInt8.ofNat (first * 4 + second / 16),
        UInt8.ofNat (second * 16 + third / 4)] := by
  unfold decodeGroup
  rw [symbolValue_symbolOf isFirst, symbolValue_symbolOf isSecond,
    symbolValue_symbolOf isThird]
  simp only [symbolOf_ne_equals isThird, and_self, if_true, if_false,
    Option.bind_eq_bind, Option.bind_some, toNat_ofNat_of_lt_64, isFirst, isSecond,
    isThird]

theorem decodeGroup_one (isFirst : first < 64) (isSecond : second < 64) :
    decodeGroup true (symbolOf first) (symbolOf second) equals equals =
      some [UInt8.ofNat (first * 4 + second / 16)] := by
  unfold decodeGroup
  rw [symbolValue_symbolOf isFirst, symbolValue_symbolOf isSecond]
  simp only [and_self, if_true, Option.bind_eq_bind, Option.bind_some,
    toNat_ofNat_of_lt_64, isFirst, isSecond]

end Groups

/-- The text of a string stands for that string. -/
theorem decodeText_encodeText (bytes : List UInt8) :
    decodeText (encodeText bytes) = some bytes := by
  fun_induction encodeText bytes with
  | case1 => rfl
  | case2 a =>
      have bound := a.toNat_lt
      have isByte : UInt8.ofNat (a.toNat / 4 * 4 + a.toNat % 4 * 16 / 16) = a :=
        ofNat_eq_byte (by omega)
      simp only [decodeText, List.isEmpty_nil]
      rw [decodeGroup_one (by omega) (by omega), isByte]
      rfl
  | case3 a b =>
      have boundA := a.toNat_lt
      have boundB := b.toNat_lt
      have isFirst : UInt8.ofNat
          (a.toNat / 4 * 4 + (a.toNat % 4 * 16 + b.toNat / 16) / 16) = a :=
        ofNat_eq_byte (by omega)
      have isSecond : UInt8.ofNat
          ((a.toNat % 4 * 16 + b.toNat / 16) * 16 + b.toNat % 16 * 4 / 4) = b :=
        ofNat_eq_byte (by omega)
      simp only [decodeText, List.isEmpty_nil]
      rw [decodeGroup_two (by omega) (by omega) (by omega), isFirst, isSecond]
      rfl
  | case4 a b c rest ih =>
      have boundA := a.toNat_lt
      have boundB := b.toNat_lt
      have boundC := c.toNat_lt
      have isFirst : UInt8.ofNat
          (a.toNat / 4 * 4 + (a.toNat % 4 * 16 + b.toNat / 16) / 16) = a :=
        ofNat_eq_byte (by omega)
      have isSecond : UInt8.ofNat ((a.toNat % 4 * 16 + b.toNat / 16) * 16 +
          (b.toNat % 16 * 4 + c.toNat / 64) / 4) = b :=
        ofNat_eq_byte (by omega)
      have isThird : UInt8.ofNat
          ((b.toNat % 16 * 4 + c.toNat / 64) * 64 + c.toNat % 64) = c :=
        ofNat_eq_byte (by omega)
      simp only [List.cons_append, List.nil_append, decodeText]
      rw [decodeGroup_three _ (by omega) (by omega) (by omega) (by omega), ih, isFirst,
        isSecond, isThird]
      rfl

/-! ## The code and the lists -/

/-- The bytes of a buffer from an offset on. -/
def bytesAt (buffer : Buffer) (offset : Nat) : (count : Nat) → List UInt8
  | 0 => []
  | count + 1 => buffer offset :: bytesAt buffer (offset + 1) count

@[simp] theorem length_bytesAt (buffer : Buffer) (count : Nat) :
    ∀ offset, (bytesAt buffer offset count).length = count := by
  induction count with
  | zero => exact fun _ => rfl
  | succ count ih => exact fun offset => congrArg (· + 1) (ih (offset + 1))

theorem bytesAt_four (buffer : Buffer) (offset count : Nat) :
    bytesAt buffer offset (count + 4) =
      buffer (offset + 0) :: buffer (offset + 1) :: buffer (offset + 2) ::
        buffer (offset + 3) :: bytesAt buffer (offset + 4) count :=
  rfl

theorem getElem?_bytesAt (buffer : Buffer) {index : Nat} :
    ∀ {offset count : Nat}, index < count →
      (bytesAt buffer offset count)[index]? = some (buffer (offset + index)) := by
  induction index with
  | zero =>
      intro offset count less
      cases count with
      | zero => omega
      | succ count => rfl
  | succ index ih =>
      intro offset count less
      cases count with
      | zero => omega
      | succ count =>
          have found := @ih (offset + 1) count (by omega)
          rw [show offset + 1 + index = offset + (index + 1) by omega] at found
          exact found

theorem Buffer.write_nil (buffer : Buffer) (offset : Nat) :
    buffer.write offset [] = buffer := by
  funext index
  unfold Buffer.write
  rw [if_neg (by simp only [List.length_nil]; omega)]

/-- Bytes that are written after one another. -/
theorem Buffer.write_append (buffer : Buffer) (offset : Nat) (front back : List UInt8) :
    (buffer.write offset front).write (offset + front.length) back =
      buffer.write offset (front ++ back) := by
  funext index
  simp only [Buffer.write, List.length_append, List.getD_eq_getElem?_getD]
  by_cases isBack : offset + front.length ≤ index ∧
      index < offset + front.length + back.length
  · rw [if_pos isBack, if_pos (by omega), List.getElem?_append_right (by omega)]
    congr 2
    omega
  · rw [if_neg isBack]
    by_cases isFront : offset ≤ index ∧ index < offset + front.length
    · rw [if_pos isFront, if_pos (by omega), List.getElem?_append_left (by omega)]
    · rw [if_neg isFront, if_neg (by omega)]

theorem Buffer.write_inside (buffer : Buffer) (offset : Nat) {index : Nat}
    {values : List UInt8} {value : UInt8} (found : values[index]? = some value) :
    buffer.write offset values (offset + index) = value := by
  have inside : index < values.length := (List.getElem?_eq_some_iff.mp found).1
  unfold Buffer.write
  rw [if_pos (by omega), Nat.add_sub_cancel_left, List.getD_eq_getElem?_getD, found,
    Option.getD_some]

theorem Buffer.write_after (buffer : Buffer) {offset index : Nat} {values : List UInt8}
    (after : offset + values.length ≤ index) :
    buffer.write offset values index = buffer index := by
  unfold Buffer.write
  rw [if_neg (by omega)]

/-- What was written can be read again. -/
theorem bytesAt_write (buffer : Buffer) (offset : Nat) (front back : List UInt8) :
    bytesAt (buffer.write offset (front ++ back)) offset front.length = front := by
  apply List.ext_getElem?
  intro index
  by_cases inside : index < front.length
  · have found : (front ++ back)[index]? = some front[index] := by
      rw [List.getElem?_append_left inside, List.getElem?_eq_getElem inside]
    rw [getElem?_bytesAt _ inside, buffer.write_inside offset found,
      List.getElem?_eq_getElem inside]
  · rw [List.getElem?_eq_none (by rw [length_bytesAt]; omega),
      List.getElem?_eq_none (by omega)]

/-! ### Encoding -/

theorem groupSymbol_eq {group shift : UInt32} (small : shift.toNat < 32) :
    groupSymbol group shift = symbolOf (group.toNat / 2 ^ shift.toNat % 64) := by
  unfold groupSymbol symbolAt
  rw [@toNat_field _ _ 6 small _ rfl]
  rfl

section GroupValues

variable (a b c : UInt8)

theorem toNat_group_one : (a.toUInt32 <<< 16).toNat = a.toNat * 2 ^ 16 := by
  have bound := a.toNat_lt
  rw [toNat_shiftLeft_fits (by decide) (by simp; omega), UInt8.toNat_toUInt32]
  rfl

theorem toNat_group_two :
    (a.toUInt32 <<< 16 ||| b.toUInt32 <<< 8).toNat = a.toNat * 2 ^ 16 + b.toNat * 2 ^ 8 := by
  have bound := b.toNat_lt
  have isFirst := toNat_group_one a
  have isSecond : (b.toUInt32 <<< 8).toNat = b.toNat * 2 ^ 8 := by
    rw [toNat_shiftLeft_fits (by decide) (by simp; omega), UInt8.toNat_toUInt32]
    rfl
  rw [@toNat_or_below _ _ 16 (by omega) (by omega), isFirst, isSecond]

theorem toNat_group_three :
    (a.toUInt32 <<< 16 ||| b.toUInt32 <<< 8 ||| c.toUInt32).toNat =
      a.toNat * 2 ^ 16 + b.toNat * 2 ^ 8 + c.toNat := by
  have bound := c.toNat_lt
  have isUpper := toNat_group_two a b
  rw [@toNat_or_below _ _ 8 (by omega) (by simp; omega), isUpper, UInt8.toNat_toUInt32]

/-- The symbols of a whole group. -/
theorem groupThree_symbols :
    let group := a.toUInt32 <<< 16 ||| b.toUInt32 <<< 8 ||| c.toUInt32
    [groupSymbol group 18, groupSymbol group 12, groupSymbol group 6,
        groupSymbol group 0] =
      [symbolOf (a.toNat / 4), symbolOf (a.toNat % 4 * 16 + b.toNat / 16),
        symbolOf (b.toNat % 16 * 4 + c.toNat / 64), symbolOf (c.toNat % 64)] := by
  intro group
  have boundA := a.toNat_lt
  have boundB := b.toNat_lt
  have boundC := c.toNat_lt
  have isGroup : group.toNat = a.toNat * 2 ^ 16 + b.toNat * 2 ^ 8 + c.toNat :=
    toNat_group_three a b c
  have first : group.toNat / 2 ^ 18 % 64 = a.toNat / 4 := by omega
  have second : group.toNat / 2 ^ 12 % 64 = a.toNat % 4 * 16 + b.toNat / 16 := by omega
  have third : group.toNat / 2 ^ 6 % 64 = b.toNat % 16 * 4 + c.toNat / 64 := by omega
  have fourth : group.toNat / 2 ^ 0 % 64 = c.toNat % 64 := by omega
  rw [groupSymbol_eq (by decide), groupSymbol_eq (by decide), groupSymbol_eq (by decide),
    groupSymbol_eq (by decide), ← first, ← second, ← third, ← fourth]
  rfl

/-- The symbols of a group of two bytes. -/
theorem groupTwo_symbols :
    let group := a.toUInt32 <<< 16 ||| b.toUInt32 <<< 8
    [groupSymbol group 18, groupSymbol group 12, groupSymbol group 6, equals] =
      [symbolOf (a.toNat / 4), symbolOf (a.toNat % 4 * 16 + b.toNat / 16),
        symbolOf (b.toNat % 16 * 4), equals] := by
  intro group
  have boundA := a.toNat_lt
  have boundB := b.toNat_lt
  have isGroup : group.toNat = a.toNat * 2 ^ 16 + b.toNat * 2 ^ 8 := toNat_group_two a b
  have first : group.toNat / 2 ^ 18 % 64 = a.toNat / 4 := by omega
  have second : group.toNat / 2 ^ 12 % 64 = a.toNat % 4 * 16 + b.toNat / 16 := by omega
  have third : group.toNat / 2 ^ 6 % 64 = b.toNat % 16 * 4 := by omega
  rw [groupSymbol_eq (by decide), groupSymbol_eq (by decide), groupSymbol_eq (by decide),
    ← first, ← second, ← third]
  rfl

/-- The symbols of a group of one byte. -/
theorem groupOne_symbols :
    let group := a.toUInt32 <<< 16
    [groupSymbol group 18, groupSymbol group 12, equals, equals] =
      [symbolOf (a.toNat / 4), symbolOf (a.toNat % 4 * 16), equals, equals] := by
  intro group
  have boundA := a.toNat_lt
  have isGroup : group.toNat = a.toNat * 2 ^ 16 := toNat_group_one a
  have first : group.toNat / 2 ^ 18 % 64 = a.toNat / 4 := by omega
  have second : group.toNat / 2 ^ 12 % 64 = a.toNat % 4 * 16 := by omega
  rw [groupSymbol_eq (by decide), groupSymbol_eq (by decide), ← first, ← second]
  rfl

end GroupValues

theorem toNat_add_of_lt {left right : UInt32} (fits : left.toNat + right.toNat < 2 ^ 32) :
    (left + right).toNat = left.toNat + right.toNat := by
  rw [UInt32.toNat_add, Nat.mod_eq_of_lt fits]

/-- The loop and the last group write the text of the bytes that are left. -/
theorem encodeRest_encodeLoop (input : Buffer) (size : UInt32) (remaining : Nat) :
    ∀ (i written : UInt32) (output : Buffer), i.toNat + remaining = size.toNat →
      written.toNat + (remaining + 2) / 3 * 4 < 2 ^ 32 →
      encodeRest input size (encodeLoop input size i written output).1
          (encodeLoop input size i written output).2.1
          (encodeLoop input size i written output).2.2 =
        (UInt32.ofNat (written.toNat + (remaining + 2) / 3 * 4),
          output.write written.toNat
            (encodeText (bytesAt input i.toNat remaining))) := by
  induction remaining using Nat.strongRecOn with
  | ind remaining ih =>
    intro i written output isSize fits
    have sizeBound := size.toNat_lt
    have difference : (size - i).toNat = remaining := by
      rw [UInt32.toNat_sub_of_le _ _ (UInt32.le_iff_toNat_le.mpr (by omega))]
      omega
    have one : (1 : UInt32).toNat = 1 := rfl
    have two : (2 : UInt32).toNat = 2 := rfl
    have three : (3 : UInt32).toNat = 3 := rfl
    have four : (4 : UInt32).toNat = 4 := rfl
    by_cases enough : 3 ≤ remaining
    · have isEnough : 3 ≤ size - i := by
        rw [UInt32.le_iff_toNat_le, difference]
        exact enough
      have isOne : (i + 1).toNat = i.toNat + 1 := toNat_add_of_lt (by omega)
      have isTwo : (i + 2).toNat = i.toNat + 2 := toNat_add_of_lt (by omega)
      have isThree : (i + 3).toNat = i.toNat + 3 := toNat_add_of_lt (by omega)
      have isWritten : (written + 4).toNat = written.toNat + 4 :=
        toNat_add_of_lt (by omega)
      rcases Nat.exists_eq_add_of_le' enough with ⟨rest, isRest⟩
      subst isRest
      rw [encodeLoop, if_pos isEnough, isOne, isTwo]
      dsimp only
      rw [ih rest (by omega) (i + 3) (written + 4) _ (by omega) (by omega), isThree,
        isWritten, groupThree_symbols]
      simp only [bytesAt, encodeText]
      rw [← Buffer.write_append]
      congr 2
      omega
    · have notEnough : ¬ 3 ≤ size - i := by
        rw [UInt32.le_iff_toNat_le, difference]
        exact enough
      have isWritten : remaining ≠ 0 →
          written + 4 = UInt32.ofNat (written.toNat + 4) := by
        intro some
        apply UInt32.toNat_inj.mp
        rw [toNat_add_of_lt (by omega), UInt32.toNat_ofNat_of_lt' (by
          rw [show UInt32.size = 2 ^ 32 from rfl]; omega), four]
      rw [encodeLoop, if_neg notEnough]
      unfold encodeRest
      have cases : remaining = 0 ∨ remaining = 1 ∨ remaining = 2 := by omega
      rcases cases with isZero | isOne | isTwo
      · have notOne : size - i ≠ 1 := by
          intro same
          rw [same] at difference
          omega
        have notTwo : size - i ≠ 2 := by
          intro same
          rw [same] at difference
          omega
        subst isZero
        rw [if_neg notOne, if_neg notTwo]
        simp only [bytesAt, encodeText, Buffer.write_nil, Nat.zero_add, Nat.add_zero,
          Nat.reduceDiv, Nat.zero_mul, UInt32.ofNat_toNat]
      · have same : size - i = 1 := UInt32.toNat_inj.mp (difference.trans isOne)
        subst isOne
        dsimp only
        rw [if_pos same, groupOne_symbols, isWritten (by decide)]
        rfl
      · have same : size - i = 2 := UInt32.toNat_inj.mp (difference.trans isTwo)
        have next : (i + 1).toNat = i.toNat + 1 := toNat_add_of_lt (by omega)
        subst isTwo
        dsimp only
        rw [same, if_neg (by decide), if_pos rfl, groupTwo_symbols,
          isWritten (by decide), next]
        rfl

/-- The text of the bytes is written, and a zero after it. -/
theorem base64Encode_eq (input : Buffer) (size : UInt32) (output : Buffer)
    (small : size.toNat ≤ 3221225469) :
    base64Encode input size output =
      (UInt32.ofNat (encodeText (bytesAt input 0 size.toNat)).length,
        output.write 0 (encodeText (bytesAt input 0 size.toNat) ++ [0])) := by
  have found := encodeRest_encodeLoop input size size.toNat 0 0 output
    (Nat.zero_add _) (by simp; omega)
  unfold base64Encode
  dsimp only
  rw [found, length_encodeText, length_bytesAt]
  have isLength : (UInt32.ofNat ((size.toNat + 2) / 3 * 4)).toNat =
      (size.toNat + 2) / 3 * 4 :=
    UInt32.toNat_ofNat_of_lt' (by rw [show UInt32.size = 2 ^ 32 from rfl]; omega)
  simp only [UInt32.toNat_zero, Nat.zero_add]
  rw [isLength, ← Buffer.write_append, length_encodeText, length_bytesAt, Nat.zero_add]

/-! ### Decoding -/

theorem symbolValue_lt {symbol : UInt8} {value : UInt32}
    (isValue : symbolValue symbol = some value) : value.toNat < 64 := by
  have all : ∀ number : Fin 256,
      (symbolValue (UInt8.ofNat number)).all (fun value => decide (value.toNat < 64)) = true := by
    decide +kernel
  have isSymbol : UInt8.ofNat symbol.toNat = symbol := UInt8.ofNat_toNat
  have here := all ⟨symbol.toNat, symbol.toNat_lt⟩
  simp only [isSymbol, isValue, Option.all_some, decide_eq_true_iff] at here
  exact here

/-- The word that is put together from four values. -/
theorem toNat_joinValues {first second third fourth : UInt32}
    (isFirst : first.toNat < 64) (isSecond : second.toNat < 64)
    (isThird : third.toNat < 64) (isFourth : fourth.toNat < 64) :
    (first <<< 18 ||| second <<< 12 ||| third <<< 6 ||| fourth).toNat =
      first.toNat * 2 ^ 18 + second.toNat * 2 ^ 12 + third.toNat * 2 ^ 6 +
        fourth.toNat := by
  have shift18 : (first <<< 18).toNat = first.toNat * 2 ^ 18 :=
    toNat_shiftLeft_fits (by decide) (by simp; omega)
  have shift12 : (second <<< 12).toNat = second.toNat * 2 ^ 12 :=
    toNat_shiftLeft_fits (by decide) (by simp; omega)
  have shift6 : (third <<< 6).toNat = third.toNat * 2 ^ 6 :=
    toNat_shiftLeft_fits (by decide) (by simp; omega)
  have upper : (first <<< 18 ||| second <<< 12).toNat =
      first.toNat * 2 ^ 18 + second.toNat * 2 ^ 12 := by
    rw [@toNat_or_below _ _ 18 (by omega) (by omega), shift18, shift12]
  have middle : (first <<< 18 ||| second <<< 12 ||| third <<< 6).toNat =
      first.toNat * 2 ^ 18 + second.toNat * 2 ^ 12 + third.toNat * 2 ^ 6 := by
    rw [@toNat_or_below _ _ 12 (by omega) (by omega), upper, shift6]
  rw [@toNat_or_below _ _ 6 (by omega) (by omega), middle]

theorem toUInt8_shiftRight {group shift : UInt32} (small : shift.toNat < 32) :
    (group >>> shift).toUInt8 = UInt8.ofNat (group.toNat / 2 ^ shift.toNat) := by
  apply UInt8.toNat_inj.mp
  rw [UInt32.toNat_toUInt8, UInt32.toNat_shiftRight, Nat.mod_eq_of_lt small,
    Nat.shiftRight_eq_div_pow, UInt8.toNat_ofNat']

theorem ofNat_congr {left right : Nat} (same : left % 256 = right % 256) :
    UInt8.ofNat left = UInt8.ofNat right := by
  apply UInt8.toNat_inj.mp
  rw [UInt8.toNat_ofNat', UInt8.toNat_ofNat']
  exact same

/-- The bytes of four values. -/
theorem groupBytes_eq {first second third fourth : UInt32} (padding : Nat)
    (isFirst : first.toNat < 64) (isSecond : second.toNat < 64)
    (isThird : third.toNat < 64) (isFourth : fourth.toNat < 64) :
    groupBytes padding [first, second, third, fourth] =
      [UInt8.ofNat (first.toNat * 4 + second.toNat / 16)] ++
        (if padding < 2 then [UInt8.ofNat (second.toNat * 16 + third.toNat / 4)]
        else []) ++
        (if padding < 1 then [UInt8.ofNat (third.toNat * 64 + fourth.toNat)]
        else []) := by
  have isGroup := toNat_joinValues isFirst isSecond isThird isFourth
  have last : ∀ group : UInt32, group.toUInt8 = UInt8.ofNat group.toNat := by
    intro group
    apply UInt8.toNat_inj.mp
    rw [UInt32.toNat_toUInt8, UInt8.toNat_ofNat']
  unfold groupBytes
  simp only [List.getD_cons_zero, List.getD_cons_succ]
  rw [toUInt8_shiftRight (by decide), toUInt8_shiftRight (by decide), last, isGroup]
  have isHigh : UInt8.ofNat ((first.toNat * 2 ^ 18 + second.toNat * 2 ^ 12 +
      third.toNat * 2 ^ 6 + fourth.toNat) / 2 ^ (16 : UInt32).toNat) =
      UInt8.ofNat (first.toNat * 4 + second.toNat / 16) := by
    apply ofNat_congr
    change _ / 2 ^ 16 % 256 = _
    omega
  have isMiddle : UInt8.ofNat ((first.toNat * 2 ^ 18 + second.toNat * 2 ^ 12 +
      third.toNat * 2 ^ 6 + fourth.toNat) / 2 ^ (8 : UInt32).toNat) =
      UInt8.ofNat (second.toNat * 16 + third.toNat / 4) := by
    apply ofNat_congr
    change _ / 2 ^ 8 % 256 = _
    omega
  have isLow : UInt8.ofNat (first.toNat * 2 ^ 18 + second.toNat * 2 ^ 12 +
      third.toNat * 2 ^ 6 + fourth.toNat) =
      UInt8.ofNat (third.toNat * 64 + fourth.toNat) := ofNat_congr (by omega)
  rw [isHigh, isMiddle, isLow]

section Symbols

variable {input : Buffer} {length i : UInt32} {rounds j padding : Nat}
variable {values : List UInt32}

theorem groupLoop_equals (isEquals : input (i + UInt32.ofNat j).toNat = equals) :
    groupLoop input length i (rounds + 1) j padding values =
      if i + 4 ≠ length ∨ j < 2 then none
      else groupLoop input length i rounds (j + 1) (padding + 1) (values ++ [0]) := by
  rw [groupLoop]
  exact if_pos isEquals

theorem groupLoop_symbol (noEquals : input (i + UInt32.ofNat j).toNat ≠ equals) :
    groupLoop input length i (rounds + 1) j padding values =
      if padding ≠ 0 then none
      else (symbolValue (input (i + UInt32.ofNat j).toNat)).bind fun value =>
        groupLoop input length i rounds (j + 1) padding (values ++ [value]) := by
  rw [groupLoop, if_neg noEquals]
  cases symbolValue (input (i + UInt32.ofNat j).toNat) with
  | none => rfl
  | some value => rfl

end Symbols

theorem symbolValue_equals : symbolValue equals = none := rfl

/-- The loop over the symbols of a group finds its bytes. -/
theorem groupLoop_bytes (input : Buffer) (length i : UInt32) :
    (groupLoop input length i 4 0 0 []).map (fun found => groupBytes found.1 found.2) =
      decodeGroup (i + 4 = length) (input (i + UInt32.ofNat 0).toNat)
        (input (i + UInt32.ofNat 1).toNat) (input (i + UInt32.ofNat 2).toNat)
        (input (i + UInt32.ofNat 3).toNat) := by
  unfold decodeGroup
  by_cases equalsA : input (i + UInt32.ofNat 0).toNat = equals
  · rw [groupLoop_equals equalsA, if_pos (Or.inr (by decide)), equalsA]
    rfl
  rw [groupLoop_symbol equalsA, if_neg (by decide)]
  cases isFirst : symbolValue (input (i + UInt32.ofNat 0).toNat) with
  | none => rfl
  | some first =>
  rw [Option.bind_some]
  by_cases equalsB : input (i + UInt32.ofNat 1).toNat = equals
  · rw [groupLoop_equals equalsB, if_pos (Or.inr (by decide)), equalsB]
    rfl
  rw [groupLoop_symbol equalsB, if_neg (by decide)]
  cases isSecond : symbolValue (input (i + UInt32.ofNat 1).toNat) with
  | none => rfl
  | some second =>
  have boundFirst := symbolValue_lt isFirst
  have boundSecond := symbolValue_lt isSecond
  have boundZero : (0 : UInt32).toNat < 64 := by decide
  simp only [Option.bind_eq_bind, Option.bind_some, List.nil_append, List.cons_append]
  by_cases equalsC : input (i + UInt32.ofNat 2).toNat = equals
  · rw [groupLoop_equals equalsC, equalsC, symbolValue_equals]
    by_cases isLast : i + 4 = length
    · rw [if_neg (by simp [isLast])]
      by_cases equalsD : input (i + UInt32.ofNat 3).toNat = equals
      · rw [groupLoop_equals equalsD, if_neg (by simp [isLast]), groupLoop]
        simp only [isLast, equalsD, List.cons_append, List.nil_append, Option.map_some,
          groupBytes_eq _ boundFirst boundSecond boundZero boundZero]
        rfl
      · rw [groupLoop_symbol equalsD, if_pos (by decide)]
        simp only [equalsD, and_false, if_false, Option.bind_none, Option.map_none]
    · rw [if_pos (Or.inl isLast)]
      simp [isLast]
  rw [groupLoop_symbol equalsC, if_neg (by decide)]
  cases isThird : symbolValue (input (i + UInt32.ofNat 2).toNat) with
  | none =>
      simp only [equalsC, if_false, ite_self, Option.bind_none, Option.map_none]
  | some third =>
  have boundThird := symbolValue_lt isThird
  simp only [Option.bind_some, List.cons_append, List.nil_append]
  by_cases equalsD : input (i + UInt32.ofNat 3).toNat = equals
  · rw [groupLoop_equals equalsD, equalsD, symbolValue_equals]
    by_cases isLast : i + 4 = length
    · rw [if_neg (by simp [isLast]), groupLoop]
      simp only [isLast, equalsC, List.cons_append, List.nil_append, Option.map_some,
        groupBytes_eq _ boundFirst boundSecond boundThird boundZero]
      rfl
    · rw [if_pos (Or.inl isLast)]
      simp [isLast]
  rw [groupLoop_symbol equalsD, if_neg (by decide)]
  cases isFourth : symbolValue (input (i + UInt32.ofNat 3).toNat) with
  | none =>
      simp only [equalsD, and_false, if_false, Option.bind_none, Option.map_none]
  | some fourth =>
  have boundFourth := symbolValue_lt isFourth
  simp only [Option.bind_some, List.cons_append, List.nil_append, groupLoop,
    Option.map_some, equalsD, and_false, if_false,
    groupBytes_eq _ boundFirst boundSecond boundThird boundFourth]
  rfl

/-- The bytes of a group are at most three. -/
theorem decodeGroup_length {isLast : Bool} {a b c d : UInt8} {bytes : List UInt8}
    (isGroup : decodeGroup isLast a b c d = some bytes) : bytes.length ≤ 3 := by
  unfold decodeGroup at isGroup
  cases isFirst : symbolValue a with
  | none => simp [isFirst] at isGroup
  | some first =>
  cases isSecond : symbolValue b with
  | none => simp [isFirst, isSecond] at isGroup
  | some second =>
  simp only [isFirst, isSecond, Option.bind_eq_bind, Option.bind_some] at isGroup
  split at isGroup
  · split at isGroup
    · cases isGroup
      simp
    · cases isThird : symbolValue c with
      | none => simp [isThird] at isGroup
      | some third =>
          simp only [isThird, Option.bind_some] at isGroup
          cases isGroup
          simp
  · cases isThird : symbolValue c with
    | none => simp [isThird] at isGroup
    | some third =>
        cases isFourth : symbolValue d with
        | none => simp [isThird, isFourth] at isGroup
        | some fourth =>
            simp only [isThird, isFourth, Option.bind_some] at isGroup
            cases isGroup
            simp

/-- The loop over the groups decodes the text that is left, and fails where there are
no such bytes. -/
def Decodes (outcome : Checked Buffer (UInt32 × Buffer)) (written : Nat)
    (output : Buffer) : Option (List UInt8) → Prop
  | none => ∃ left, outcome = .failed left
  | some bytes => outcome =
      .done (UInt32.ofNat (written + bytes.length), output.write written bytes)

theorem decodeLoop_eq (input : Buffer) (length : UInt32) (groups : Nat) :
    ∀ (rounds : Nat) (i written : UInt32) (output : Buffer), groups < rounds →
      i.toNat + 4 * groups = length.toNat → written.toNat + 3 * groups < 2 ^ 32 →
      Decodes (decodeLoop input length rounds i written output) written.toNat output
        (decodeText (bytesAt input i.toNat (4 * groups))) := by
  induction groups with
  | zero =>
      intro rounds i written output enough isLength fits
      cases rounds with
      | zero => omega
      | succ rounds =>
          have notLess : ¬ i < length := by
            rw [UInt32.lt_iff_toNat_lt]
            omega
          simp only [bytesAt, decodeText, Decodes, decodeLoop,
            if_neg notLess, List.length_nil, Nat.add_zero, UInt32.ofNat_toNat,
            Buffer.write_nil]
  | succ groups ih =>
      intro rounds i written output enough isLength fits
      cases rounds with
      | zero => omega
      | succ rounds =>
          have lengthBound := length.toNat_lt
          have isLess : i < length := by
            rw [UInt32.lt_iff_toNat_lt]
            omega
          have indexOf : ∀ j, j ≤ 4 → (i + UInt32.ofNat j).toNat = i.toNat + j := by
            intro j small
            have isJ : (UInt32.ofNat j).toNat = j :=
              UInt32.toNat_ofNat_of_lt' (Nat.lt_of_le_of_lt small (by decide))
            rw [toNat_add_of_lt (by omega), isJ]
          have isNext : (i + 4).toNat = i.toNat + 4 := indexOf 4 (by decide)
          have isLast : decide (i + 4 = length) =
              (bytesAt input (i.toNat + 4) (4 * groups)).isEmpty := by
            rw [Bool.eq_iff_iff, decide_eq_true_iff, List.isEmpty_iff_length_eq_zero,
              length_bytesAt, ← UInt32.toNat_inj, isNext]
            omega
          have group := groupLoop_bytes input length i
          rw [indexOf 0 (by decide), indexOf 1 (by decide), indexOf 2 (by decide),
            indexOf 3 (by decide), isLast] at group
          rw [show 4 * (groups + 1) = 4 * groups + 4 by omega, bytesAt_four]
          simp only [decodeText, decodeLoop, if_pos isLess]
          rw [← group]
          cases isFound : groupLoop input length i 4 0 0 [] with
          | none => exact ⟨output, rfl⟩
          | some found =>
              rw [isFound] at group
              have atMost : (groupBytes found.1 found.2).length ≤ 3 :=
                decodeGroup_length group.symm
              have isSize : (UInt32.ofNat (groupBytes found.1 found.2).length).toNat =
                  (groupBytes found.1 found.2).length :=
                UInt32.toNat_ofNat_of_lt' (Nat.lt_of_le_of_lt atMost (by decide))
              have isWritten :
                  (written + UInt32.ofNat (groupBytes found.1 found.2).length).toNat =
                    written.toNat + (groupBytes found.1 found.2).length := by
                rw [toNat_add_of_lt (by omega), isSize]
              have rest := ih rounds (i + 4)
                (written + UInt32.ofNat (groupBytes found.1 found.2).length)
                (output.write written.toNat (groupBytes found.1 found.2)) (by omega)
                (by omega) (by omega)
              rw [isNext, isWritten] at rest
              simp only [Option.map_some, Option.bind_eq_bind, Option.bind_some]
              cases isRest : decodeText (bytesAt input (i.toNat + 4) (4 * groups)) with
              | none =>
                  rw [isRest] at rest
                  exact rest
              | some others =>
                  rw [isRest] at rest
                  simp only [Decodes] at rest
                  simp only [Option.bind_some, Decodes]
                  rw [rest, Buffer.write_append, List.length_append, Nat.add_assoc]

theorem base64Decode_eq (input : Buffer) (length : UInt32) (output : Buffer)
    (whole : length % 4 = 0) :
    Decodes (base64Decode input length output) 0 output
      (decodeText (bytesAt input 0 length.toNat)) := by
  have bound := length.toNat_lt
  have isWhole : length.toNat % 4 = 0 := by
    have same := congrArg UInt32.toNat whole
    rw [UInt32.toNat_mod] at same
    exact same
  unfold base64Decode
  rw [if_neg (by simp [whole])]
  have decoded := decodeLoop_eq input length (length.toNat / 4) (length.toNat / 4 + 1) 0 0
    output (by omega) (by simp; omega) (by simp; omega)
  rw [show 4 * (length.toNat / 4) = length.toNat by omega] at decoded
  exact decoded

theorem toNat_base64EncodedSize {size : UInt32} (small : size.toNat ≤ 3221225469) :
    (base64EncodedSize size).toNat = (size.toNat + 2) / 3 * 4 := by
  have isSum : (size + 2).toNat = size.toNat + 2 := toNat_add_of_lt (by simp; omega)
  unfold base64EncodedSize
  rw [UInt32.toNat_mul, UInt32.toNat_div, isSum]
  exact Nat.mod_eq_of_lt (by simp; omega)

theorem toNat_base64DecodedSize (length : UInt32) :
    (base64DecodedSize length).toNat = length.toNat / 4 * 3 := by
  have bound := length.toNat_lt
  unfold base64DecodedSize
  rw [UInt32.toNat_mul, UInt32.toNat_div]
  exact Nat.mod_eq_of_lt (by simp; omega)

/-- The text that was written is decoded to the bytes it was made of. -/
theorem base64_roundTrip (data : Buffer) (size : UInt32) (small : size ≤ 3221225469)
    (text bytes : Buffer) :
    ∃ length encoded decoded,
      base64Encode data size text = (length, encoded) ∧
      length = base64EncodedSize size ∧
      length.toNat = (size.toNat + 2) / 3 * 4 ∧
      (∀ index, index < length.toNat → encoded index ∈ equals :: alphabet) ∧
      encoded length.toNat = 0 ∧
      (∀ index, length.toNat < index → encoded index = text index) ∧
      base64Decode encoded length bytes = .done (size, decoded) ∧
      size ≤ base64DecodedSize length ∧
      (∀ index, index < size.toNat → decoded index = data index) ∧
      (∀ index, size.toNat ≤ index → decoded index = bytes index) := by
  have isSmall : size.toNat ≤ 3221225469 := UInt32.le_iff_toNat_le.mp small
  have isSize := toNat_base64EncodedSize isSmall
  have encoding := base64Encode_eq data size text isSmall
  have symbols := encodeText_mem (bytesAt data 0 size.toNat)
  have isLength := length_encodeText (bytesAt data 0 size.toNat)
  have decoding := decodeText_encodeText (bytesAt data 0 size.toNat)
  rw [length_bytesAt] at isLength
  rw [isLength, ← isSize, UInt32.ofNat_toNat] at encoding
  generalize isText : encodeText (bytesAt data 0 size.toNat) = symbolList at *
  have whole : base64EncodedSize size % 4 = 0 := by
    apply UInt32.toNat_inj.mp
    rw [UInt32.toNat_mod, isSize]
    exact Nat.mul_mod_left _ _
  have decoded := base64Decode_eq (text.write 0 (symbolList ++ [0]))
    (base64EncodedSize size) bytes whole
  rw [isSize, ← isLength, bytesAt_write, decoding] at decoded
  simp only [Decodes, Nat.zero_add, length_bytesAt, UInt32.ofNat_toNat] at decoded
  refine ⟨base64EncodedSize size, text.write 0 (symbolList ++ [0]),
    bytes.write 0 (bytesAt data 0 size.toNat), encoding, rfl, isSize, ?_, ?_, ?_, decoded,
    ?_, ?_, ?_⟩
  · intro index inside
    rw [isSize, ← isLength] at inside
    have found : (symbolList ++ [0])[index]? = some symbolList[index] := by
      rw [List.getElem?_append_left inside, List.getElem?_eq_getElem inside]
    have isSymbol := text.write_inside 0 found
    rw [Nat.zero_add] at isSymbol
    rw [isSymbol]
    exact symbols _ (List.getElem_mem inside)
  · rw [isSize, ← isLength]
    have found : (symbolList ++ [0])[symbolList.length]? = some 0 := by
      rw [List.getElem?_append_right (Nat.le_refl _), Nat.sub_self]
      rfl
    have isZero := text.write_inside 0 found
    rw [Nat.zero_add] at isZero
    exact isZero
  · intro index after
    rw [isSize, ← isLength] at after
    exact text.write_after (by simp only [List.length_append, List.length_singleton]; omega)
  · rw [UInt32.le_iff_toNat_le, toNat_base64DecodedSize, isSize]
    omega
  · intro index inside
    have found : (bytesAt data 0 size.toNat)[index]? = some (data (0 + index)) :=
      getElem?_bytesAt data inside
    have isByte := bytes.write_inside 0 found
    rw [Nat.zero_add] at isByte
    exact isByte
  · intro index after
    exact bytes.write_after (by rw [length_bytesAt]; omega)

theorem base64_roundTrip_four :
    ∃ decoded, base64Decode (base64Encode (fun _ => 0x4d) 4 fun _ => 0).2 8
      (fun _ => 0) = .done (4, decoded) ∧ decoded 3 = 0x4d := by
  rcases base64_roundTrip (fun _ => 0x4d) 4 (by decide) (fun _ => 0) (fun _ => 0) with
    ⟨length, encoded, decoded, encoding, isLength, _, _, _, _, decoding, _, same, _⟩
  have isEight : length = 8 := isLength
  rw [isEight] at encoding decoding
  rw [encoding]
  exact ⟨decoded, decoding, same 3 (by decide)⟩

end Katela.Crypto.Base64
