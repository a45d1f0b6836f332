import Katela.Foundation.BlockHash
import Katela.Foundation.Words

/-! # Hashing a message in pieces

`sha1.c` and `sha256.c` differ in their states and block functions only. Their
contexts, their update functions and the padding in their final functions are
the same text; here they have the state and the block function as
parameters. -/

namespace Katela.Crypto

def blockSize : Nat := 64

/-- `struct sha1_context` and `struct sha256_context`. -/
structure HashContext (σ : Type) where
  state : σ
  bytesLow : UInt32
  bytesHigh : UInt32
  bufferLength : Nat
  buffer : Block 64

section Model

variable {σ : Type} (transform : σ → Block 64 → σ)

/-- The loop of an update function; every round takes a byte at least. -/
def updateLoop : (rounds : Nat) → HashContext σ → List UInt8 → HashContext σ
  | 0, context, _ => context
  | rounds + 1, context, bytes =>
      if bytes.length > 0 then
        if context.bufferLength = 0 ∧ bytes.length ≥ blockSize then
          updateLoop rounds
            { context with state := transform context.state (.ofList bytes) }
            (bytes.drop blockSize)
        else
          let space := blockSize - context.bufferLength
          let chunk := if bytes.length < space then bytes.length else space
          let context :=
            { context with
              buffer := context.buffer.copyInto context.bufferLength chunk
                fun index => bytes.getD index 0
              bufferLength := context.bufferLength + chunk }
          let bytes := bytes.drop chunk
          if context.bufferLength = blockSize then
            updateLoop rounds
              { context with
                state := transform context.state context.buffer
                bufferLength := 0 }
              bytes
          else updateLoop rounds context bytes
      else context

/-- An update function. The size of the data is an `unsigned int`. -/
def update (context : HashContext σ) (bytes : List UInt8) : HashContext σ :=
  let low := context.bytesLow + UInt32.ofNat bytes.length
  updateLoop transform bytes.length
    { context with
      bytesLow := low
      bytesHigh :=
        if low < context.bytesLow then context.bytesHigh + 1
        else context.bytesHigh }
    bytes

/-- `store_big_endian`: the four bytes it stores. -/
def storeBigEndian (value : UInt32) : List UInt8 :=
  [(value >>> 24).toUInt8, (value >>> 16).toUInt8, (value >>> 8).toUInt8,
    value.toUInt8]

/-- The part of a final function before the digest is stored. -/
def lastBlocks (context : HashContext σ) : σ :=
  let bitsHigh := context.bytesHigh <<< 3 ||| context.bytesLow >>> 29
  let bitsLow := context.bytesLow <<< 3
  let buffer := context.buffer.copyInto context.bufferLength 1 fun _ => 0x80
  let length := context.bufferLength + 1
  let context :=
    if length > 56 then
      { context with
        buffer := buffer.copyInto length (blockSize - length) fun _ => 0
        bufferLength := 0
        state := transform context.state
          (buffer.copyInto length (blockSize - length) fun _ => 0) }
    else { context with buffer := buffer, bufferLength := length }
  let buffer :=
    context.buffer.copyInto context.bufferLength (56 - context.bufferLength)
      fun _ => 0
  let buffer := buffer.copyInto 56 4 fun index =>
    (storeBigEndian bitsHigh).getD index 0
  let buffer := buffer.copyInto 60 4 fun index =>
    (storeBigEndian bitsLow).getD index 0
  transform context.state buffer

end Model

/-! ## What a context stands for -/

section Invariant

variable {σ : Type} {transform : σ → Block 64 → σ} {start : σ}
variable {context : HashContext σ} {message : List UInt8}

/-- The message so far is hashed up to its last incomplete block, which is in
the buffer. -/
structure Buffered (transform : σ → Block 64 → σ) (start : σ)
    (context : HashContext σ) (message front back : List UInt8) : Prop where
  split : message = front ++ back
  whole : front.length % 64 = 0
  length : context.bufferLength = back.length
  short : back.length < 64
  state : context.state = hashBlocks transform start front
  stored : ∀ index, index < back.length →
    context.buffer.byteAt index = back.getD index 0

/-- The context after the update functions were given a message. -/
structure Represents (transform : σ → Block 64 → σ) (start : σ)
    (context : HashContext σ) (message : List UInt8) : Prop where
  buffered : ∃ front back, Buffered transform start context message front back
  count : context.bytesHigh.toNat * 2 ^ 32 + context.bytesLow.toNat =
    message.length % 2 ^ 64

theorem hashBlocks_whole {front back : List UInt8}
    (whole : front.length % 64 = 0) :
    hashBlocks transform start (front ++ back) =
      hashBlocks transform (hashBlocks transform start front) back :=
  hashBlocks_append transform (by decide) (show front.length =
    front.length / 64 * 64 by omega)

/-- A block whose bytes are those of a list. -/
theorem eq_ofList {block : Block 64} {bytes : List UInt8}
    (same : ∀ index, index < 64 → block.byteAt index = bytes.getD index 0) :
    block = Block.ofList bytes := by
  funext index
  have here := same index.val index.isLt
  simp only [Block.byteAt, index.isLt, dif_pos] at here
  exact here

/-- A block that comes directly from the data. -/
theorem Buffered.direct {front bytes : List UInt8}
    (buffered : Buffered transform start context message front [])
    (enough : 64 ≤ bytes.length) :
    Buffered transform start
      { context with state := transform context.state (.ofList bytes) }
      (message ++ bytes.take 64) (front ++ bytes.take 64) [] where
  split := by
    rw [buffered.split, List.append_nil, List.append_nil]
  whole := by
    have whole := buffered.whole
    rw [List.length_append, List.length_take]
    omega
  length := buffered.length
  short := buffered.short
  state := by
    have taken : (bytes.take 64).length = 64 := by
      rw [List.length_take]
      omega
    have same : (Block.ofList bytes : Block 64) = Block.ofList (bytes.take 64) := by
      have append : (Block.ofList (bytes.take 64 ++ bytes.drop 64) : Block 64) =
          Block.ofList (bytes.take 64) := Block.ofList_append (by omega)
      rw [List.take_append_drop] at append
      exact append
    rw [hashBlocks_whole buffered.whole, hashBlocks_block transform (by decide) taken,
      ← buffered.state, same]
  stored := buffered.stored

/-- Bytes that fit the buffer. -/
theorem Buffered.copied {front back bytes : List UInt8} {chunk : Nat}
    (buffered : Buffered transform start context message front back)
    (enough : chunk ≤ bytes.length) (fits : back.length + chunk ≤ 64) :
    ∀ index, index < (back ++ bytes.take chunk).length →
      (context.buffer.copyInto context.bufferLength chunk
        fun index => bytes.getD index 0).byteAt index =
        (back ++ bytes.take chunk).getD index 0 := by
  intro index less
  rw [List.length_append, List.length_take] at less
  rw [buffered.length]
  simp only [List.getD_eq_getElem?_getD]
  by_cases old : index < back.length
  · rw [Block.byteAt_copyInto_outside (Or.inl old), buffered.stored index old,
      List.getElem?_append_left old, List.getD_eq_getElem?_getD]
  · rw [Block.byteAt_copyInto_inside (by omega) (by omega) (by omega),
      List.getElem?_append_right (by omega), List.getElem?_take_of_lt (by omega)]

theorem Buffered.update (rounds : Nat) :
    ∀ {context : HashContext σ} {message front back : List UInt8}
      (bytes : List UInt8), Buffered transform start context message front back →
      bytes.length ≤ rounds →
      (∃ front' back', Buffered transform start
        (updateLoop transform rounds context bytes) (message ++ bytes) front'
        back') ∧
      (updateLoop transform rounds context bytes).bytesLow = context.bytesLow ∧
      (updateLoop transform rounds context bytes).bytesHigh = context.bytesHigh := by
  induction rounds with
  | zero =>
      intro context message front back bytes buffered enough
      rw [List.length_eq_zero_iff.mp (Nat.le_zero.mp enough), List.append_nil]
      exact ⟨⟨front, back, buffered⟩, rfl, rfl⟩
  | succ rounds induction =>
      intro context message front back bytes buffered enough
      have isLength := buffered.length
      have short := buffered.short
      have size : blockSize = 64 := rfl
      unfold updateLoop
      by_cases none : bytes.length > 0
      · rw [if_pos none]
        by_cases direct : context.bufferLength = 0 ∧ bytes.length ≥ blockSize
        · rw [if_pos direct]
          have empty : back = [] := List.length_eq_zero_iff.mp (by omega)
          subst empty
          have step := induction (bytes.drop blockSize) (buffered.direct direct.2)
            (by rw [List.length_drop]; omega)
          rw [List.append_assoc, size, List.take_append_drop] at step
          exact step
        · rw [if_neg direct]
          simp only []
          generalize isChunk : (if bytes.length < blockSize - context.bufferLength
            then bytes.length else blockSize - context.bufferLength) = chunk
          have bounds : chunk ≤ bytes.length ∧ back.length + chunk ≤ 64 ∧
              0 < chunk := by
            split at isChunk <;> omega
          have taken : (bytes.take chunk).length = chunk := by
            rw [List.length_take]
            omega
          have copied := buffered.copied bounds.1 bounds.2.1
          have less : (bytes.drop chunk).length ≤ rounds := by
            rw [List.length_drop]
            omega
          by_cases full : context.bufferLength + chunk = blockSize
          · rw [if_pos full]
            have next : Buffered transform start
                { context with
                  state := transform context.state
                    (context.buffer.copyInto context.bufferLength chunk
                      fun index => bytes.getD index 0)
                  buffer := context.buffer.copyInto context.bufferLength chunk
                    fun index => bytes.getD index 0
                  bufferLength := 0 }
                (message ++ bytes.take chunk) (front ++ (back ++ bytes.take chunk))
                [] := by
              have length : (back ++ bytes.take chunk).length = 64 := by
                rw [List.length_append]
                omega
              refine ⟨?_, ?_, rfl, by decide, ?_, fun _ impossible =>
                absurd impossible (Nat.not_lt_zero _)⟩
              · rw [buffered.split, List.append_nil, List.append_assoc]
              · have whole := buffered.whole
                rw [List.length_append]
                omega
              · rw [length] at copied
                rw [hashBlocks_whole buffered.whole,
                  hashBlocks_block transform (by decide) length, ← buffered.state,
                  ← eq_ofList copied]
            have step := induction (bytes.drop chunk) next less
            rw [List.append_assoc, List.take_append_drop] at step
            exact step
          · rw [if_neg full]
            have next : Buffered transform start
                { context with
                  buffer := context.buffer.copyInto context.bufferLength chunk
                    fun index => bytes.getD index 0
                  bufferLength := context.bufferLength + chunk }
                (message ++ bytes.take chunk) front (back ++ bytes.take chunk) := by
              refine ⟨?_, buffered.whole, ?_, ?_, buffered.state, copied⟩
              · rw [buffered.split, List.append_assoc]
              · rw [List.length_append, taken, ← isLength]
              · rw [List.length_append]
                omega
            have step := induction (bytes.drop chunk) next less
            rw [List.append_assoc, List.take_append_drop] at step
            exact step
      · have empty : bytes = [] := List.length_eq_zero_iff.mp (by omega)
        rw [if_neg none, empty, List.append_nil]
        exact ⟨⟨front, back, buffered⟩, rfl, rfl⟩

/-- The two halves of the byte counter, with the carry between them. -/
theorem counter_carry {upper lower added : Nat} (upper_lt : upper < 2 ^ 32)
    (lower_lt : lower < 2 ^ 32) (added_lt : added < 2 ^ 32) :
    (if (lower + added) % 2 ^ 32 < lower then (upper + 1) % 2 ^ 32 else upper) *
        2 ^ 32 + (lower + added) % 2 ^ 32 =
      (upper * 2 ^ 32 + lower + added) % 2 ^ 64 := by
  rw [Nat.add_assoc]
  rcases Nat.lt_or_ge (lower + added) (2 ^ 32) with small | large
  · rw [Nat.mod_eq_of_lt small, if_neg (by omega), Nat.mod_eq_of_lt (by omega)]
  · rcases Nat.exists_eq_add_of_le large with ⟨rest, isRest⟩
    have carried : upper * 2 ^ 32 + (2 ^ 32 + rest) =
        (upper + 1) * 2 ^ 32 + rest := by omega
    rw [isRest, Nat.add_mod_left, Nat.mod_eq_of_lt (show rest < 2 ^ 32 by omega),
      if_pos (by omega), carried]
    rcases Nat.lt_or_eq_of_le (show upper + 1 ≤ 2 ^ 32 by omega) with fits | wraps
    · rw [Nat.mod_eq_of_lt fits, Nat.mod_eq_of_lt (by omega)]
    · rw [wraps, Nat.mod_self, ← Nat.pow_add, Nat.add_mod_left,
        Nat.mod_eq_of_lt (by omega), Nat.zero_mul, Nat.zero_add]

theorem counter_add (low high : UInt32) {length added : Nat}
    (added_lt : added < 2 ^ 32)
    (count : high.toNat * 2 ^ 32 + low.toNat = length % 2 ^ 64) :
    (if low + UInt32.ofNat added < low then high + 1 else high).toNat * 2 ^ 32 +
      (low + UInt32.ofNat added).toNat = (length + added) % 2 ^ 64 := by
  have sum : (low + UInt32.ofNat added).toNat = (low.toNat + added) % 2 ^ 32 := by
    rw [UInt32.toNat_add, UInt32.toNat_ofNat_of_lt' added_lt]
  have next : (high + 1).toNat = (high.toNat + 1) % 2 ^ 32 := UInt32.toNat_add _ _
  rw [← Nat.mod_add_mod, ← count, ← counter_carry high.toNat_lt low.toNat_lt added_lt]
  simp only [apply_ite UInt32.toNat, UInt32.lt_iff_toNat_lt, sum, next]

theorem Represents.update (represents : Represents transform start context message)
    {bytes : List UInt8} (small : bytes.length < 2 ^ 32) :
    Represents transform start (update transform context bytes)
      (message ++ bytes) := by
  rcases represents.buffered with ⟨front, back, buffered⟩
  have counted : Buffered transform start
      { context with
        bytesLow := context.bytesLow + UInt32.ofNat bytes.length
        bytesHigh :=
          if context.bytesLow + UInt32.ofNat bytes.length < context.bytesLow then
            context.bytesHigh + 1
          else context.bytesHigh } message front back :=
    ⟨buffered.split, buffered.whole, buffered.length, buffered.short,
      buffered.state, buffered.stored⟩
  rcases counted.update bytes.length bytes (Nat.le_refl _) with ⟨found, low, high⟩
  refine ⟨found, ?_⟩
  unfold Crypto.update
  rw [low, high, List.length_append]
  exact counter_add _ _ small represents.count

/-! ## The last blocks -/

theorem storeBigEndian_eq (value : UInt32) :
    storeBigEndian value = bigEndian 4 value.toNat := by
  have byte : ∀ shift : UInt32, shift.toNat < 32 →
      (value >>> shift).toUInt8 = UInt8.ofNat (value.toNat / 2 ^ shift.toNat) := by
    intro shift small
    apply UInt8.toNat_inj.mp
    simp only [UInt32.toNat_toUInt8, UInt32.toNat_shiftRight, UInt8.toNat_ofNat',
      Nat.shiftRight_eq_div_pow, Nat.mod_eq_of_lt small]
  have last : value.toUInt8 = UInt8.ofNat (value.toNat / 2 ^ 0) := by
    apply UInt8.toNat_inj.mp
    simp
  have list : List.range 4 = [0, 1, 2, 3] := by decide
  simp only [storeBigEndian, bigEndian, list, List.map_cons, List.map_nil]
  rw [byte 24 (by decide), byte 16 (by decide), byte 8 (by decide), last]
  rfl

/-- A word of a message schedule that was put in a list. -/
theorem getD_map_range {word : Nat → UInt32} {count index : Nat} (less : index < count) :
    ((List.range count).map word).getD index 0 = word index := by
  simp only [List.getD_eq_getElem?_getD]
  rw [List.getElem?_map, List.getElem?_range less]
  rfl

/-- Four bytes put together with shifts, the highest first. -/
theorem joinBytes_eq (byte0 byte1 byte2 byte3 : UInt8) :
    byte0.toUInt32 <<< 24 ||| byte1.toUInt32 <<< 16 ||| byte2.toUInt32 <<< 8 |||
        byte3.toUInt32 =
      UInt32.ofNat (byte0.toNat * 2 ^ 24 + byte1.toNat * 2 ^ 16 +
        byte2.toNat * 2 ^ 8 + byte3.toNat) := by
  have bound0 := byte0.toNat_lt
  have bound1 := byte1.toNat_lt
  have bound2 := byte2.toNat_lt
  have bound3 := byte3.toNat_lt
  have first : (byte0.toUInt32 <<< 24).toNat = byte0.toNat * 2 ^ 24 := by
    rw [toNat_shiftLeft_fits (by decide) (by simp; omega), UInt8.toNat_toUInt32]
    rfl
  have second : (byte1.toUInt32 <<< 16).toNat = byte1.toNat * 2 ^ 16 := by
    rw [toNat_shiftLeft_fits (by decide) (by simp; omega), UInt8.toNat_toUInt32]
    rfl
  have third : (byte2.toUInt32 <<< 8).toNat = byte2.toNat * 2 ^ 8 := by
    rw [toNat_shiftLeft_fits (by decide) (by simp; omega), UInt8.toNat_toUInt32]
    rfl
  have upper : (byte0.toUInt32 <<< 24 ||| byte1.toUInt32 <<< 16).toNat =
      byte0.toNat * 2 ^ 24 + byte1.toNat * 2 ^ 16 := by
    rw [@toNat_or_below _ _ 24 (by omega) (by omega), first, second]
  have middle : (byte0.toUInt32 <<< 24 ||| byte1.toUInt32 <<< 16 |||
      byte2.toUInt32 <<< 8).toNat =
      byte0.toNat * 2 ^ 24 + byte1.toNat * 2 ^ 16 + byte2.toNat * 2 ^ 8 := by
    rw [@toNat_or_below _ _ 16 (by omega) (by omega), upper, third]
  apply UInt32.toNat_inj.mp
  rw [@toNat_or_below _ _ 8 (by omega) (by simp; omega), middle, UInt8.toNat_toUInt32,
    UInt32.toNat_ofNat_of_lt' (show _ < 2 ^ 32 by omega)]

/-- A number of bytes as a number of bits, in two words. -/
theorem bits_words {low high : UInt32} {length : Nat} (small : length < 2 ^ 61)
    (count : high.toNat * 2 ^ 32 + low.toNat = length % 2 ^ 64) :
    (high <<< 3 ||| low >>> 29).toNat = 8 * length / 2 ^ 32 ∧
      (low <<< 3).toNat = 8 * length % 2 ^ 32 := by
  have lowBound := low.toNat_lt
  rw [Nat.mod_eq_of_lt (by omega)] at count
  have left : (3 : UInt32).toNat % 32 = 3 := rfl
  have right : (29 : UInt32).toNat % 32 = 29 := rfl
  constructor
  · rw [UInt32.toNat_or, UInt32.toNat_shiftLeft, UInt32.toNat_shiftRight, left,
      right, Nat.mod_eq_of_lt (by rw [Nat.shiftLeft_eq]; omega),
      ← Nat.shiftLeft_add_eq_or_of_lt (by rw [Nat.shiftRight_eq_div_pow]; omega),
      Nat.shiftLeft_eq, Nat.shiftRight_eq_div_pow]
    omega
  · rw [UInt32.toNat_shiftLeft, left, Nat.shiftLeft_eq]
    omega

theorem bigEndian_halves (value : Nat) :
    bigEndian 8 value = bigEndian 4 (value / 2 ^ 32) ++ bigEndian 4 (value % 2 ^ 32) := by
  have eight : List.range 8 = [0, 1, 2, 3, 4, 5, 6, 7] := by decide
  have four : List.range 4 = [0, 1, 2, 3] := by decide
  have byte : ∀ left right : Nat, left % 256 = right % 256 →
      UInt8.ofNat left = UInt8.ofNat right := by
    intro left right same
    apply UInt8.toNat_inj.mp
    rw [UInt8.toNat_ofNat', UInt8.toNat_ofNat']
    exact same
  simp only [bigEndian, eight, four, List.map_cons, List.map_nil, List.cons_append,
    List.nil_append, List.cons.injEq, and_true]
  refine ⟨byte _ _ ?_, byte _ _ ?_, byte _ _ ?_, byte _ _ ?_, byte _ _ ?_, byte _ _ ?_,
    byte _ _ ?_, byte _ _ ?_⟩
  all_goals omega

/-- The block that ends in the length, when `used` bytes of it are given. -/
theorem byteAt_lengthBlock {buffer : Block 64} {used bits index : Nat}
    {high low : UInt32} (used_le : used ≤ 56) (inside : index < 64)
    (isHigh : high.toNat = bits / 2 ^ 32) (isLow : low.toNat = bits % 2 ^ 32) :
    (((buffer.copyInto used (56 - used) fun _ => 0).copyInto 56 4 fun index =>
        (storeBigEndian high).getD index 0).copyInto 60 4 fun index =>
        (storeBigEndian low).getD index 0).byteAt index =
      if index < used then buffer.byteAt index
      else if index < 56 then 0 else (bigEndian 8 bits).getD (index - 56) 0 := by
  rw [storeBigEndian_eq, storeBigEndian_eq, isHigh, isLow, bigEndian_halves]
  simp only [List.getD_eq_getElem?_getD]
  by_cases last : 60 ≤ index
  · rw [Block.byteAt_copyInto_inside last (by omega) inside, if_neg (by omega),
      if_neg (by omega), List.getElem?_append_right (by simp; omega)]
    simp only [length_bigEndian]
    rw [show index - 56 - 4 = index - 60 by omega]
  · rw [Block.byteAt_copyInto_outside (by omega)]
    by_cases length : 56 ≤ index
    · rw [Block.byteAt_copyInto_inside length (by omega) inside, if_neg (by omega),
        if_neg (by omega), List.getElem?_append_left (by simp; omega)]
    · rw [Block.byteAt_copyInto_outside (by omega), if_pos (show index < 56 by omega)]
      by_cases old : index < used
      · rw [Block.byteAt_copyInto_outside (Or.inl old), if_pos old]
      · rw [Block.byteAt_copyInto_inside (by omega) (by omega) inside, if_neg old]

/-- The bytes of a message that is followed by its padding. -/
theorem getD_padded (back lengthBytes : List UInt8) (zeros index : Nat) :
    (back ++ (0x80 :: List.replicate zeros 0 ++ lengthBytes)).getD index 0 =
      if index < back.length then back.getD index 0
      else if index = back.length then 0x80
      else if index < back.length + 1 + zeros then 0
      else lengthBytes.getD (index - (back.length + 1 + zeros)) 0 := by
  simp only [List.getD_eq_getElem?_getD]
  by_cases old : index < back.length
  · rw [if_pos old, List.getElem?_append_left old]
  · rw [if_neg old, List.getElem?_append_right (by omega)]
    by_cases mark : index = back.length
    · simp [mark]
    · rw [if_neg mark, List.cons_append,
        show index - back.length = index - back.length - 1 + 1 by omega,
        List.getElem?_cons_succ]
      by_cases zero : index < back.length + 1 + zeros
      · rw [if_pos zero, List.getElem?_append_left (by simp; omega),
          List.getElem?_replicate, if_pos (by omega)]
        rfl
      · rw [if_neg zero, List.getElem?_append_right (by simp; omega)]
        rw [List.length_replicate,
          show index - back.length - 1 - zeros = index - (back.length + 1 + zeros) by
            omega]

/-- The buffer after the byte that marks the end of the message. -/
theorem Buffered.marked {front back : List UInt8} {index : Nat}
    (buffered : Buffered transform start context message front back)
    (inside : index < 64) (early : index < back.length + 1) :
    (context.buffer.copyInto context.bufferLength 1 fun _ => 0x80).byteAt index =
      if index < back.length then back.getD index 0 else 0x80 := by
  rw [buffered.length]
  by_cases old : index < back.length
  · rw [Block.byteAt_copyInto_outside (Or.inl old), if_pos old,
      buffered.stored index old]
  · rw [Block.byteAt_copyInto_inside (by omega) (by omega) inside, if_neg old]

/-- The bytes of the last incomplete block and the padding after it. -/
theorem getD_tail {back : List UInt8} {length : Nat}
    (rest : length % 64 = back.length) (index : Nat) :
    (back ++ padding length).getD index 0 =
      if index < back.length then back.getD index 0
      else if index = back.length then 0x80
      else if index < back.length + 1 + (119 - back.length) % 64 then 0
      else (bigEndian 8 (8 * length)).getD
        (index - (back.length + 1 + (119 - back.length) % 64)) 0 := by
  rw [padding, rest, getD_padded]

/-- The padding fits the last block. -/
theorem Buffered.lastBlock {front back : List UInt8} {high low : UInt32}
    {length : Nat} (buffered : Buffered transform start context message front back)
    (rest : length % 64 = back.length) (fits : back.length + 1 ≤ 56)
    (isHigh : high.toNat = 8 * length / 2 ^ 32)
    (isLow : low.toNat = 8 * length % 2 ^ 32) :
    (((context.buffer.copyInto context.bufferLength 1 fun _ => 0x80).copyInto
        (context.bufferLength + 1) (56 - (context.bufferLength + 1))
          fun _ => 0).copyInto 56 4 fun index =>
        (storeBigEndian high).getD index 0).copyInto 60 4 (fun index =>
        (storeBigEndian low).getD index 0) =
      Block.ofList (back ++ padding length) := by
  have isLength := buffered.length
  apply eq_ofList
  intro index inside
  rw [byteAt_lengthBlock (by omega) inside isHigh isLow, getD_tail rest]
  by_cases early : index < back.length + 1
  · rw [if_pos (by omega), buffered.marked inside early]
    by_cases old : index < back.length
    · rw [if_pos old, if_pos old]
    · rw [if_neg old, if_neg old, if_pos (by omega)]
  · rw [if_neg (by omega), if_neg (show ¬ index < back.length by omega),
      if_neg (show ¬ index = back.length by omega)]
    by_cases zero : index < 56
    · rw [if_pos zero, if_pos (by omega)]
    · rw [if_neg zero, if_neg (by omega)]
      congr 1
      omega

/-- The padding takes another block. -/
theorem Buffered.fullBlock {front back : List UInt8} {length : Nat}
    (buffered : Buffered transform start context message front back)
    (rest : length % 64 = back.length) (long : 56 < back.length + 1) :
    (context.buffer.copyInto context.bufferLength 1 fun _ => 0x80).copyInto
        (context.bufferLength + 1) (blockSize - (context.bufferLength + 1))
          (fun _ => 0) =
      Block.ofList ((back ++ padding length).take 64) := by
  have isLength := buffered.length
  have short := buffered.short
  have size : blockSize = 64 := rfl
  apply eq_ofList
  intro index inside
  rw [List.getD_eq_getElem?_getD, List.getElem?_take_of_lt inside,
    ← List.getD_eq_getElem?_getD, getD_tail rest]
  by_cases early : index < back.length + 1
  · rw [Block.byteAt_copyInto_outside (Or.inl (by omega)),
      buffered.marked inside early]
    by_cases old : index < back.length
    · rw [if_pos old, if_pos old]
    · rw [if_neg old, if_neg old, if_pos (by omega)]
  · rw [Block.byteAt_copyInto_inside (by omega) (by omega) inside,
      if_neg (by omega), if_neg (by omega), if_pos (by omega)]

/-- The block after it holds nothing but the length. -/
theorem lengthBlock {back : List UInt8} {high low : UInt32} {length : Nat}
    (buffer : Block 64) (rest : length % 64 = back.length)
    (long : 56 < back.length + 1)
    (isHigh : high.toNat = 8 * length / 2 ^ 32)
    (isLow : low.toNat = 8 * length % 2 ^ 32) :
    ((buffer.copyInto 0 (56 - 0) fun _ => 0).copyInto 56 4 fun index =>
        (storeBigEndian high).getD index 0).copyInto 60 4 (fun index =>
        (storeBigEndian low).getD index 0) =
      Block.ofList ((back ++ padding length).drop 64) := by
  apply eq_ofList
  intro index inside
  have dropped : ((back ++ padding length).drop 64).getD index 0 =
      (back ++ padding length).getD (64 + index) 0 := by
    simp only [List.getD_eq_getElem?_getD, List.getElem?_drop]
  rw [byteAt_lengthBlock (by decide) inside isHigh isLow,
    if_neg (Nat.not_lt_zero index), dropped, getD_tail rest,
    if_neg (show ¬ 64 + index < back.length by omega),
    if_neg (show ¬ 64 + index = back.length by omega)]
  by_cases zero : index < 56
  · rw [if_pos zero, if_pos (by omega)]
  · rw [if_neg zero, if_neg (by omega)]
    congr 1
    omega

theorem lastBlocks_eq (represents : Represents transform start context message)
    (small : message.length < 2 ^ 61) :
    lastBlocks transform context =
      hashBlocks transform start (message ++ padding message.length) := by
  rcases represents.buffered with ⟨front, back, buffered⟩
  rcases bits_words small represents.count with ⟨isHigh, isLow⟩
  have isLength := buffered.length
  have short := buffered.short
  have whole := buffered.whole
  have rest : message.length % 64 = back.length := by
    rw [buffered.split, List.length_append]
    omega
  have length := length_padding message.length
  rw [rest] at length
  have joined : message ++ padding message.length =
      front ++ (back ++ padding message.length) := by
    rw [← List.append_assoc, ← buffered.split]
  rw [joined, hashBlocks_whole whole, ← buffered.state]
  unfold lastBlocks
  by_cases long : context.bufferLength + 1 > 56
  · simp only [if_pos long]
    have firstLength : ((back ++ padding message.length).take 64).length = 64 := by
      rw [List.length_take, List.length_append]
      omega
    have lastLength : ((back ++ padding message.length).drop 64).length = 64 := by
      rw [List.length_drop, List.length_append]
      omega
    rw [← List.take_append_drop 64 (back ++ padding message.length),
      hashBlocks_whole (by omega), hashBlocks_block transform (by decide) firstLength,
      hashBlocks_block transform (by decide) lastLength,
      buffered.fullBlock rest (by omega),
      lengthBlock _ rest (by omega) isHigh isLow]
  · simp only [if_neg long]
    have total : (back ++ padding message.length).length = 64 := by
      rw [List.length_append]
      omega
    rw [hashBlocks_block transform (by decide) total,
      buffered.lastBlock rest (by omega) isHigh isLow]

/-! ## Whole messages -/

/-- The context before any data. -/
theorem represents_start (buffer : Block 64) :
    Represents transform start ⟨start, 0, 0, 0, buffer⟩ [] where
  buffered := ⟨[], [], rfl, rfl, rfl, by decide, rfl, fun _ impossible =>
    absurd impossible (Nat.not_lt_zero _)⟩
  count := by simp

theorem Represents.updates (chunks : List (List UInt8)) :
    ∀ {context : HashContext σ} {message : List UInt8},
      Represents transform start context message →
      (∀ chunk ∈ chunks, chunk.length < 2 ^ 32) →
      Represents transform start (chunks.foldl (Crypto.update transform) context)
        (message ++ chunks.flatten) := by
  induction chunks with
  | nil =>
      intro context message represents _
      rw [List.flatten_nil, List.append_nil]
      exact represents
  | cons chunk chunks induction =>
      intro context message represents small
      rw [List.flatten_cons, ← List.append_assoc]
      exact induction (represents.update (small chunk (by simp)))
        fun other member => small other (by simp [member])

end Invariant

end Katela.Crypto
