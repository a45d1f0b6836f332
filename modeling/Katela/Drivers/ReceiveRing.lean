import Katela.Drivers.ReceiveQueue
import Katela.Foundation.Checked

/-! # The receive ring of the network card

`drain` of `drivers/rtl8139.c` walks through a ring that the card writes. Each round finds
whatever the card has put there, and a frame may run on behind the end of the ring. A byte
read outside of the buffer, or stored outside of a slot, is outside. -/

namespace Katela.Drivers

def rxRingSize : Nat := 8192

def rxBufferSize : Nat := rxRingSize + 16 + 1536

def rxLengthPending : UInt16 := 0xFFF0

/-- The offset in the ring, and the queue that frames are put into. -/
structure RingState where
  rxOffset : UInt32
  receive : ReceiveState

/-- A byte of `rx_ring`. -/
def ringByte (ring : Nat → UInt8) (index : UInt32) : Checked Unit UInt8 :=
  if index.toNat < rxBufferSize then .done (ring index.toNat) else .outside

def ringRead16 (ring : Nat → UInt8) (offset : UInt32) : Checked Unit UInt16 := do
  let low ← ringByte ring offset
  let high ← ringByte ring (offset + 1)
  .done (low.toUInt16 ||| (high.toUInt16 <<< 8))

/-- The loop of `enqueue`. -/
def storeLoop (ring : Nat → UInt8) (offset : UInt32) :
    (rounds i : Nat) → Block queueFrameSize → Checked Unit (Block queueFrameSize)
  | 0, _, data => .done data
  | rounds + 1, i, data => do
      let byte ← ringByte ring (offset + UInt32.ofNat i)
      if inside : i < queueFrameSize then
        storeLoop ring offset rounds (i + 1) (Function.update data ⟨i, inside⟩ byte)
      else .outside

/-- `enqueue`, with each access checked. -/
def enqueueFrom (state : ReceiveState) (ring : Nat → UInt8) (offset size : UInt32) :
    Checked Unit ReceiveState :=
  let next := nextSlot state.head
  if next = state.tail then .done state
  else do
    let data ← storeLoop ring offset size.toNat 0 (state.queue state.head).data
    .done { state with
      queue := Function.update state.queue state.head ⟨size.toNat, data⟩
      head := next
      stored := state.stored ++ [frameAt ring offset.toNat size.toNat] }

def rxRestart (state : RingState) : RingState := { state with rxOffset := 0 }

/-- The offset behind a frame. -/
def offsetAfter (rxOffset : UInt32) (length : UInt16) : UInt32 :=
  let next := (rxOffset + length.toUInt32 + UInt32.ofNat rxHeaderSize + 3) &&& ~~~3
  if next.toNat ≥ rxRingSize then next - UInt32.ofNat rxRingSize else next

/-- The header is one of a frame that `drain` takes. -/
def acceptable (status length : UInt16) : Bool :=
  status &&& 1 ≠ 0 ∧ rxFrameMin ≤ length.toNat ∧ length.toNat ≤ rxFrameMax

/-- `drain`, for the contents of the ring in each round in which the card says that the
buffer is not empty. -/
def drain : List (Nat → UInt8) → RingState → Checked Unit RingState
  | [], state => .done state
  | ring :: rounds, state => do
      let status ← ringRead16 ring state.rxOffset
      let length ← ringRead16 ring (state.rxOffset + 2)
      if length = rxLengthPending then .done state
      else if acceptable status length = false then .done (rxRestart state)
      else do
        let receive ← enqueueFrom state.receive ring
          (state.rxOffset + UInt32.ofNat rxHeaderSize) (length.toUInt32 - UInt32.ofNat rxCrcSize)
        drain rounds { rxOffset := offsetAfter state.rxOffset length, receive }

/-- What can happen: an interrupt with its rounds of `drain`, or a step of the task that
receives. -/
inductive RingAction where
  | interrupt (rounds : List (Nat → UInt8))
  | receive (capacity : Nat)
  | advance
  | timeout

def receiveOr (state : RingState) (action : ReceiveAction) : RingState :=
  { state with receive := (receiveAction state.receive action).getD state.receive }

def ringAction (state : RingState) : RingAction → Checked Unit RingState
  | .interrupt rounds => drain rounds state
  | .receive capacity => .done (receiveOr state (.receive capacity))
  | .advance => .done (receiveOr state .advance)
  | .timeout => .done (receiveOr state .timeout)

def ringRun : List RingAction → RingState → Checked Unit RingState
  | [], state => .done state
  | action :: actions, state => do
      let state ← ringAction state action
      ringRun actions state

/-- After `rtl8139_init`. -/
def ringStart (queue : Fin queueSlots → QueuedFrame) : RingState where
  rxOffset := 0
  receive := ⟨queue, ⟨0, by decide⟩, ⟨0, by decide⟩, .idle, [], []⟩

/-- The offset is where a header can be. -/
structure Placed (state : RingState) : Prop where
  aligned : state.rxOffset.toNat % 4 = 0
  inside : state.rxOffset.toNat < rxRingSize

/-- A multiple of four that is not smaller. -/
def roundUp (size : Nat) : Nat := (size + 3) / 4 * 4

/-- What a round does with a frame that it takes. -/
def Advances (state : RingState) : Prop :=
  ∀ ring rounds status length, ringRead16 ring state.rxOffset = .done status →
    ringRead16 ring (state.rxOffset + 2) = .done length → length ≠ rxLengthPending →
    acceptable status length = true → ∃ after, drain (ring :: rounds) state = drain rounds after ∧
      after.rxOffset.toNat =
        (state.rxOffset.toNat + roundUp (length.toNat + rxHeaderSize)) % rxRingSize

/-! ## Offsets -/

theorem toNat_add_ofNat {offset : UInt32} {count : Nat}
    (fits : offset.toNat + count < 2 ^ 32) :
    (offset + UInt32.ofNat count).toNat = offset.toNat + count := by
  rw [UInt32.toNat_add, UInt32.toNat_ofNat']
  omega

/-- Clearing the two lowest bits. -/
theorem toNat_and_not_three (value : UInt32) :
    (value &&& ~~~3).toNat = value.toNat / 4 * 4 := by
  have same : value &&& ~~~(3 : UInt32) = (value >>> 2) <<< 2 := by
    apply UInt32.toBitVec_inj.mp
    apply BitVec.eq_of_getLsbD_eq
    intro index inside
    by_cases low : index < 2
    · rcases (show index = 0 ∨ index = 1 by omega) with rfl | rfl <;> simp
    · have high : (3#32).getLsbD index = false := by
        rw [BitVec.getLsbD_ofNat, Nat.testBit_lt_two_pow (Nat.lt_of_lt_of_le
          (by decide : 3 < 2 ^ 2) (Nat.pow_le_pow_right (by decide) (by omega))),
          Bool.and_false]
      have isThree : (3 : UInt32).toBitVec = 3#32 := rfl
      have isBack : 2 + (index - 2) = index := by omega
      rw [UInt32.toBitVec_and, UInt32.toBitVec_not, BitVec.getLsbD_and, BitVec.getLsbD_not,
        isThree, high]
      simp [inside, low, isBack]
  have small := value.toNat_lt
  rw [same, UInt32.toNat_shiftLeft, UInt32.toNat_shiftRight]
  simp only [UInt32.reduceToNat, Nat.reduceMod, Nat.shiftRight_eq_div_pow, Nat.shiftLeft_eq]
  omega

theorem acceptable_iff {status length : UInt16} :
    acceptable status length = true ↔
      status &&& 1 ≠ 0 ∧ rxFrameMin ≤ length.toNat ∧ length.toNat ≤ rxFrameMax := by
  unfold acceptable
  exact decide_eq_true_iff

theorem toNat_offsetAfter {rxOffset : UInt32} {length : UInt16}
    (aligned : rxOffset.toNat % 4 = 0) (inside : rxOffset.toNat < rxRingSize)
    (short : length.toNat ≤ rxFrameMax) :
    (offsetAfter rxOffset length).toNat =
      (rxOffset.toNat + roundUp (length.toNat + rxHeaderSize)) % rxRingSize := by
  have isRing : rxRingSize = 8192 := rfl
  have isMax : rxFrameMax = 1522 := rfl
  have isHeader : rxHeaderSize = 4 := rfl
  have isWide : length.toUInt32.toNat = length.toNat := rfl
  have isThree : (3 : UInt32).toNat = 3 := rfl
  have isFour : (UInt32.ofNat rxHeaderSize).toNat = 4 := rfl
  have isSize : (UInt32.ofNat rxRingSize).toNat = 8192 := rfl
  have isSum : (rxOffset + length.toUInt32 + UInt32.ofNat rxHeaderSize + 3).toNat =
      rxOffset.toNat + length.toNat + 7 := by
    rw [UInt32.toNat_add, UInt32.toNat_add, UInt32.toNat_add, isWide, isThree, isFour]
    omega
  unfold offsetAfter roundUp
  dsimp only
  have isNext := toNat_and_not_three
    (rxOffset + length.toUInt32 + UInt32.ofNat rxHeaderSize + 3)
  rw [isSum] at isNext
  split
  · next beyond =>
      rw [isNext] at beyond
      rw [UInt32.toNat_sub_of_le _ _ (by
        rw [UInt32.le_iff_toNat_le, isNext, isSize]
        omega), isNext, isSize, isHeader, isRing]
      omega
  · next before =>
      rw [isNext] at before
      rw [isNext, isHeader, isRing]
      omega

/-! ## Accesses -/

section Accesses

variable {ring : Nat → UInt8} {offset : UInt32}

theorem ringByte_eq (inside : offset.toNat < rxBufferSize) :
    ringByte ring offset = .done (ring offset.toNat) :=
  if_pos inside

/-- The words of a header can be read. -/
theorem exists_ringRead16 (inside : offset.toNat + 1 < rxBufferSize) :
    ∃ value, ringRead16 ring offset = .done value := by
  have isBuffer : rxBufferSize = 9744 := rfl
  have isOne : offset + 1 = offset + UInt32.ofNat 1 := rfl
  unfold ringRead16
  rw [ringByte_eq (by omega), Checked.done_bind, isOne, ringByte_eq (by
    rw [toNat_add_ofNat (by omega)]
    omega), Checked.done_bind]
  exact ⟨_, rfl⟩

theorem storeLoop_eq (rounds : Nat) :
    ∀ {i : Nat} (data : Block queueFrameSize), offset.toNat + (i + rounds) ≤ rxBufferSize →
      i + rounds ≤ queueFrameSize →
      storeLoop ring offset rounds i data =
        .done (data.copyInto i rounds fun k => ring (offset.toNat + (i + k))) := by
  induction rounds with
  | zero =>
      intro i data _ _
      rw [storeLoop]
      congr 1
      funext index
      unfold Block.copyInto
      rw [if_neg (by omega)]
  | succ rounds ih =>
      intro i data inside short
      have isBuffer : rxBufferSize = 9744 := rfl
      have isIndex : (offset + UInt32.ofNat i).toNat = offset.toNat + i :=
        toNat_add_ofNat (by omega)
      have isSlot : i < queueFrameSize := by omega
      rw [storeLoop, ringByte_eq (by omega), Checked.done_bind, dif_pos isSlot,
        ih _ (by omega) (by omega), isIndex]
      congr 1
      funext index
      unfold Block.copyInto
      dsimp only
      by_cases isFirst : index.val = i
      · have same : index = ⟨i, isSlot⟩ := Fin.ext isFirst
        rw [if_neg (by omega), if_pos (by omega), same, Function.update_self]
        congr 1
        omega
      · have different : index ≠ ⟨i, isSlot⟩ := fun same => isFirst (congrArg Fin.val same)
        rw [Function.update_of_ne different]
        by_cases later : i + 1 ≤ index.val ∧ index.val < i + 1 + rounds
        · rw [if_pos later, if_pos (by omega)]
          congr 1
          omega
        · rw [if_neg later, if_neg (by omega)]

/-- Within its bounds, the checked function is the one that the queue is about. -/
theorem enqueueFrom_eq {size : UInt32} (state : ReceiveState)
    (inside : offset.toNat + size.toNat ≤ rxBufferSize) (short : size.toNat ≤ queueFrameSize) :
    enqueueFrom state ring offset size =
      .done (enqueue state ring offset.toNat size.toNat) := by
  unfold enqueueFrom enqueue
  dsimp only
  split
  · rfl
  · rw [storeLoop_eq size.toNat _ (by omega) (by omega), Checked.done_bind]
    simp only [Nat.zero_add]

end Accesses

/-! ## Rounds -/

theorem toNat_sub_crc {length : UInt16} (long : rxFrameMin ≤ length.toNat) :
    (length.toUInt32 - UInt32.ofNat rxCrcSize).toNat = length.toNat - rxCrcSize := by
  have isMin : rxFrameMin = 64 := rfl
  have isCrc : (UInt32.ofNat rxCrcSize).toNat = 4 := rfl
  have isWide : length.toUInt32.toNat = length.toNat := rfl
  rw [UInt32.toNat_sub_of_le _ _ (by
    rw [UInt32.le_iff_toNat_le, isCrc, isWide]
    omega), isCrc, isWide]
  rfl

/-- A frame that is taken goes into the queue, and the offset behind it is another place
for a header. -/
theorem drain_accept {state : RingState} (placed : Placed state) {ring : Nat → UInt8}
    {status length : UInt16} (isStatus : ringRead16 ring state.rxOffset = .done status)
    (isLength : ringRead16 ring (state.rxOffset + 2) = .done length)
    (accepted : acceptable status length = true) (rounds : List (Nat → UInt8)) :
    drain (ring :: rounds) state = drain rounds
      { rxOffset := offsetAfter state.rxOffset length
        receive := enqueue state.receive ring (state.rxOffset.toNat + rxHeaderSize)
          (length.toNat - rxCrcSize) } := by
  have inside := placed.inside
  rcases acceptable_iff.mp accepted with ⟨_, long, short⟩
  have isRing : rxRingSize = 8192 := rfl
  have isBuffer : rxBufferSize = 9744 := rfl
  have isSlot : queueFrameSize = 1536 := rfl
  have isMax : rxFrameMax = 1522 := rfl
  have isHeader : rxHeaderSize = 4 := rfl
  have isOffset : (state.rxOffset + UInt32.ofNat rxHeaderSize).toNat =
      state.rxOffset.toNat + rxHeaderSize := toNat_add_ofNat (by omega)
  have isSize := toNat_sub_crc long
  have notPending : length ≠ rxLengthPending := by
    rintro rfl
    exact absurd short (by decide)
  rw [drain, isStatus, Checked.done_bind, isLength, Checked.done_bind, if_neg notPending,
    if_neg (by rw [accepted]; decide), enqueueFrom_eq _ (by omega) (by omega),
    Checked.done_bind, isOffset, isSize]

theorem Placed.after {state : RingState} (placed : Placed state) {status length : UInt16}
    (accepted : acceptable status length = true) (receive : ReceiveState) :
    Placed { rxOffset := offsetAfter state.rxOffset length, receive } := by
  have isRing : rxRingSize = 8192 := rfl
  have aligned := placed.aligned
  have isOffset := toNat_offsetAfter aligned placed.inside (acceptable_iff.mp accepted).2.2
  constructor
  · dsimp only
    rw [isOffset, isRing]
    unfold roundUp
    omega
  · dsimp only
    rw [isOffset]
    exact Nat.mod_lt _ (by decide)

theorem Placed.advances {state : RingState} (placed : Placed state) : Advances state := by
  intro ring rounds status length isStatus isLength _ accepted
  refine ⟨_, drain_accept placed isStatus isLength accepted rounds, ?_⟩
  exact toNat_offsetAfter placed.aligned placed.inside (acceptable_iff.mp accepted).2.2

/-- Whatever the card writes, every round stays inside and leaves the offset at a place
for a header. -/
theorem drain_placed (rounds : List (Nat → UInt8)) :
    ∀ {state : RingState}, Placed state →
      ∃ after, drain rounds state = .done after ∧ Placed after := by
  induction rounds with
  | nil =>
      intro state placed
      exact ⟨state, rfl, placed⟩
  | cons ring rounds ih =>
      intro state placed
      have inside := placed.inside
      have isRing : rxRingSize = 8192 := rfl
      have isBuffer : rxBufferSize = 9744 := rfl
      have isSecond : (state.rxOffset + 2).toNat = state.rxOffset.toNat + 2 :=
        @toNat_add_ofNat state.rxOffset 2 (by omega)
      rcases @exists_ringRead16 ring state.rxOffset (by omega) with ⟨status, isStatus⟩
      rcases @exists_ringRead16 ring (state.rxOffset + 2) (by omega) with ⟨length, isLength⟩
      by_cases accepted : acceptable status length = true
      · rw [drain_accept placed isStatus isLength accepted]
        exact ih (placed.after accepted _)
      · rw [drain, isStatus, Checked.done_bind, isLength, Checked.done_bind]
        split
        · exact ⟨state, rfl, placed⟩
        · rw [if_pos (by simpa using accepted)]
          exact ⟨rxRestart state, rfl, rfl, (by decide : 0 < rxRingSize)⟩

theorem ringAction_placed {state : RingState} (placed : Placed state) (action : RingAction) :
    ∃ after, ringAction state action = .done after ∧ Placed after := by
  cases action with
  | interrupt rounds => exact drain_placed rounds placed
  | receive capacity => exact ⟨_, rfl, placed.aligned, placed.inside⟩
  | advance => exact ⟨_, rfl, placed.aligned, placed.inside⟩
  | timeout => exact ⟨_, rfl, placed.aligned, placed.inside⟩

/-- In every run, no access is outside, the offset stays at a multiple of four in the
ring, and a frame that is taken moves it by its length and its header, rounded up. -/
theorem receive_ring_inside (queue : Fin queueSlots → QueuedFrame)
    (actions : List RingAction) :
    ∃ state, ringRun actions (ringStart queue) = .done state ∧
      state.rxOffset.toNat % 4 = 0 ∧ state.rxOffset.toNat < rxRingSize ∧
      Advances state ∧ ∀ rounds, (drain rounds state).Safe := by
  have run : ∀ (actions : List RingAction) {state : RingState}, Placed state →
      ∃ after, ringRun actions state = .done after ∧ Placed after := by
    intro actions
    induction actions with
    | nil =>
        intro state placed
        exact ⟨state, rfl, placed⟩
    | cons action actions ih =>
        intro state placed
        rcases ringAction_placed placed action with ⟨next, isNext, placed'⟩
        rw [ringRun, isNext, Checked.done_bind]
        exact ih placed'
  rcases run actions (show Placed (ringStart queue) from
    ⟨rfl, (by decide : 0 < rxRingSize)⟩) with
    ⟨state, isRun, placed⟩
  refine ⟨state, isRun, placed.aligned, placed.inside, placed.advances, ?_⟩
  intro rounds
  rcases drain_placed rounds placed with ⟨after, isDone, _⟩
  rw [isDone]
  trivial

end Katela.Drivers
