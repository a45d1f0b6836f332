import Mathlib.Logic.Function.Basic
import Katela.Foundation.Bytes
import Katela.Foundation.Ring

/-! # The receive queue of the network card

A model of the queue in `drivers/rtl8139.c` that the interrupt handler puts frames into
and `rtl8139_receive` takes them out of. The handler can run between any two statements
of the task. -/

namespace Katela.Drivers

def queueSlots : Nat := 16

def queueFrameSize : Nat := 1536

def rxFrameMin : Nat := 64

def rxFrameMax : Nat := 1522

def rxHeaderSize : Nat := 4

def rxCrcSize : Nat := 4

structure QueuedFrame where
  size : Nat
  data : Block queueFrameSize

/-- The statement of `rtl8139_receive` that comes next, with its variables. -/
inductive Consumer where
  | idle
  | wait (capacity : Nat)
  | take (capacity : Nat)
  | measure (capacity : Nat) (slot : Fin queueSlots)
  | limit (capacity : Nat) (slot : Fin queueSlots) (size : Nat)
  | copy (capacity : Nat) (slot : Fin queueSlots) (size : Nat) (out : List UInt8)

/-- The variables of the queue, the task that receives, and what was stored and returned
so far, with the capacity of the caller. -/
structure ReceiveState where
  queue : Fin queueSlots → QueuedFrame
  head : Fin queueSlots
  tail : Fin queueSlots
  consumer : Consumer
  stored : List (List UInt8)
  returned : List (Nat × List UInt8)

def nextSlot (slot : Fin queueSlots) : Fin queueSlots :=
  ⟨(slot.val + 1) % queueSlots, Nat.mod_lt _ (by decide)⟩

/-- The bytes of a frame in the ring of the card. -/
def frameAt (rxRing : Nat → UInt8) (offset size : Nat) : List UInt8 :=
  (List.range size).map fun i => rxRing (offset + i)

def enqueue (state : ReceiveState) (rxRing : Nat → UInt8) (offset size : Nat) :
    ReceiveState :=
  let next := nextSlot state.head
  if next = state.tail then state
  else
    let slot := state.queue state.head
    { state with
      queue := Function.update state.queue state.head
        ⟨size, slot.data.copyInto 0 size fun i => rxRing (offset + i)⟩
      head := next
      stored := state.stored ++ [frameAt rxRing offset size] }

def hasFrame (state : ReceiveState) : Bool := state.head ≠ state.tail

/-- A frame that `drain` takes out of the ring of the card. -/
def drainFrame (state : ReceiveState) (rxRing : Nat → UInt8) (rxOffset length : Nat) :
    Option ReceiveState :=
  if length < rxFrameMin ∨ length > rxFrameMax then none
  else some (enqueue state rxRing (rxOffset + rxHeaderSize) (length - rxCrcSize))

/-- The next statement of `rtl8139_receive`. -/
def receiveStep (state : ReceiveState) : Option ReceiveState :=
  match state.consumer with
  | .idle => none
  | .wait capacity =>
      if hasFrame state then some { state with consumer := .take capacity } else none
  | .take capacity => some { state with consumer := .measure capacity state.tail }
  | .measure capacity slot =>
      some { state with consumer := .limit capacity slot (state.queue slot).size }
  | .limit capacity slot size =>
      some { state with
        consumer := .copy capacity slot (if size > capacity then capacity else size) [] }
  | .copy capacity slot size out =>
      if out.length < size then
        some { state with
          consumer := .copy capacity slot size
            (out ++ [(state.queue slot).data.byteAt out.length]) }
      else
        some { state with
          tail := nextSlot state.tail
          consumer := .idle
          returned := state.returned ++ [(capacity, out)] }

inductive ReceiveAction where
  | receive (capacity : Nat)
  | advance
  | timeout
  | interrupt (rxRing : Nat → UInt8) (rxOffset length : Nat)

def receiveAction (state : ReceiveState) : ReceiveAction → Option ReceiveState
  | .receive capacity =>
      match state.consumer with
      | .idle => some { state with consumer := .wait capacity }
      | _ => none
  | .advance => receiveStep state
  | .timeout =>
      match state.consumer with
      | .wait _ => some { state with consumer := .idle }
      | _ => none
  | .interrupt rxRing rxOffset length => drainFrame state rxRing rxOffset length

/-- The states that are reached from an empty queue. -/
inductive ReceiveReached : ReceiveState → Prop where
  | init (queue : Fin queueSlots → QueuedFrame) :
      ReceiveReached ⟨queue, ⟨0, by decide⟩, ⟨0, by decide⟩, .idle, [], []⟩
  | step {state state' : ReceiveState} (action : ReceiveAction)
      (before : ReceiveReached state)
      (taken : receiveAction state action = some state') : ReceiveReached state'

/-! ## What every step keeps -/

/-- The slot of the frame with a number. -/
def slotOf (number : Nat) : Fin queueSlots :=
  ⟨number % queueSlots, Nat.mod_lt _ (by decide)⟩

theorem nextSlot_slotOf (number : Nat) : nextSlot (slotOf number) = slotOf (number + 1) :=
  Fin.ext (next_slot queueSlots number)

/-- A slot has the bytes of a frame. -/
structure Holds (slot : QueuedFrame) (frame : List UInt8) : Prop where
  size : slot.size = frame.length
  data : ∀ index, index < frame.length →
    some (slot.data.byteAt index) = frame[index]?

/-- What the task knows of the frame that it is taking out. -/
def TakesOut (state : ReceiveState) : Consumer → Prop
  | .idle => True
  | .wait _ => True
  | .take _ => state.returned.length < state.stored.length
  | .measure _ slot => slot = slotOf state.returned.length ∧
      state.returned.length < state.stored.length
  | .limit _ slot size => slot = slotOf state.returned.length ∧
      ∃ frame, state.stored[state.returned.length]? = some frame ∧ size = frame.length
  | .copy capacity slot size out => slot = slotOf state.returned.length ∧
      ∃ frame, state.stored[state.returned.length]? = some frame ∧
        size = min capacity frame.length ∧ out.length ≤ size ∧
        out = frame.take out.length

/-- The queue has the frames that were stored and not yet returned, in order. -/
structure Queued (state : ReceiveState) : Prop where
  ordered : state.returned.length ≤ state.stored.length
  few : state.stored.length < state.returned.length + queueSlots
  head : state.head = slotOf state.stored.length
  tail : state.tail = slotOf state.returned.length
  holds : ∀ number frame, state.returned.length ≤ number →
    state.stored[number]? = some frame → Holds (state.queue (slotOf number)) frame
  takesOut : TakesOut state state.consumer
  returned : ∀ (number capacity : Nat) bytes, state.returned[number]? = some (capacity, bytes) →
    ∃ frame : List UInt8, state.stored[number]? = some frame ∧
      bytes = frame.take capacity

theorem slotOf_eq_iff {first second : Nat} (ordered : first ≤ second)
    (near : second < first + queueSlots) : slotOf first = slotOf second ↔ first = second := by
  rw [← slot_eq_iff ordered near]
  exact Fin.ext_iff

section Steps

variable {state : ReceiveState}

theorem Queued.full_iff (queued : Queued state) :
    nextSlot state.head = state.tail ↔
      state.stored.length = state.returned.length + 15 := by
  have isSlots : queueSlots = 16 := rfl
  have full := slot_full_iff queued.ordered queued.few
  rw [queued.head, queued.tail, nextSlot_slotOf, Fin.ext_iff]
  change (state.stored.length + 1) % queueSlots =
    state.returned.length % queueSlots ↔ _
  rw [full]
  omega

theorem Queued.hasFrame_iff (queued : Queued state) :
    hasFrame state = true ↔ state.returned.length < state.stored.length := by
  have ordered := queued.ordered
  have same := slotOf_eq_iff queued.ordered queued.few
  unfold hasFrame
  rw [decide_eq_true_iff, queued.head, queued.tail, ne_comm, ne_eq, same]
  omega

/-- The copy loop of the handler leaves the frame in the slot. -/
theorem holds_copyInto (block : Block queueFrameSize) (rxRing : Nat → UInt8)
    {offset size : Nat} (fits : size ≤ queueFrameSize) :
    Holds ⟨size, block.copyInto 0 size fun i => rxRing (offset + i)⟩
      (frameAt rxRing offset size) := by
  have isLength : (frameAt rxRing offset size).length = size := by
    rw [frameAt, List.length_map, List.length_range]
  refine ⟨isLength.symm, ?_⟩
  intro index inside
  rw [isLength] at inside
  rw [Block.byteAt_copyInto_inside (Nat.zero_le _) (by omega) (by omega), frameAt,
    List.getElem?_map, List.getElem?_range inside, Nat.sub_zero]
  rfl

theorem TakesOut.store {consumer : Consumer} (takesOut : TakesOut state consumer)
    {state' : ReceiveState} {other : List UInt8}
    (isStored : state'.stored = state.stored ++ [other])
    (isReturned : state'.returned = state.returned) : TakesOut state' consumer := by
  cases consumer with
  | idle => trivial
  | wait capacity => trivial
  | take capacity =>
      simp only [TakesOut] at takesOut ⊢
      rw [isStored, isReturned, List.length_append]
      omega
  | measure capacity slot =>
      simp only [TakesOut] at takesOut ⊢
      rw [isStored, isReturned, List.length_append]
      exact ⟨takesOut.1, by omega⟩
  | limit capacity slot size =>
      simp only [TakesOut] at takesOut ⊢
      rw [isStored, isReturned]
      rcases takesOut with ⟨isSlot, frame, isFrame, isSize⟩
      exact ⟨isSlot, frame, getElem?_append_some other isFrame, isSize⟩
  | copy capacity slot size out =>
      simp only [TakesOut] at takesOut ⊢
      rw [isStored, isReturned]
      rcases takesOut with ⟨isSlot, frame, isFrame, rest⟩
      exact ⟨isSlot, frame, getElem?_append_some other isFrame, rest⟩

theorem Queued.enqueue (queued : Queued state) (rxRing : Nat → UInt8) {offset size : Nat}
    (fits : size ≤ queueFrameSize) : Queued (enqueue state rxRing offset size) := by
  unfold Drivers.enqueue
  dsimp only
  split
  · exact queued
  · next notFull =>
      have isSlots : queueSlots = 16 := rfl
      have ordered := queued.ordered
      have few := queued.few
      rw [queued.full_iff] at notFull
      constructor
      case ordered =>
        simp only [List.length_append, List.length_singleton]
        omega
      case few =>
        simp only [List.length_append, List.length_singleton]
        omega
      case head =>
        simp only [List.length_append, List.length_singleton, queued.head, nextSlot_slotOf]
      case tail => exact queued.tail
      case holds =>
        intro number frame unreturned isFrame
        dsimp only at unreturned isFrame ⊢
        rcases getElem?_of_append isFrame with wasFrame | ⟨isNew, isLast⟩
        · have inside := (List.getElem?_eq_some_iff.mp wasFrame).1
          have apart : slotOf number ≠ state.head := by
            rw [queued.head]
            intro same
            have equal := (slotOf_eq_iff (by omega) (by omega)).mp same
            omega
          rw [Function.update_of_ne apart]
          exact queued.holds number frame unreturned wasFrame
        · rw [isNew, ← queued.head, Function.update_self, isLast]
          exact holds_copyInto _ rxRing fits
      case takesOut => exact queued.takesOut.store rfl rfl
      case returned =>
        intro number capacity bytes isReturned
        rcases queued.returned number capacity bytes isReturned with
          ⟨frame, isFrame, isBytes⟩
        exact ⟨frame, getElem?_append_some _ isFrame, isBytes⟩

/-- A statement of the task that only changes its own variables. -/
theorem Queued.withConsumer (queued : Queued state) {consumer : Consumer}
    (takesOut : TakesOut state consumer) : Queued { state with consumer } where
  ordered := queued.ordered
  few := queued.few
  head := queued.head
  tail := queued.tail
  holds := queued.holds
  takesOut := by
    cases consumer with
    | idle => trivial
    | wait capacity => trivial
    | take capacity => exact takesOut
    | measure capacity slot => exact takesOut
    | limit capacity slot size => exact takesOut
    | copy capacity slot size out => exact takesOut
  returned := queued.returned

theorem Queued.takeOut (queued : Queued state) {capacity size : Nat}
    {slot : Fin queueSlots} {out : List UInt8}
    (isCopy : state.consumer = .copy capacity slot size out) (isDone : ¬ out.length < size) :
    Queued { state with
      tail := nextSlot state.tail
      consumer := .idle
      returned := state.returned ++ [(capacity, out)] } := by
  have takesOut := queued.takesOut
  rw [isCopy] at takesOut
  rcases takesOut with ⟨_, frame, isFrame, isSize, atMost, isOut⟩
  have inside := (List.getElem?_eq_some_iff.mp isFrame).1
  have few := queued.few
  constructor
  case ordered =>
    simp only [List.length_append, List.length_singleton]
    omega
  case few =>
    simp only [List.length_append, List.length_singleton]
    omega
  case head => exact queued.head
  case tail =>
    simp only [List.length_append, List.length_singleton, queued.tail, nextSlot_slotOf]
  case holds =>
    intro number found unreturned isFound
    simp only [List.length_append, List.length_singleton] at unreturned
    exact queued.holds number found (by omega) isFound
  case takesOut => trivial
  case returned =>
    intro number otherCapacity bytes isReturned
    dsimp only at isReturned ⊢
    rcases getElem?_of_append isReturned with wasReturned | ⟨isNew, isLast⟩
    · exact queued.returned number otherCapacity bytes wasReturned
    · cases isLast
      refine ⟨frame, by rw [isNew]; exact isFrame, ?_⟩
      have isLength : out.length = min capacity frame.length := by omega
      rw [isOut, isLength]
      by_cases short : capacity ≤ frame.length
      · rw [Nat.min_eq_left short]
      · rw [Nat.min_eq_right (by omega), List.take_length,
          List.take_of_length_le (by omega)]

theorem receiveStep_queued {state' : ReceiveState} (queued : Queued state)
    (taken : receiveStep state = some state') : Queued state' := by
  have takesOut := queued.takesOut
  unfold receiveStep at taken
  cases isConsumer : state.consumer with
  | idle =>
      simp only [isConsumer] at taken
      cases taken
  | wait capacity =>
      simp only [isConsumer] at taken
      split at taken
      · next isReady =>
          cases taken
          exact queued.withConsumer (queued.hasFrame_iff.mp isReady)
      · cases taken
  | take capacity =>
      simp only [isConsumer] at taken takesOut
      cases taken
      exact queued.withConsumer ⟨queued.tail, takesOut⟩
  | measure capacity slot =>
      simp only [isConsumer] at taken takesOut
      rcases takesOut with ⟨isSlot, inside⟩
      have isFrame := List.getElem?_eq_getElem inside
      have holds := queued.holds _ _ (Nat.le_refl _) isFrame
      cases taken
      refine queued.withConsumer ⟨isSlot, _, isFrame, ?_⟩
      rw [isSlot]
      exact holds.size
  | limit capacity slot size =>
      simp only [isConsumer] at taken takesOut
      rcases takesOut with ⟨isSlot, frame, isFrame, isSize⟩
      cases taken
      refine queued.withConsumer ⟨isSlot, frame, isFrame, ?_, Nat.zero_le _, rfl⟩
      split
      · omega
      · omega
  | copy capacity slot size out =>
      simp only [isConsumer] at taken takesOut
      split at taken
      · next isMore =>
          rcases takesOut with ⟨isSlot, frame, isFrame, isSize, atMost, isOut⟩
          have holds := queued.holds _ _ (Nat.le_refl _) isFrame
          have isByte := holds.data out.length (by omega)
          cases taken
          refine queued.withConsumer ⟨isSlot, frame, isFrame, isSize, ?_, ?_⟩
          · rw [List.length_append, List.length_singleton]
            omega
          · rw [List.length_append, List.length_singleton, List.take_add_one, ← isOut, isSlot,
              ← isByte]
            rfl
      · next isDone =>
          cases taken
          exact queued.takeOut isConsumer isDone

theorem receiveAction_queued {state' : ReceiveState} {action : ReceiveAction}
    (queued : Queued state) (taken : receiveAction state action = some state') :
    Queued state' := by
  cases action with
  | receive capacity =>
      simp only [receiveAction] at taken
      split at taken
      · cases taken
        exact queued.withConsumer trivial
      · cases taken
  | advance => exact receiveStep_queued queued taken
  | timeout =>
      simp only [receiveAction] at taken
      split at taken
      · cases taken
        exact queued.withConsumer trivial
      · cases taken
  | interrupt rxRing rxOffset length =>
      simp only [receiveAction, drainFrame] at taken
      split at taken
      · cases taken
      · next isGood =>
          cases taken
          have isMax : rxFrameMax = 1522 := rfl
          have isSize : queueFrameSize = 1536 := rfl
          exact queued.enqueue rxRing (by omega)

end Steps

theorem reached_queued {state : ReceiveState} (reached : ReceiveReached state) :
    Queued state := by
  induction reached with
  | init queue =>
      refine ⟨Nat.le_refl _, show 0 < 0 + queueSlots by decide, rfl, rfl, ?_, trivial, ?_⟩
      · intro number frame _ impossible
        cases impossible
      · intro number capacity bytes impossible
        cases impossible
  | step action _ taken queued => exact receiveAction_queued queued taken

/-- The frames that were returned are the first ones of those that were stored, cut to
the capacity of the caller, and a frame is found as long as there are more. A frame is
dropped only when 15 are stored that the task has not released. -/
theorem receiveQueue_fifo {state : ReceiveState} (reached : ReceiveReached state) :
    state.returned.length ≤ state.stored.length ∧
    (∀ (number capacity : Nat) bytes,
      state.returned[number]? = some (capacity, bytes) →
      ∃ frame : List UInt8, state.stored[number]? = some frame ∧
        bytes = frame.take capacity) ∧
    (hasFrame state = true ↔ state.returned.length < state.stored.length) ∧
    ∀ rxRing offset size,
      ((enqueue state rxRing offset size).stored =
          state.stored ++ [frameAt rxRing offset size] ∧
        state.stored.length < state.returned.length + 15) ∨
      (enqueue state rxRing offset size = state ∧
        state.stored.length = state.returned.length + 15) := by
  have queued := reached_queued reached
  have isSlots : queueSlots = 16 := rfl
  have few := queued.few
  refine ⟨queued.ordered, queued.returned, queued.hasFrame_iff, ?_⟩
  intro rxRing offset size
  unfold enqueue
  dsimp only
  by_cases isFull : nextSlot state.head = state.tail
  · rw [if_pos isFull]
    exact Or.inr ⟨rfl, queued.full_iff.mp isFull⟩
  · rw [if_neg isFull]
    refine Or.inl ⟨rfl, ?_⟩
    rw [queued.full_iff] at isFull
    omega

/-- A frame of sevens that a caller with room for two bytes takes out. -/
theorem receiveQueue_sevens :
    ∃ state, ReceiveReached state ∧ state.returned = [(2, [7, 7])] ∧
      state.returned.length ≤ state.stored.length := by
  have start := ReceiveReached.init fun _ => ⟨0, fun _ => 0⟩
  have stored := ReceiveReached.step (.interrupt (fun _ => 7) 0 64) start rfl
  have called := ReceiveReached.step (.receive 2) stored rfl
  have ready := ReceiveReached.step .advance called rfl
  have taken := ReceiveReached.step .advance ready rfl
  have measured := ReceiveReached.step .advance taken rfl
  have limited := ReceiveReached.step .advance measured rfl
  have first := ReceiveReached.step .advance limited rfl
  have second := ReceiveReached.step .advance first rfl
  have released := ReceiveReached.step .advance second rfl
  exact ⟨_, released, rfl, (receiveQueue_fifo released).1⟩

end Katela.Drivers
