import Katela.Foundation.Ring
import Mathlib.Data.Nat.Bitwise
import Mathlib.Logic.Function.Basic

/-! # Sending through the network card

`rtl8139_send` of `drivers/rtl8139.c` with the transmit slots of the card. The card can act
between any two statements of the task that holds `tx_lock`. -/

namespace Katela.Drivers.Transmit

def txSlots : Nat := 4

def txFrameMin : Nat := 60

def txFrameMax : Nat := 1514

def txWaitMs : Nat := 100

def txBufferSize : Nat := 1792

def tsdOwn : UInt32 := 0x2000

/-- The statement of `rtl8139_send` that comes next, with its variables. -/
inductive Sender where
  | idle
  | poll (slot : Fin txSlots) (frame : List UInt8) (waited : Nat)
  | copy (slot : Fin txSlots) (frame : List UInt8) (i : Nat)
  | pad (slot : Fin txSlots) (frame : List UInt8) (length : Nat)
  | address (slot : Fin txSlots) (frame : List UInt8) (length : Nat)
  | start (slot : Fin txSlots) (frame : List UInt8) (length : Nat)
  | advance (slot : Fin txSlots) (frame : List UInt8)

/-- The variables of the driver, the registers of the card, what went over the wire, the
frames that were handed to the card and the results of the calls. -/
structure TxState where
  buffers : Fin txSlots → Nat → UInt8
  txNext : Fin txSlots
  sender : Sender
  tsd : Fin txSlots → UInt32
  /-- The buffer that the address register of a slot points to. -/
  tsad : Fin txSlots → Fin txSlots
  cardNext : Fin txSlots
  /-- What the card has read of the frame that it sends. -/
  fetched : Option (List UInt8)
  wire : List (List UInt8)
  started : List (List UInt8)
  returned : List (List UInt8 × Int)

def nextSlot (slot : Fin txSlots) : Fin txSlots :=
  ⟨(slot.val + 1) % txSlots, Nat.mod_lt _ (by decide)⟩

/-- The card is done with a slot. -/
def owns (tsd : UInt32) : Bool := tsd &&& tsdOwn ≠ 0

def store (state : TxState) (slot : Fin txSlots) (index : Nat) (byte : UInt8) : TxState :=
  { state with
    buffers := Function.update state.buffers slot
      (Function.update (state.buffers slot) index byte) }

/-- The next statement of `rtl8139_send`. -/
def sendStep (state : TxState) : Option TxState :=
  match state.sender with
  | .idle => none
  | .poll slot frame waited =>
      if owns (state.tsd slot) then some { state with sender := .copy slot frame 0 }
      else if waited + 1 > txWaitMs then
        some { state with sender := .idle, returned := state.returned ++ [(frame, -1)] }
      else some { state with sender := .poll slot frame (waited + 1) }
  | .copy slot frame i =>
      match frame[i]? with
      | some byte => some { store state slot i byte with sender := .copy slot frame (i + 1) }
      | none => some { state with sender := .pad slot frame frame.length }
  | .pad slot frame length =>
      if length < txFrameMin then
        some { store state slot length 0 with sender := .pad slot frame (length + 1) }
      else some { state with sender := .address slot frame length }
  | .address slot frame length =>
      some { state with
        tsad := Function.update state.tsad slot slot
        sender := .start slot frame length }
  | .start slot frame length =>
      some { state with
        tsd := Function.update state.tsd slot (UInt32.ofNat length)
        started := state.started ++ [frame]
        sender := .advance slot frame }
  | .advance slot frame =>
      some { state with
        txNext := nextSlot slot
        sender := .idle
        returned := state.returned ++ [(frame, (frame.length : Int))] }

inductive TxAction where
  | send (frame : List UInt8)
  | advance
  /-- The card reads the buffer of the slot that it is at. -/
  | fetch
  /-- The card has sent it. -/
  | complete

def txAction (state : TxState) : TxAction → Option TxState
  | .send frame =>
      if frame.length = 0 ∨ frame.length > txFrameMax then
        some { state with returned := state.returned ++ [(frame, -1)] }
      else
        -- `mutex_lock` waits while another call has `tx_lock`.
        match state.sender with
        | .idle => some { state with sender := .poll state.txNext frame 0 }
        | _ => none
  | .advance => sendStep state
  | .fetch =>
      let tsd := state.tsd state.cardNext
      if owns tsd then none
      else
        let buffer := state.buffers (state.tsad state.cardNext)
        some { state with
          fetched := some ((List.range (tsd &&& 0x1FFF).toNat).map buffer) }
  | .complete =>
      state.fetched.map fun bytes =>
        { state with
          wire := state.wire ++ [bytes]
          tsd := Function.update state.tsd state.cardNext
            (state.tsd state.cardNext ||| 0xA000)
          cardNext := nextSlot state.cardNext
          fetched := none }

/-- The states that are reached from a card that was reset. -/
inductive TxReached : TxState → Prop where
  | init (buffers : Fin txSlots → Nat → UInt8) (tsad : Fin txSlots → Fin txSlots) :
      TxReached ⟨buffers, ⟨0, by decide⟩, .idle, fun _ => tsdOwn, tsad, ⟨0, by decide⟩, none, [],
        [], []⟩
  | step {state state' : TxState} (action : TxAction) (before : TxReached state)
      (taken : txAction state action = some state') : TxReached state'

/-- A frame as it is sent. -/
def padded (frame : List UInt8) : List UInt8 :=
  frame ++ List.replicate (txFrameMin - frame.length) 0

/-! ## What every step keeps -/

/-- The slot of the frame with a number. -/
def slotOf (number : Nat) : Fin txSlots := ⟨number % txSlots, Nat.mod_lt _ (by decide)⟩

theorem nextSlot_slotOf (number : Nat) : nextSlot (slotOf number) = slotOf (number + 1) :=
  Fin.ext (next_slot txSlots number)

theorem slotOf_eq_iff {first second : Nat} (ordered : first ≤ second)
    (near : second < first + txSlots) : slotOf first = slotOf second ↔ first = second := by
  rw [← slot_eq_iff ordered near]
  exact Fin.ext_iff

/-- The front of a buffer has the front of a frame. -/
def Front (buffer : Nat → UInt8) (frame : List UInt8) (count : Nat) : Prop :=
  ∀ index, index < count → some (buffer index) = (padded frame)[index]?

/-- The card can send a frame out of a slot. -/
structure Loaded (state : TxState) (slot : Fin txSlots) (frame : List UInt8) : Prop where
  tsd : state.tsd slot = UInt32.ofNat (padded frame).length
  tsad : state.tsad slot = slot
  front : Front (state.buffers slot) frame (padded frame).length

/-- The size of a frame that is sent. -/
def Sized (frame : List UInt8) : Prop := 0 < frame.length ∧ frame.length ≤ txFrameMax

/-- The slot that the task fills is not in use. -/
structure Fills (state : TxState) (slot : Fin txSlots) (frame : List UInt8) (count : Nat) :
    Prop where
  next : slot = slotOf state.started.length
  room : state.started.length < state.wire.length + txSlots
  sized : Sized frame
  front : Front (state.buffers slot) frame count

/-- What the task knows of the slots. -/
def Knows (state : TxState) : Sender → Prop
  | .idle => True
  | .poll slot frame _ => slot = slotOf state.started.length ∧ Sized frame
  | .copy slot frame i => Fills state slot frame i ∧ i ≤ frame.length
  | .pad slot frame length => Fills state slot frame length ∧ frame.length ≤ length ∧
      length ≤ max frame.length txFrameMin
  | .address slot frame length => Fills state slot frame length ∧ length = (padded frame).length
  | .start slot frame length => Fills state slot frame length ∧
      length = (padded frame).length ∧ state.tsad slot = slot
  | .advance slot frame => ∃ before, state.started = before ++ [frame] ∧
      slot = slotOf before.length

/-- The frames for which `tx_next` was moved on. -/
def Sender.moved (started : List (List UInt8)) : Sender → List (List UInt8)
  | .advance .. => started.dropLast
  | _ => started

/-- The frames of the calls that succeeded. -/
def succeeded (returned : List (List UInt8 × Int)) : List (List UInt8) :=
  (returned.filter fun result => 0 ≤ result.2).map Prod.fst

/-- The card has the frames that were handed to it and that it has not sent yet, in order. -/
structure Ordered (state : TxState) : Prop where
  ordered : state.wire.length ≤ state.started.length
  few : state.started.length ≤ state.wire.length + txSlots
  card : state.cardNext = slotOf state.wire.length
  next : state.txNext = slotOf (state.sender.moved state.started).length
  free : ∀ number, state.started.length ≤ number → number < state.wire.length + txSlots →
    owns (state.tsd (slotOf number)) = true
  loaded : ∀ number frame, state.wire.length ≤ number →
    state.started[number]? = some frame → Loaded state (slotOf number) frame
  fetched : ∀ bytes, state.fetched = some bytes →
    ∃ frame, state.started[state.wire.length]? = some frame ∧ bytes = padded frame
  wire : ∀ (number : Nat) bytes, state.wire[number]? = some bytes →
    ∃ frame, state.started[number]? = some frame ∧ bytes = padded frame
  sized : ∀ frame ∈ state.started, Sized frame
  knows : Knows state state.sender
  returned : succeeded state.returned = state.sender.moved state.started

section Registers

variable {frame : List UInt8} {length : Nat}

theorem owns_reset : owns tsdOwn = true := by decide

theorem owns_iff (tsd : UInt32) : owns tsd = true ↔ tsd.toNat.testBit 13 = true := by
  have isOwn : tsdOwn.toNat = 2 ^ 13 := rfl
  rw [owns, decide_eq_true_iff, ne_eq, ← UInt32.toNat_inj, UInt32.toNat_and, isOwn,
    Nat.and_two_pow]
  cases tsd.toNat.testBit 13 <;> decide

theorem owns_complete (tsd : UInt32) : owns (tsd ||| 0xA000) = true := by
  rw [owns_iff, UInt32.toNat_or, Nat.testBit_or]
  have isSet : (0xA000 : UInt32).toNat.testBit 13 = true := by decide
  rw [isSet, Bool.or_true]

theorem owns_started (small : length ≤ txFrameMax) : owns (UInt32.ofNat length) = false := by
  have isMax : txFrameMax = 1514 := rfl
  rw [← Bool.not_eq_true, owns_iff, UInt32.toNat_ofNat_of_lt' (by change length < 2 ^ 32; omega),
    Bool.not_eq_true]
  exact Nat.testBit_lt_two_pow (by omega)

theorem size_started (small : length ≤ txFrameMax) :
    (UInt32.ofNat length &&& 0x1FFF).toNat = length := by
  have isMax : txFrameMax = 1514 := rfl
  have isMask : (0x1FFF : UInt32).toNat = 2 ^ 13 - 1 := rfl
  rw [UInt32.toNat_and, UInt32.toNat_ofNat_of_lt' (by change length < 2 ^ 32; omega), isMask,
    Nat.and_two_pow_sub_one_eq_mod, Nat.mod_eq_of_lt (by omega)]

end Registers

section Padding

variable {frame : List UInt8}

theorem length_padded (frame : List UInt8) :
    (padded frame).length = max frame.length txFrameMin := by
  rw [padded, List.length_append, List.length_replicate]
  omega

theorem Sized.padded (sized : Sized frame) : (padded frame).length ≤ txFrameMax := by
  have isMin : txFrameMin = 60 := rfl
  have isMax : txFrameMax = 1514 := rfl
  have atMost := sized.2
  rw [length_padded]
  omega

theorem padded_byte {index : Nat} {byte : UInt8} (isByte : frame[index]? = some byte) :
    (Transmit.padded frame)[index]? = some byte := by
  have inside := (List.getElem?_eq_some_iff.mp isByte).1
  rw [Transmit.padded, List.getElem?_append_left inside]
  exact isByte

theorem padded_zero {index : Nat} (after : frame.length ≤ index) (inside : index < txFrameMin) :
    (Transmit.padded frame)[index]? = some 0 := by
  rw [Transmit.padded, List.getElem?_append_right after, List.getElem?_replicate,
    if_pos (by omega)]

theorem Front.update {buffer : Nat → UInt8} {count : Nat} {byte : UInt8}
    (front : Front buffer frame count) (isByte : (Transmit.padded frame)[count]? = some byte) :
    Front (Function.update buffer count byte) frame (count + 1) := by
  intro index inside
  by_cases isLast : index = count
  · rw [isLast, Function.update_self, isByte]
  · rw [Function.update_of_ne isLast]
    exact front index (by omega)

/-- What the card reads of a buffer. -/
theorem Front.read {buffer : Nat → UInt8}
    (front : Front buffer frame (Transmit.padded frame).length) :
    (List.range (Transmit.padded frame).length).map buffer = Transmit.padded frame := by
  apply List.ext_getElem?
  intro index
  rw [List.getElem?_map]
  by_cases inside : index < (Transmit.padded frame).length
  · rw [List.getElem?_range inside]
    exact front index inside
  · rw [List.getElem?_eq_none (by rw [List.length_range]; omega),
      List.getElem?_eq_none (by omega)]
    rfl

end Padding

section Steps

variable {state state' : TxState} {slot : Fin txSlots} {frame : List UInt8}

/-- What the task knows is kept by a step of the card. -/
theorem Knows.carry {sender : Sender} (knows : Knows state sender)
    (started : state'.started = state.started) (buffers : state'.buffers = state.buffers)
    (tsad : state'.tsad = state.tsad) (sent : state.wire.length ≤ state'.wire.length) :
    Knows state' sender := by
  have carry : ∀ {slot : Fin txSlots} {frame : List UInt8} {count : Nat},
      Fills state slot frame count → Fills state' slot frame count := by
    intro slot frame count fills
    refine ⟨?_, ?_, fills.sized, ?_⟩
    · rw [started]
      exact fills.next
    · have room := fills.room
      rw [started]
      omega
    · rw [buffers]
      exact fills.front
  cases sender with
  | idle => trivial
  | poll slot frame waited =>
      simp only [Knows, started] at knows ⊢
      exact knows
  | copy slot frame i => exact ⟨carry knows.1, knows.2⟩
  | pad slot frame length => exact ⟨carry knows.1, knows.2⟩
  | address slot frame length => exact ⟨carry knows.1, knows.2⟩
  | start slot frame length =>
      rcases knows with ⟨fills, isLength, isAddress⟩
      exact ⟨carry fills, isLength, by rw [tsad]; exact isAddress⟩
  | advance slot frame =>
      simp only [Knows, started] at knows ⊢
      exact knows

/-- A statement of the task that only changes its own variables. -/
theorem Ordered.withSender (ordered : Ordered state) (sender : Sender)
    (knows : Knows state sender)
    (moved : sender.moved state.started = state.sender.moved state.started) :
    Ordered { state with sender } where
  ordered := ordered.ordered
  few := ordered.few
  card := ordered.card
  next := by rw [moved]; exact ordered.next
  free := ordered.free
  loaded := fun number frame unsent isFrame =>
    let loaded := ordered.loaded number frame unsent isFrame
    ⟨loaded.tsd, loaded.tsad, loaded.front⟩
  fetched := ordered.fetched
  wire := ordered.wire
  sized := ordered.sized
  knows := knows.carry rfl rfl rfl (Nat.le_refl _)
  returned := by rw [moved]; exact ordered.returned

/-- A call that fails. -/
theorem Ordered.fail (ordered : Ordered state) (frame : List UInt8) :
    Ordered { state with returned := state.returned ++ [(frame, -1)] } where
  ordered := ordered.ordered
  few := ordered.few
  card := ordered.card
  next := ordered.next
  free := ordered.free
  loaded := fun number frame unsent isFrame =>
    let loaded := ordered.loaded number frame unsent isFrame
    ⟨loaded.tsd, loaded.tsad, loaded.front⟩
  fetched := ordered.fetched
  wire := ordered.wire
  sized := ordered.sized
  knows := ordered.knows.carry rfl rfl rfl (Nat.le_refl _)
  returned := by
    rw [← ordered.returned, succeeded, succeeded, List.filter_append]
    simp

/-- The slot of a frame that the card has not sent yet is not the one of the next frame. -/
theorem slotOf_ne {number : Nat} (unsent : state.wire.length ≤ number)
    (isFrame : state.started[number]? = some frame)
    (room : state.started.length < state.wire.length + txSlots) :
    slotOf number ≠ slotOf state.started.length := by
  have inside := (List.getElem?_eq_some_iff.mp isFrame).1
  rw [ne_eq, slotOf_eq_iff (by omega) (by omega)]
  omega

/-- A byte that the task stores in the slot that it fills. -/
theorem Ordered.store (ordered : Ordered state) {sender : Sender} {count : Nat} {byte : UInt8}
    (fills : Fills state slot frame count) (isByte : (padded frame)[count]? = some byte)
    (knows : Fills (store state slot count byte) slot frame (count + 1) →
      Knows (store state slot count byte) sender)
    (moved : sender.moved state.started = state.started)
    (notMoved : state.sender.moved state.started = state.started) :
    Ordered { store state slot count byte with sender } where
  ordered := ordered.ordered
  few := ordered.few
  card := ordered.card
  next := by
    have next := ordered.next
    rw [notMoved] at next
    change state.txNext = slotOf (sender.moved state.started).length
    rw [moved]
    exact next
  free := ordered.free
  loaded := by
    intro number other unsent isFrame
    have loaded := ordered.loaded number other unsent isFrame
    have apart : slotOf number ≠ slotOf state.started.length :=
      slotOf_ne unsent isFrame fills.room
    rw [← fills.next] at apart
    refine ⟨loaded.tsd, loaded.tsad, ?_⟩
    change Front (Function.update state.buffers slot _ (slotOf number)) other _
    rw [Function.update_of_ne apart]
    exact loaded.front
  fetched := ordered.fetched
  wire := ordered.wire
  sized := ordered.sized
  knows := by
    refine (knows ⟨fills.next, fills.room, fills.sized, ?_⟩).carry rfl rfl rfl (Nat.le_refl _)
    change Front (Function.update state.buffers slot _ slot) frame (count + 1)
    rw [Function.update_self]
    exact fills.front.update isByte
  returned := by
    have returned := ordered.returned
    rw [notMoved] at returned
    change succeeded state.returned = sender.moved state.started
    rw [moved]
    exact returned

/-- The task sets the address of the slot. -/
theorem Ordered.address (ordered : Ordered state) {length : Nat}
    (isAddress : state.sender = .address slot frame length) :
    Ordered { state with
      tsad := Function.update state.tsad slot slot
      sender := .start slot frame length } := by
  have knows := ordered.knows
  have moved : state.sender.moved state.started = state.started := by rw [isAddress]; rfl
  rw [isAddress] at knows
  rcases knows with ⟨fills, isLength⟩
  constructor
  case ordered => exact ordered.ordered
  case few => exact ordered.few
  case card => exact ordered.card
  case next =>
    have next := ordered.next
    rw [moved] at next
    exact next
  case free => exact ordered.free
  case loaded =>
    intro number other unsent isFrame
    have loaded := ordered.loaded number other unsent isFrame
    have apart := slotOf_ne unsent isFrame fills.room
    rw [← fills.next] at apart
    refine ⟨loaded.tsd, ?_, loaded.front⟩
    dsimp only
    rw [Function.update_of_ne apart]
    exact loaded.tsad
  case fetched => exact ordered.fetched
  case wire => exact ordered.wire
  case sized => exact ordered.sized
  case knows =>
    exact ⟨⟨fills.next, fills.room, fills.sized, fills.front⟩, isLength,
      Function.update_self ..⟩
  case returned =>
    have returned := ordered.returned
    rw [moved] at returned
    exact returned

/-- The task hands the slot to the card. -/
theorem Ordered.start (ordered : Ordered state) {length : Nat}
    (isStart : state.sender = .start slot frame length) :
    Ordered { state with
      tsd := Function.update state.tsd slot (UInt32.ofNat length)
      started := state.started ++ [frame]
      sender := .advance slot frame } := by
  have knows := ordered.knows
  have before := ordered.ordered
  have moved : state.sender.moved state.started = state.started := by rw [isStart]; rfl
  rw [isStart] at knows
  rcases knows with ⟨fills, isLength, isAddress⟩
  have room := fills.room
  constructor
  case ordered =>
    dsimp only
    rw [List.length_append, List.length_singleton]
    omega
  case few =>
    dsimp only
    rw [List.length_append, List.length_singleton]
    omega
  case card => exact ordered.card
  case next =>
    have next := ordered.next
    rw [moved] at next
    rw [Sender.moved, List.dropLast_concat]
    exact next
  case free =>
    intro number unused near
    dsimp only at unused near ⊢
    rw [List.length_append, List.length_singleton] at unused
    have apart : slotOf number ≠ slot := by
      rw [fills.next, ne_comm, ne_eq, slotOf_eq_iff (by omega) (by omega)]
      omega
    rw [Function.update_of_ne apart]
    exact ordered.free number (by omega) near
  case loaded =>
    intro number other unsent isFrame
    dsimp only at unsent isFrame
    rcases getElem?_of_append isFrame with wasFrame | ⟨isNew, isLast⟩
    · have loaded := ordered.loaded number other unsent wasFrame
      have apart := slotOf_ne unsent wasFrame fills.room
      rw [← fills.next] at apart
      refine ⟨?_, loaded.tsad, loaded.front⟩
      dsimp only
      rw [Function.update_of_ne apart]
      exact loaded.tsd
    · rw [isNew, ← fills.next, isLast]
      refine ⟨?_, isAddress, ?_⟩
      · dsimp only
        rw [Function.update_self, isLength]
      · have front := fills.front
        rw [isLength] at front
        exact front
  case fetched =>
    intro bytes isFetched
    rcases ordered.fetched bytes isFetched with ⟨other, isFrame, isBytes⟩
    exact ⟨other, getElem?_append_some frame isFrame, isBytes⟩
  case wire =>
    intro number bytes isSent
    rcases ordered.wire number bytes isSent with ⟨other, isFrame, isBytes⟩
    exact ⟨other, getElem?_append_some frame isFrame, isBytes⟩
  case sized =>
    intro other isFrame
    rcases List.mem_append.mp isFrame with wasFrame | isLast
    · exact ordered.sized other wasFrame
    · rw [List.mem_singleton.mp isLast]
      exact fills.sized
  case knows => exact ⟨state.started, rfl, fills.next⟩
  case returned =>
    have returned := ordered.returned
    rw [moved] at returned
    rw [Sender.moved, List.dropLast_concat]
    exact returned

/-- The task returns. -/
theorem Ordered.advance (ordered : Ordered state)
    (isAdvance : state.sender = .advance slot frame) :
    Ordered { state with
      txNext := nextSlot slot
      sender := .idle
      returned := state.returned ++ [(frame, (frame.length : Int))] } := by
  have knows := ordered.knows
  have returned := ordered.returned
  rw [isAdvance] at knows returned
  rcases knows with ⟨before, isStarted, isSlot⟩
  rw [isStarted, Sender.moved, List.dropLast_concat] at returned
  exact {
    ordered := ordered.ordered
    few := ordered.few
    card := ordered.card
    next := by
      change nextSlot slot = slotOf state.started.length
      rw [isStarted, isSlot, nextSlot_slotOf, List.length_append, List.length_singleton]
    free := ordered.free
    loaded := fun number frame unsent isFrame =>
      let loaded := ordered.loaded number frame unsent isFrame
      ⟨loaded.tsd, loaded.tsad, loaded.front⟩
    fetched := ordered.fetched
    wire := ordered.wire
    sized := ordered.sized
    knows := trivial
    returned := by
      change succeeded (state.returned ++ [(frame, (frame.length : Int))]) = state.started
      rw [succeeded, List.filter_append, List.map_append, ← succeeded, returned, isStarted]
      simp }

/-- The card has something to send only when a frame was handed to it. -/
theorem Ordered.pending (ordered : Ordered state)
    (isStarted : owns (state.tsd state.cardNext) = false) :
    ∃ frame, state.started[state.wire.length]? = some frame ∧
      Loaded state state.cardNext frame := by
  have isSlots : txSlots = 4 := rfl
  have inside : state.wire.length < state.started.length := by
    by_contra done
    have free := ordered.free state.wire.length (by omega) (by omega)
    rw [← ordered.card, isStarted] at free
    exact Bool.false_ne_true free
  have isFrame := List.getElem?_eq_getElem inside
  refine ⟨_, isFrame, ?_⟩
  rw [ordered.card]
  exact ordered.loaded _ _ (Nat.le_refl _) isFrame

/-- What the card reads is the frame that it sends. -/
theorem Loaded.read (loaded : Loaded state slot frame) (sized : Sized frame) :
    (List.range (state.tsd slot &&& 0x1FFF).toNat).map (state.buffers (state.tsad slot)) =
      padded frame := by
  rw [loaded.tsd, loaded.tsad, size_started sized.padded]
  exact loaded.front.read

theorem Ordered.fetch (ordered : Ordered state)
    (isStarted : owns (state.tsd state.cardNext) = false) :
    Ordered { state with
      fetched := some ((List.range (state.tsd state.cardNext &&& 0x1FFF).toNat).map
        (state.buffers (state.tsad state.cardNext))) } where
  ordered := ordered.ordered
  few := ordered.few
  card := ordered.card
  next := ordered.next
  free := ordered.free
  loaded := fun number frame unsent isFrame =>
    let loaded := ordered.loaded number frame unsent isFrame
    ⟨loaded.tsd, loaded.tsad, loaded.front⟩
  fetched := by
    rintro bytes ⟨⟩
    rcases ordered.pending isStarted with ⟨frame, isFrame, loaded⟩
    exact ⟨frame, isFrame, loaded.read (ordered.sized frame (List.mem_of_getElem? isFrame))⟩
  wire := ordered.wire
  sized := ordered.sized
  knows := ordered.knows.carry rfl rfl rfl (Nat.le_refl _)
  returned := ordered.returned

theorem Ordered.complete (ordered : Ordered state) {bytes : List UInt8}
    (isFetched : state.fetched = some bytes) :
    Ordered { state with
      wire := state.wire ++ [bytes]
      tsd := Function.update state.tsd state.cardNext
        (state.tsd state.cardNext ||| 0xA000)
      cardNext := nextSlot state.cardNext
      fetched := none } := by
  have isSlots : txSlots = 4 := rfl
  have few := ordered.few
  rcases ordered.fetched bytes isFetched with ⟨frame, isFrame, isBytes⟩
  have inside := (List.getElem?_eq_some_iff.mp isFrame).1
  constructor
  case ordered =>
    dsimp only
    rw [List.length_append, List.length_singleton]
    omega
  case few =>
    dsimp only
    rw [List.length_append, List.length_singleton]
    omega
  case card =>
    dsimp only
    rw [ordered.card, nextSlot_slotOf, List.length_append, List.length_singleton]
  case next => exact ordered.next
  case free =>
    intro number unused near
    dsimp only at unused near ⊢
    rw [List.length_append, List.length_singleton] at near
    by_cases isLast : slotOf number = state.cardNext
    · rw [isLast, Function.update_self]
      exact owns_complete _
    · rw [Function.update_of_ne isLast]
      -- A number a whole turn further would lie in the slot of the card.
      have notTurn : number ≠ state.wire.length + txSlots := by
        rintro rfl
        apply isLast
        rw [ordered.card]
        exact Fin.ext (Nat.add_mod_right _ _)
      exact ordered.free number unused (by omega)
  case loaded =>
    intro number other unsent isOther
    dsimp only at unsent isOther
    rw [List.length_append, List.length_singleton] at unsent
    have loaded := ordered.loaded number other (by omega) isOther
    have isNumber := (List.getElem?_eq_some_iff.mp isOther).1
    have apart : slotOf number ≠ state.cardNext := by
      rw [ordered.card, ne_comm, ne_eq, slotOf_eq_iff (by omega) (by omega)]
      omega
    refine ⟨?_, loaded.tsad, loaded.front⟩
    dsimp only
    rw [Function.update_of_ne apart]
    exact loaded.tsd
  case fetched => rintro other ⟨⟩
  case wire =>
    intro number other isSent
    rcases getElem?_of_append isSent with wasSent | ⟨isNew, isLast⟩
    · exact ordered.wire number other wasSent
    · exact ⟨frame, by rw [isNew]; exact isFrame, by rw [isLast]; exact isBytes⟩
  case sized => exact ordered.sized
  case knows =>
    refine ordered.knows.carry rfl rfl rfl ?_
    dsimp only
    rw [List.length_append]
    omega
  case returned => exact ordered.returned

/-- A slot that the card is done with is not in use by an earlier frame. -/
theorem Ordered.room (ordered : Ordered state)
    (isOwned : owns (state.tsd (slotOf state.started.length)) = true) :
    state.started.length < state.wire.length + txSlots := by
  have isSlots : txSlots = 4 := rfl
  by_contra full
  have few := ordered.few
  have isFull : state.started.length = state.wire.length + txSlots := by omega
  have isFrame := List.getElem?_eq_getElem (l := state.started) (i := state.wire.length) (by omega)
  have loaded := ordered.loaded _ _ (Nat.le_refl _) isFrame
  have same : slotOf state.started.length = slotOf state.wire.length := by
    rw [isFull]
    exact Fin.ext (Nat.add_mod_right _ _)
  have sized := ordered.sized _ (List.mem_of_getElem? isFrame)
  rw [same, loaded.tsd, owns_started sized.padded] at isOwned
  exact Bool.false_ne_true isOwned

/-- Every statement of `rtl8139_send` keeps the frames in order. -/
theorem Ordered.sendStep (ordered : Ordered state) (taken : sendStep state = some state') :
    Ordered state' := by
  have knows := ordered.knows
  unfold Transmit.sendStep at taken
  cases isSender : state.sender with
  | idle =>
      rw [isSender] at taken
      cases taken
  | poll slot frame waited =>
      rw [isSender] at taken knows
      rcases knows with ⟨isSlot, sized⟩
      dsimp only at taken
      split at taken
      · next isOwned =>
          cases taken
          have room : state.started.length < state.wire.length + txSlots := by
            apply ordered.room
            rw [← isSlot]
            exact isOwned
          have fills : Fills state slot frame 0 :=
            ⟨isSlot, room, sized, fun _ inside => absurd inside (Nat.not_lt_zero _)⟩
          exact ordered.withSender (.copy slot frame 0) ⟨fills, Nat.zero_le _⟩
            (by rw [isSender]; rfl)
      · split at taken
        · cases taken
          exact (ordered.withSender .idle trivial (by rw [isSender]; rfl)).fail frame
        · cases taken
          exact ordered.withSender (.poll slot frame (waited + 1)) ⟨isSlot, sized⟩
            (by rw [isSender]; rfl)
  | copy slot frame i =>
      rw [isSender] at taken knows
      rcases knows with ⟨fills, atMost⟩
      dsimp only at taken
      split at taken
      · next byte isByte =>
          cases taken
          have inside := (List.getElem?_eq_some_iff.mp isByte).1
          exact ordered.store fills (padded_byte isByte)
            (fun stored => ⟨stored, inside⟩) rfl (by rw [isSender]; rfl)
      · next isEnd =>
          cases taken
          have isLast : i = frame.length := by
            have atLeast := List.getElem?_eq_none_iff.mp isEnd
            omega
          rw [isLast] at fills
          exact ordered.withSender (.pad slot frame frame.length)
            ⟨fills, Nat.le_refl _, Nat.le_max_left ..⟩ (by rw [isSender]; rfl)
  | pad slot frame length =>
      rw [isSender] at taken knows
      rcases knows with ⟨fills, atLeast, atMost⟩
      dsimp only at taken
      split at taken
      · next isShort =>
          cases taken
          exact ordered.store fills (padded_zero atLeast isShort)
            (fun stored => ⟨stored, by omega, by omega⟩) rfl (by rw [isSender]; rfl)
      · next isLong =>
          cases taken
          exact ordered.withSender (.address slot frame length)
            ⟨fills, by rw [length_padded]; omega⟩ (by rw [isSender]; rfl)
  | address slot frame length =>
      rw [isSender] at taken
      cases taken
      exact ordered.address isSender
  | start slot frame length =>
      rw [isSender] at taken
      cases taken
      exact ordered.start isSender
  | advance slot frame =>
      rw [isSender] at taken
      cases taken
      exact ordered.advance isSender

theorem Ordered.txAction {action : TxAction} (ordered : Ordered state)
    (taken : txAction state action = some state') : Ordered state' := by
  cases action with
  | send frame =>
      simp only [Transmit.txAction] at taken
      split at taken
      · cases taken
        exact ordered.fail frame
      · next isSized =>
          rcases not_or.mp isSized with ⟨notEmpty, notLong⟩
          cases isSender : state.sender with
          | idle =>
              rw [isSender] at taken
              cases taken
              have next := ordered.next
              rw [isSender] at next
              exact ordered.withSender (.poll state.txNext frame 0)
                ⟨next, by omega, by omega⟩ (by rw [isSender]; rfl)
          | poll | copy | pad | address | start | advance =>
              rw [isSender] at taken
              cases taken
  | advance => exact ordered.sendStep taken
  | fetch =>
      simp only [Transmit.txAction] at taken
      split at taken
      · cases taken
      · next notOwned =>
          cases taken
          exact ordered.fetch (Bool.eq_false_iff.mpr notOwned)
  | complete =>
      simp only [Transmit.txAction] at taken
      cases isFetched : state.fetched with
      | none =>
          rw [isFetched] at taken
          cases taken
      | some bytes =>
          rw [isFetched] at taken
          cases taken
          exact ordered.complete isFetched

theorem TxReached.ordered (reached : TxReached state) : Ordered state := by
  induction reached with
  | init buffers tsad =>
      constructor
      case ordered => exact Nat.le_refl _
      case few => exact Nat.zero_le _
      case card => rfl
      case next => rfl
      case free => exact fun _ _ _ => owns_reset
      case loaded => exact fun _ _ _ isFrame => by cases isFrame
      case fetched => exact fun _ isFetched => by cases isFetched
      case wire => exact fun _ _ isSent => by cases isSent
      case sized => exact fun _ isFrame => by cases isFrame
      case knows => trivial
      case returned => rfl
  | step action before taken ordered => exact ordered.txAction taken

end Steps

/-! ## What goes over the wire -/

section Wire

variable {state state' : TxState}

theorem Ordered.wire_eq (ordered : Ordered state) :
    state.wire = (state.started.take state.wire.length).map padded := by
  apply List.ext_getElem?
  intro number
  rw [List.getElem?_map]
  by_cases inside : number < state.wire.length
  · have isSent := List.getElem?_eq_getElem inside
    rcases ordered.wire number _ isSent with ⟨frame, isFrame, isBytes⟩
    rw [List.getElem?_take_of_lt inside, isFrame, isSent, isBytes]
    rfl
  · rw [List.getElem?_eq_none (by omega), List.getElem?_eq_none (by
      rw [List.length_take]
      omega)]
    rfl

/-- A call only writes to a buffer that the card is done with, and inside it. -/
theorem Ordered.writes (ordered : Ordered state) (taken : Transmit.sendStep state = some state')
    {slot : Fin txSlots} {index : Nat}
    (isWritten : state'.buffers slot index ≠ state.buffers slot index) :
    owns (state.tsd slot) = true ∧ index < txBufferSize := by
  have isSize : txBufferSize = 1792 := rfl
  have isMin : txFrameMin = 60 := rfl
  have isMax : txFrameMax = 1514 := rfl
  have knows := ordered.knows
  -- The only places that a step stores to are those of `store`.
  have stored : ∀ {place : Fin txSlots} {frame : List UInt8} {count : Nat} {byte : UInt8}
      {sender : Sender}, Fills state place frame count → count < txBufferSize →
      { Transmit.store state place count byte with sender }.buffers slot index ≠
        state.buffers slot index → owns (state.tsd slot) = true ∧ index < txBufferSize := by
    intro place frame count byte sender fills inside isWritten
    change Function.update state.buffers place (Function.update (state.buffers place) count byte)
      slot index ≠ _ at isWritten
    by_cases isPlace : slot = place
    · rw [isPlace, Function.update_self] at isWritten
      by_cases isIndex : index = count
      · rw [isPlace, isIndex, fills.next]
        exact ⟨ordered.free _ (Nat.le_refl _) fills.room, inside⟩
      · rw [Function.update_of_ne isIndex] at isWritten
        exact absurd rfl isWritten
    · rw [Function.update_of_ne isPlace] at isWritten
      exact absurd rfl isWritten
  unfold Transmit.sendStep at taken
  cases isSender : state.sender with
  | idle =>
      rw [isSender] at taken
      cases taken
  | poll place frame waited =>
      rw [isSender] at taken
      dsimp only at taken
      split at taken
      · cases taken
        exact absurd rfl isWritten
      · split at taken
        all_goals
          cases taken
          exact absurd rfl isWritten
  | copy place frame i =>
      rw [isSender] at taken knows
      dsimp only at taken
      split at taken
      · next byte isByte =>
          cases taken
          have inside := (List.getElem?_eq_some_iff.mp isByte).1
          have small := knows.1.sized.2
          exact stored knows.1 (by omega) isWritten
      · cases taken
        exact absurd rfl isWritten
  | pad place frame length =>
      rw [isSender] at taken knows
      dsimp only at taken
      split at taken
      · cases taken
        exact stored knows.1 (by omega) isWritten
      · cases taken
        exact absurd rfl isWritten
  | address place frame length | start place frame length | advance place frame =>
      rw [isSender] at taken
      cases taken
      exact absurd rfl isWritten

/-- Statements of the task with no step of the card between them. -/
def advances : Nat → TxState → Option TxState
  | 0, state => some state
  | count + 1, state => (txAction state .advance).bind (advances count)

theorem TxReached.advances {count : Nat} (reached : TxReached state)
    (taken : advances count state = some state') : TxReached state' := by
  induction count generalizing state with
  | zero =>
      cases taken
      exact reached
  | succ count continues =>
      rcases Option.bind_eq_some_iff.mp taken with ⟨between, first, rest⟩
      exact continues (reached.step .advance first) rest

/-- The frames of the calls that returned go over the wire in order, each of them once and
with its bytes, and only those: at most four of them wait for the card, and one more may be
with the call that is about to return. -/
theorem sent_in_order (reached : TxReached state) :
    (∃ last, state.started = succeeded state.returned ++ last ∧ last.length ≤ 1 ∧
      (state.sender = .idle → last = [])) ∧
    state.wire = (state.started.take state.wire.length).map padded ∧
    state.wire.length ≤ state.started.length ∧
    state.started.length ≤ state.wire.length + txSlots ∧
    ∀ state', sendStep state = some state' → ∀ slot index,
      state'.buffers slot index ≠ state.buffers slot index →
        owns (state.tsd slot) = true ∧ index < txBufferSize := by
  have ordered := reached.ordered
  refine ⟨?_, ordered.wire_eq, ordered.ordered, ordered.few, ?_⟩
  · rw [ordered.returned]
    have knows := ordered.knows
    cases isSender : state.sender with
    | advance slot frame =>
        rw [isSender] at knows
        rcases knows with ⟨before, isStarted, _⟩
        refine ⟨[frame], ?_, Nat.le_refl _, nofun⟩
        rw [Sender.moved, isStarted, List.dropLast_concat]
    | idle | poll | copy | pad | address | start =>
        exact ⟨[], (List.append_nil _).symm, Nat.zero_le _, fun _ => rfl⟩
  · intro state' taken slot index isWritten
    exact ordered.writes taken isWritten

/-- A frame of one byte is sent with 59 zeros behind it. -/
theorem seven_sent : ∃ state, TxReached state ∧ state.sender = .idle ∧
    state.returned = [([7], 1)] ∧ state.wire = [7 :: List.replicate 59 0] := by
  have start := TxReached.init (fun _ _ => 0) fun _ => ⟨0, by decide⟩
  have called := start.step (.send [7]) rfl
  have filled := (called.advances (rfl : Transmit.advances 66 _ = some _) :)
  have read := filled.step .fetch rfl
  have sent := read.step .complete rfl
  exact ⟨_, sent, rfl, rfl, (sent_in_order sent).2.1⟩

end Wire

end Katela.Drivers.Transmit
