import Mathlib.Logic.Function.Basic
import Katela.Foundation.Ring
import Katela.Foundation.Words

/-! # A pair of queues of the NVMe driver

A model of `queue_setup` and `execute` in `drivers/nvme.c` and of the controller at the
other end, which fetches commands and posts completions at any time between the accesses
of the driver. -/

namespace Katela.Drivers

def queueEntries : Nat := 64

abbrev Entry : Type := Fin queueEntries

/-- A command as it lies in memory. Only the first word matters to the queue. -/
structure NvmeCommand where
  cdw0 : UInt32
  rest : List UInt32

/-- The fields of a completion that the driver reads, and the number of the command that
it was posted for, if it was posted. -/
structure NvmeCompletion where
  commandId : UInt16
  status : UInt16
  postedFor : Option Nat

/-- The statement of `execute` that comes next, with the id of its command. -/
inductive Execute where
  | idle
  | ring (id : UInt32)
  | poll (id : UInt32)
  | consume (id : UInt32)

/-- What `execute` returned, and the number of the command whose completion it used. -/
structure Returned where
  postedFor : Option Nat
  success : Bool

/-- The queues and their ends. The driver has a tail, a head and a phase, the
controller has its own. The lists say what was submitted, posted and returned so far. -/
structure QueuePair where
  sq : Entry → NvmeCommand
  cq : Entry → NvmeCompletion
  sqTail : Entry
  cqHead : Entry
  phase : UInt16
  commandId : UInt32
  sqDoorbell : Entry
  driver : Execute
  controllerHead : Entry
  controllerTail : Entry
  controllerPhase : UInt16
  submitted : List NvmeCommand
  posted : List UInt16
  returned : List Returned

/-- `& (QUEUE_ENTRIES - 1)` after an increment. -/
def nextEntry (entry : Entry) : Entry :=
  ⟨(entry.val + 1) % queueEntries, Nat.mod_lt _ (by decide)⟩

def firstEntry : Entry := ⟨0, by decide⟩

/-- The queues after `queue_setup`, at a controller that is at their start. -/
def queueSetup (commandId : UInt32) : QueuePair where
  sq := fun _ => ⟨0, []⟩
  cq := fun _ => ⟨0, 0, none⟩
  sqTail := firstEntry
  cqHead := firstEntry
  phase := 1
  commandId
  sqDoorbell := firstEntry
  driver := .idle
  controllerHead := firstEntry
  controllerTail := firstEntry
  controllerPhase := 1
  submitted := []
  posted := []
  returned := []

/-- The id of the next command. -/
def nextId (commandId : UInt32) : UInt32 := commandId &&& 0xFFFF

/-- The command with its id. -/
def withId (command : NvmeCommand) (id : UInt32) : NvmeCommand :=
  { command with cdw0 := (command.cdw0 &&& (0xFFFF : UInt32)) ||| id <<< 16 }

/-- A call of `execute` up to the barrier. -/
def submit (pair : QueuePair) (command : NvmeCommand) : Option QueuePair :=
  match pair.driver with
  | .idle =>
      let id := nextId pair.commandId
      let command := withId command id
      some { pair with
        sq := Function.update pair.sq pair.sqTail command
        sqTail := nextEntry pair.sqTail
        commandId := pair.commandId + 1
        driver := .ring id
        submitted := pair.submitted ++ [command] }
  | _ => none

/-- The rest of `execute`. A round of the loop that finds no completion changes
nothing. -/
def executeStep (pair : QueuePair) : Option QueuePair :=
  match pair.driver with
  | .idle => none
  | .ring id => some { pair with sqDoorbell := pair.sqTail, driver := .poll id }
  | .poll id =>
      if (pair.cq pair.cqHead).status &&& 1 ≠ pair.phase then some pair
      else some { pair with driver := .consume id }
  | .consume id =>
      let entry := pair.cq pair.cqHead
      let head := nextEntry pair.cqHead
      some { pair with
        cqHead := head
        phase := if head = firstEntry then pair.phase ^^^ 1 else pair.phase
        driver := .idle
        returned := pair.returned ++ [⟨entry.postedFor,
          ¬ (entry.commandId.toUInt32 ≠ id ∨ entry.status >>> 1 ≠ 0)⟩] }

/-- The controller executes the next command and posts its completion with a status
that has the phase in its lowest bit. -/
def complete (pair : QueuePair) (status : UInt16) : Option QueuePair :=
  if pair.controllerHead = pair.sqDoorbell ∨ status &&& 1 ≠ pair.controllerPhase then none
  else
    let command := pair.sq pair.controllerHead
    let tail := nextEntry pair.controllerTail
    some { pair with
      cq := Function.update pair.cq pair.controllerTail
        ⟨(command.cdw0 >>> 16).toUInt16, status, some pair.posted.length⟩
      controllerHead := nextEntry pair.controllerHead
      controllerTail := tail
      controllerPhase :=
        if tail = firstEntry then pair.controllerPhase ^^^ 1 else pair.controllerPhase
      posted := pair.posted ++ [status] }

inductive QueueAction where
  | submit (command : NvmeCommand)
  | advance
  | complete (status : UInt16)
  | otherQueue

/-- A step of the driver, of the controller, or of a call of `execute` for another queue,
which takes an id of the same counter. -/
def queueAction (pair : QueuePair) : QueueAction → Option QueuePair
  | .submit command => submit pair command
  | .advance => executeStep pair
  | .complete status => complete pair status
  | .otherQueue =>
      match pair.driver with
      | .idle => some { pair with commandId := pair.commandId + 1 }
      | _ => none

inductive QueueReached : QueuePair → Prop where
  | setup (commandId : UInt32) : QueueReached (queueSetup commandId)
  | step {pair pair' : QueuePair} (action : QueueAction) (before : QueueReached pair)
      (taken : queueAction pair action = some pair') : QueueReached pair'

/-! ## Ids -/

theorem nextId_lt (commandId : UInt32) : (nextId commandId).toNat < 2 ^ 16 := by
  unfold nextId
  rw [UInt32.toNat_and]
  change commandId.toNat &&& (2 ^ 16 - 1) < 2 ^ 16
  rw [Nat.and_two_pow_sub_one_eq_mod]
  exact Nat.mod_lt _ (by decide)

/-- The controller finds the id that the driver put into the command. -/
theorem id_of_withId (command : NvmeCommand) {id : UInt32} (small : id.toNat < 2 ^ 16) :
    ((withId command id).cdw0 >>> 16).toUInt16.toUInt32 = id := by
  have isShift : (id <<< 16).toNat = id.toNat * 2 ^ 16 :=
    toNat_shiftLeft_fits (by decide) (by simp; omega)
  have isLow : (command.cdw0 &&& 0xFFFF).toNat < 2 ^ 16 := nextId_lt command.cdw0
  have isWord : (withId command id).cdw0.toNat =
      id.toNat * 2 ^ 16 + (command.cdw0 &&& 0xFFFF).toNat := by
    unfold withId
    rw [UInt32.or_comm, @toNat_or_below _ _ 16 (by omega) isLow, isShift]
  apply UInt32.toNat_inj.mp
  rw [UInt16.toNat_toUInt32, UInt32.toNat_toUInt16, UInt32.toNat_shiftRight, isWord]
  change (id.toNat * 2 ^ 16 + (command.cdw0 &&& 0xFFFF).toNat) >>> 16 % 2 ^ 16 = id.toNat
  rw [Nat.shiftRight_eq_div_pow]
  omega

/-! ## Entries and phases -/

/-- The entry of the command with a number. -/
def entryOf (number : Nat) : Entry := ⟨number % queueEntries, Nat.mod_lt _ (by decide)⟩

/-- The phase of the pass that the number belongs to. -/
def phaseOf (number : Nat) : UInt16 := if number / queueEntries % 2 = 0 then 1 else 0

theorem nextEntry_entryOf (number : Nat) : nextEntry (entryOf number) = entryOf (number + 1) :=
  Fin.ext (next_slot queueEntries number)

theorem entryOf_eq_iff {first second : Nat} (ordered : first ≤ second)
    (near : second < first + queueEntries) :
    entryOf first = entryOf second ↔ first = second := by
  rw [← slot_eq_iff ordered near]
  exact Fin.ext_iff

/-- The phase is inverted after the last entry of a pass. -/
theorem next_phase (number : Nat) :
    (if entryOf (number + 1) = firstEntry then phaseOf number ^^^ 1 else phaseOf number) =
      phaseOf (number + 1) := by
  have isFirst : entryOf (number + 1) = firstEntry ↔ (number + 1) % 64 = 0 := Fin.ext_iff
  have isPhase : ∀ number, phaseOf number = if number / 64 % 2 = 0 then 1 else 0 :=
    fun _ => rfl
  rw [isPhase, isPhase]
  by_cases wraps : (number + 1) % 64 = 0
  · rw [if_pos (isFirst.mpr wraps)]
    by_cases even : number / 64 % 2 = 0
    · rw [if_pos even, if_neg (by omega)]
      rfl
    · rw [if_neg even, if_pos (by omega)]
      rfl
  · rw [if_neg fun same => wraps (isFirst.mp same)]
    have samePass : (number + 1) / 64 = number / 64 := by omega
    rw [samePass]

theorem phaseOf_earlier_pass {number : Nat} (late : queueEntries ≤ number) :
    phaseOf (number - queueEntries) ≠ phaseOf number := by
  have isSize : queueEntries = 64 := rfl
  unfold phaseOf
  rw [isSize] at late ⊢
  by_cases even : number / 64 % 2 = 0
  · rw [if_pos even, if_neg (by omega)]
    decide
  · rw [if_neg even, if_pos (by omega)]
    decide

/-! ## What the driver and the controller agree on -/

/-- The command of the call that is going on has this id. -/
def HasId (pair : QueuePair) (id : UInt32) : Prop :=
  ∃ command, pair.submitted[pair.returned.length]? = some command ∧
    (command.cdw0 >>> 16).toUInt16.toUInt32 = id

/-- How far the call that is going on has come. -/
def Stage (pair : QueuePair) : Prop :=
  match pair.driver with
  | .idle => pair.submitted.length = pair.returned.length ∧
      pair.posted.length = pair.returned.length ∧
      pair.sqDoorbell = entryOf pair.returned.length
  | .ring id => pair.submitted.length = pair.returned.length + 1 ∧
      pair.posted.length = pair.returned.length ∧
      pair.sqDoorbell = entryOf pair.returned.length ∧ HasId pair id
  | .poll id => pair.submitted.length = pair.returned.length + 1 ∧
      (pair.posted.length = pair.returned.length ∨
        pair.posted.length = pair.returned.length + 1) ∧
      pair.sqDoorbell = entryOf (pair.returned.length + 1) ∧ HasId pair id
  | .consume id => pair.submitted.length = pair.returned.length + 1 ∧
      pair.posted.length = pair.returned.length + 1 ∧
      pair.sqDoorbell = entryOf (pair.returned.length + 1) ∧ HasId pair id

structure Agreed (pair : QueuePair) : Prop where
  sqTail : pair.sqTail = entryOf pair.submitted.length
  cqHead : pair.cqHead = entryOf pair.returned.length
  phase : pair.phase = phaseOf pair.returned.length
  controllerHead : pair.controllerHead = entryOf pair.posted.length
  controllerTail : pair.controllerTail = entryOf pair.posted.length
  controllerPhase : pair.controllerPhase = phaseOf pair.posted.length
  waiting : ∀ (number : Nat) command, pair.submitted[number]? = some command →
    pair.posted.length ≤ number → pair.sq (entryOf number) = command
  completions : ∀ (number : Nat) status command, pair.posted[number]? = some status →
    pair.submitted[number]? = some command →
    pair.posted.length ≤ number + queueEntries →
    pair.cq (entryOf number) = ⟨(command.cdw0 >>> 16).toUInt16, status, some number⟩
  phases : ∀ (number : Nat) status, pair.posted[number]? = some status →
    status &&& 1 = phaseOf number
  unused : ∀ number, pair.posted.length ≤ number → number < queueEntries →
    (pair.cq (entryOf number)).status = 0
  stage : Stage pair
  results : ∀ (number : Nat) result, pair.returned[number]? = some result →
    ∃ status, pair.posted[number]? = some status ∧ result.postedFor = some number ∧
      (result.success = true ↔ status >>> 1 = 0)

theorem queueSetup_agreed (commandId : UInt32) : Agreed (queueSetup commandId) where
  sqTail := rfl
  cqHead := rfl
  phase := show 1 = phaseOf 0 by decide
  controllerHead := rfl
  controllerTail := rfl
  controllerPhase := show 1 = phaseOf 0 by decide
  waiting := fun _ _ impossible => by cases impossible
  completions := fun _ _ _ impossible => by cases impossible
  phases := fun _ _ impossible => by cases impossible
  unused := fun _ _ _ => rfl
  stage := ⟨rfl, rfl, rfl⟩
  results := fun _ _ impossible => by cases impossible

section Steps

variable {pair pair' : QueuePair}

/-- Not more than one command is in the queue. -/
theorem Agreed.counts (agreed : Agreed pair) :
    pair.returned.length ≤ pair.posted.length ∧
      pair.posted.length ≤ pair.submitted.length ∧
      pair.submitted.length ≤ pair.returned.length + 1 := by
  have stage := agreed.stage
  unfold Stage at stage
  cases isDriver : pair.driver with
  | idle =>
      simp only [isDriver] at stage
      omega
  | ring id =>
      simp only [isDriver] at stage
      omega
  | poll id =>
      simp only [isDriver] at stage
      omega
  | consume id =>
      simp only [isDriver] at stage
      omega

/-- The completion of a command that was posted and that the driver has not seen. -/
theorem Agreed.completion (agreed : Agreed pair)
    (isPosted : pair.posted.length = pair.returned.length + 1) :
    ∃ status command, pair.posted[pair.returned.length]? = some status ∧
      pair.submitted[pair.returned.length]? = some command ∧
      pair.cq pair.cqHead =
        ⟨(command.cdw0 >>> 16).toUInt16, status, some pair.returned.length⟩ ∧
      status &&& 1 = pair.phase := by
  have isSize : queueEntries = 64 := rfl
  have counts := agreed.counts
  have isStatus := List.getElem?_eq_getElem
    (show pair.returned.length < pair.posted.length by omega)
  have isCommand := List.getElem?_eq_getElem
    (show pair.returned.length < pair.submitted.length by omega)
  refine ⟨_, _, isStatus, isCommand, ?_, ?_⟩
  · rw [agreed.cqHead]
    exact agreed.completions _ _ _ isStatus isCommand (by omega)
  · rw [agreed.phase]
    exact agreed.phases _ _ isStatus

/-- The entry that the driver looks at has the other phase until the completion is
posted: it is unused, or it was posted in the pass before. -/
theorem Agreed.stale (agreed : Agreed pair)
    (notPosted : pair.posted.length = pair.returned.length) :
    (pair.cq pair.cqHead).status &&& 1 ≠ pair.phase := by
  have isSize : queueEntries = 64 := rfl
  have counts := agreed.counts
  rw [agreed.cqHead, agreed.phase]
  by_cases early : pair.returned.length < queueEntries
  · rw [agreed.unused pair.returned.length (by omega) early]
    have isFirst : phaseOf pair.returned.length = 1 := by
      unfold phaseOf
      rw [Nat.div_eq_of_lt early]
      rfl
    rw [isFirst]
    decide
  · have inside : pair.returned.length - queueEntries < pair.posted.length := by omega
    have isStatus := List.getElem?_eq_getElem inside
    have isCommand := List.getElem?_eq_getElem
      (show pair.returned.length - queueEntries < pair.submitted.length by omega)
    have sameEntry : entryOf pair.returned.length =
        entryOf (pair.returned.length - queueEntries) := by
      apply Fin.ext
      change pair.returned.length % 64 = (pair.returned.length - 64) % 64
      omega
    rw [sameEntry, agreed.completions _ _ _ isStatus isCommand (by omega)]
    change _ &&& 1 ≠ _
    rw [agreed.phases _ _ isStatus]
    exact phaseOf_earlier_pass (by omega)

/-- A step that leaves the lists, the entries and the ends as they are. -/
theorem Agreed.withStage (agreed : Agreed pair) {sqDoorbell : Entry} {driver : Execute}
    {commandId : UInt32}
    (stage : Stage { pair with sqDoorbell, driver, commandId }) :
    Agreed { pair with sqDoorbell, driver, commandId } where
  sqTail := agreed.sqTail
  cqHead := agreed.cqHead
  phase := agreed.phase
  controllerHead := agreed.controllerHead
  controllerTail := agreed.controllerTail
  controllerPhase := agreed.controllerPhase
  waiting := agreed.waiting
  completions := agreed.completions
  phases := agreed.phases
  unused := agreed.unused
  stage := stage
  results := agreed.results

theorem submit_agreed {command : NvmeCommand} (agreed : Agreed pair)
    (taken : submit pair command = some pair') : Agreed pair' := by
  have stage := agreed.stage
  have isSize : queueEntries = 64 := rfl
  unfold submit at taken
  unfold Stage at stage
  split at taken
  · next isDriver =>
      simp only [isDriver] at stage
      rcases stage with ⟨allReturned, allPosted, isDoorbell⟩
      cases taken
      constructor
      case sqTail =>
        simp only [List.length_append, List.length_singleton, agreed.sqTail,
          nextEntry_entryOf]
      case waiting =>
        intro number found isFound unposted
        dsimp only at isFound unposted ⊢
        rcases getElem?_of_append isFound with wasFound | ⟨isLast, isCommand⟩
        · have inside := (List.getElem?_eq_some_iff.mp wasFound).1
          omega
        · rw [isLast, ← agreed.sqTail, Function.update_self, isCommand]
      case completions =>
        intro number status found isStatus isFound near
        dsimp only at isStatus isFound near ⊢
        have inside := (List.getElem?_eq_some_iff.mp isStatus).1
        rw [List.getElem?_append_left (by omega)] at isFound
        exact agreed.completions number status found isStatus isFound near
      case stage =>
        refine ⟨?_, allPosted, isDoorbell, _, ?_, id_of_withId command (nextId_lt _)⟩
        · rw [List.length_append, List.length_singleton, allReturned]
        · dsimp only
          rw [← allReturned, List.getElem?_append_right (Nat.le_refl _), Nat.sub_self]
          rfl
      case cqHead => exact agreed.cqHead
      case phase => exact agreed.phase
      case controllerHead => exact agreed.controllerHead
      case controllerTail => exact agreed.controllerTail
      case controllerPhase => exact agreed.controllerPhase
      case phases => exact agreed.phases
      case unused => exact agreed.unused
      case results => exact agreed.results
  · cases taken

theorem consume_agreed {id : UInt32} (agreed : Agreed pair)
    (isDriver : pair.driver = .consume id)
    (taken : executeStep pair = some pair') : Agreed pair' := by
  have stage := agreed.stage
  unfold Stage at stage
  simp only [isDriver] at stage
  rcases stage with ⟨isSubmitted, isPosted, isDoorbell, command, isCommand, isId⟩
  rcases agreed.completion isPosted with ⟨status, found, isStatus, isFound, isEntry, _⟩
  rw [isCommand] at isFound
  cases isFound
  unfold executeStep at taken
  simp only [isDriver] at taken
  cases taken
  constructor
  case cqHead =>
    simp only [List.length_append, List.length_singleton, agreed.cqHead, nextEntry_entryOf]
  case phase =>
    simp only [List.length_append, List.length_singleton, agreed.cqHead, agreed.phase,
      nextEntry_entryOf]
    exact next_phase _
  case stage =>
    refine ⟨?_, ?_, ?_⟩
    · rw [List.length_append, List.length_singleton, isSubmitted]
    · rw [List.length_append, List.length_singleton, isPosted]
    · rw [List.length_append, List.length_singleton]
      exact isDoorbell
  case results =>
    intro number result isResult
    rcases getElem?_of_append isResult with wasResult | ⟨isLast, isNew⟩
    · exact agreed.results number result wasResult
    · refine ⟨status, by rw [isLast]; exact isStatus, ?_, ?_⟩
      · rw [isNew, isEntry, isLast]
      · rw [isNew, isEntry]
        simp [isId]
  case sqTail => exact agreed.sqTail
  case controllerHead => exact agreed.controllerHead
  case controllerTail => exact agreed.controllerTail
  case controllerPhase => exact agreed.controllerPhase
  case waiting => exact agreed.waiting
  case completions => exact agreed.completions
  case phases => exact agreed.phases
  case unused => exact agreed.unused

theorem executeStep_agreed (agreed : Agreed pair) (taken : executeStep pair = some pair') :
    Agreed pair' := by
  have stage := agreed.stage
  unfold Stage at stage
  cases isDriver : pair.driver with
  | idle =>
      unfold executeStep at taken
      simp only [isDriver] at taken
      cases taken
  | ring id =>
      unfold executeStep at taken
      simp only [isDriver] at taken stage
      cases taken
      refine agreed.withStage ⟨stage.1, Or.inl stage.2.1, ?_, stage.2.2.2⟩
      rw [agreed.sqTail, stage.1]
  | poll id =>
      unfold executeStep at taken
      simp only [isDriver] at taken stage
      split at taken
      · cases taken
        exact agreed
      · next isPhase =>
          cases taken
          rcases stage with ⟨isSubmitted, notPosted | isPosted, isDoorbell, hasId⟩
          · exact absurd (agreed.stale notPosted) isPhase
          · exact agreed.withStage ⟨isSubmitted, isPosted, isDoorbell, hasId⟩
  | consume id => exact consume_agreed agreed isDriver taken

theorem complete_agreed {status : UInt16} (agreed : Agreed pair)
    (taken : complete pair status = some pair') : Agreed pair' := by
  have stage := agreed.stage
  have counts := agreed.counts
  have isSize : queueEntries = 64 := rfl
  unfold complete at taken
  split at taken
  · cases taken
  · next isEnabled =>
      rcases not_or.mp isEnabled with ⟨hasCommand, isPhase⟩
      rw [agreed.controllerHead] at hasCommand
      rw [Classical.not_not] at isPhase
      -- Only a call that polls has rung the doorbell for a command that waits.
      have isPolling : ∃ id, pair.driver = .poll id ∧
          pair.submitted.length = pair.returned.length + 1 ∧
          pair.posted.length = pair.returned.length ∧
          pair.sqDoorbell = entryOf (pair.returned.length + 1) ∧ HasId pair id := by
        unfold Stage at stage
        cases isDriver : pair.driver with
        | idle =>
            simp only [isDriver] at stage
            rw [stage.2.1, stage.2.2] at hasCommand
            exact absurd rfl hasCommand
        | ring id =>
            simp only [isDriver] at stage
            rw [stage.2.1, stage.2.2.1] at hasCommand
            exact absurd rfl hasCommand
        | poll id =>
            simp only [isDriver] at stage
            rcases stage with ⟨isSubmitted, notPosted | isPosted, isDoorbell, hasId⟩
            · exact ⟨id, rfl, isSubmitted, notPosted, isDoorbell, hasId⟩
            · rw [isPosted, isDoorbell] at hasCommand
              exact absurd rfl hasCommand
        | consume id =>
            simp only [isDriver] at stage
            rw [stage.2.1, stage.2.2.1] at hasCommand
            exact absurd rfl hasCommand
      rcases isPolling with ⟨id, isDriver, isSubmitted, notPosted, isDoorbell, hasId⟩
      cases taken
      constructor
      case controllerHead =>
        simp only [List.length_append, List.length_singleton, agreed.controllerHead,
          nextEntry_entryOf]
      case controllerTail =>
        simp only [List.length_append, List.length_singleton, agreed.controllerTail,
          nextEntry_entryOf]
      case controllerPhase =>
        simp only [List.length_append, List.length_singleton, agreed.controllerTail,
          agreed.controllerPhase, nextEntry_entryOf]
        exact next_phase _
      case waiting =>
        intro number command isCommand unposted
        dsimp only at isCommand unposted ⊢
        rw [List.length_append, List.length_singleton] at unposted
        exact agreed.waiting number command isCommand (by omega)
      case completions =>
        intro number found command isFound isCommand near
        dsimp only at isFound isCommand near ⊢
        rw [List.length_append, List.length_singleton] at near
        rcases getElem?_of_append isFound with wasFound | ⟨isLast, isStatus⟩
        · have inside := (List.getElem?_eq_some_iff.mp wasFound).1
          have apart : entryOf number ≠ pair.controllerTail := by
            rw [agreed.controllerTail]
            intro same
            have equal := (entryOf_eq_iff (by omega) (by omega)).mp same
            omega
          rw [Function.update_of_ne apart]
          exact agreed.completions number found command wasFound isCommand (by omega)
        · have isWaiting := agreed.waiting number command isCommand (by omega)
          rw [isLast] at isWaiting
          rw [isLast, ← agreed.controllerTail, Function.update_self, agreed.controllerHead,
            isWaiting, isStatus]
      case phases =>
        intro number found isFound
        dsimp only at isFound
        rcases getElem?_of_append isFound with wasFound | ⟨isLast, isStatus⟩
        · exact agreed.phases number found wasFound
        · rw [isStatus, isLast, ← agreed.controllerPhase]
          exact isPhase
      case unused =>
        intro number unposted early
        dsimp only at unposted ⊢
        rw [List.length_append, List.length_singleton] at unposted
        have apart : entryOf number ≠ pair.controllerTail := by
          rw [agreed.controllerTail]
          intro same
          have equal := (entryOf_eq_iff (by omega) (by omega)).mp same.symm
          omega
        rw [Function.update_of_ne apart]
        exact agreed.unused number (by omega) early
      case stage =>
        unfold Stage
        simp only [isDriver]
        refine ⟨isSubmitted, Or.inr ?_, isDoorbell, hasId⟩
        rw [List.length_append, List.length_singleton, notPosted]
      case results =>
        intro number result isResult
        rcases agreed.results number result isResult with ⟨found, isFound, rest⟩
        exact ⟨found, getElem?_append_some _ isFound, rest⟩
      case sqTail => exact agreed.sqTail
      case cqHead => exact agreed.cqHead
      case phase => exact agreed.phase

theorem queueAction_agreed {action : QueueAction} (agreed : Agreed pair)
    (taken : queueAction pair action = some pair') : Agreed pair' := by
  cases action with
  | submit command => exact submit_agreed agreed taken
  | advance => exact executeStep_agreed agreed taken
  | complete status => exact complete_agreed agreed taken
  | otherQueue =>
      have stage := agreed.stage
      unfold Stage at stage
      simp only [queueAction] at taken
      split at taken
      · next isDriver =>
          simp only [isDriver] at stage
          cases taken
          have next : Agreed { pair with
              sqDoorbell := pair.sqDoorbell
              driver := .idle
              commandId := pair.commandId + 1 } := agreed.withStage stage
          rw [← isDriver] at next
          exact next
      · cases taken

end Steps

theorem reached_agreed {pair : QueuePair} (reached : QueueReached pair) : Agreed pair := by
  induction reached with
  | setup commandId => exact queueSetup_agreed commandId
  | step action _ taken agreed => exact queueAction_agreed agreed taken

/-- Between calls the tail and the head are equal. -/
theorem Agreed.sqTail_eq_cqHead {pair : QueuePair} (agreed : Agreed pair)
    (isIdle : pair.driver = .idle) : pair.sqTail = pair.cqHead := by
  have stage := agreed.stage
  unfold Stage at stage
  simp only [isIdle] at stage
  rw [agreed.sqTail, agreed.cqHead, stage.1]

/-- The loop ends exactly when the completion of the command was posted. -/
theorem Agreed.poll_iff {pair : QueuePair} (agreed : Agreed pair) {id : UInt32}
    (isPolling : pair.driver = .poll id) :
    (pair.cq pair.cqHead).status &&& 1 = pair.phase ↔
      pair.posted.length = pair.submitted.length := by
  have stage := agreed.stage
  unfold Stage at stage
  simp only [isPolling] at stage
  rcases stage with ⟨isSubmitted, notPosted | isPosted, _⟩
  · constructor
    · exact fun same => absurd same (agreed.stale notPosted)
    · intro same
      omega
  · rcases agreed.completion isPosted with ⟨status, command, _, _, isEntry, isPhase⟩
    rw [isEntry]
    constructor
    · intro _
      omega
    · intro _
      exact isPhase

end Katela.Drivers
