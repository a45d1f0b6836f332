import Mathlib.Logic.Relation
import Katela.Scheduler.Condition

/-! # When a wait ends

A call that waits for a number of milliseconds puts its task to sleep until a moment on
the clock that does not wrap. Whatever else happens, the task stays blocked before that
tick and is made ready by it, unless a wake-up takes it first. -/

namespace Katela.Scheduler

variable {World : Type} {s s' : Sched World} {t : TaskRef} {due : Nat}

/-! ## Ticks -/

/-- A wait is rounded up, and the tick that is already running is not counted. No time
in 32 bits is long enough for the clamp. -/
theorem waitTicks_eq {ms : Nat} (positive : 0 < ms) (fits : ms < wordSize) :
    waitTicks ms = (ms + 9) / 10 + 1 := by
  have isTen : msPerTick = 10 := rfl
  have isMax : maxWaitTicks = 0x7FFFFFF0 := rfl
  have isWord : wordSize = 2 ^ 32 := rfl
  have rounded : msToTicks ms = (ms + 9) / 10 := by
    dsimp only [msToTicks]
    rw [isTen, isMax]
    split <;> split <;> omega
  unfold waitTicks
  rw [rounded]
  dsimp only
  rw [if_pos (by omega)]

theorem waitTicks_zero : waitTicks 0 = 0 := rfl

theorem timeReached_self (now : Nat) : timeReached now now = true := by
  unfold timeReached
  rw [Nat.add_sub_cancel_left, Nat.mod_self]
  rfl

/-! ## A task that waits -/

/-- The task is blocked with this deadline. -/
structure Task.Armed (task : Task World) (due : Nat) : Prop where
  blocked : task.state = .blocked
  timed : task.hasDeadline = true
  deadline : task.deadline = due % wordSize

/-- The task is blocked, and its deadline is still to come. -/
structure Pending (s : Sched World) (t : TaskRef) (due : Nat) : Prop
    extends (s.tasks t).Armed due where
  flag : s.runningFlag = true
  ticks : s.ticks = s.clock % wordSize
  later : s.clock < due
  near : due ≤ s.clock + maxWaitTicks + 1

/-- No wake-up took the task in between. -/
def NotWoken (t : TaskRef) (s s' : Sched World) : Prop :=
  ∀ events q, s'.trace = events ++ s.trace → Event.woken q t ∉ events

namespace Pending

/-- The task and the clock are as they were. -/
theorem congr (before : Pending s t due)
    (task : (s'.tasks t).unlinked = (s.tasks t).unlinked)
    (flag : s.runningFlag = true → s'.runningFlag = true) (ticks : s'.ticks = s.ticks)
    (clock : s'.clock = s.clock) : Pending s' t due where
  blocked := (congrArg Task.state task :).trans before.blocked
  timed := (congrArg Task.hasDeadline task :).trans before.timed
  deadline := (congrArg Task.deadline task :).trans before.deadline
  flag := flag before.flag
  ticks := by rw [ticks, clock, before.ticks]
  later := clock ▸ before.later
  near := clock ▸ before.near

theorem switch (before : Pending s t due) (switched : Switched s s')
    (idle : (s.tasks .idle).state = .ready ∨ (s.tasks .idle).state = .running) :
    Pending s' t due where
  blocked := (switched.state_iff idle (by simp) (by simp) t).mpr before.blocked
  timed := (congrArg Task.hasDeadline (switched.task t) :).trans before.timed
  deadline := (congrArg Task.deadline (switched.task t) :).trans before.deadline
  flag := (congrArg Sched.runningFlag switched.rest :).trans before.flag
  ticks := by
    rw [(congrArg Sched.ticks switched.rest :), (congrArg Sched.clock switched.rest :),
      before.ticks]
  later := (congrArg Sched.clock switched.rest :) ▸ before.later
  near := (congrArg Sched.clock switched.rest :) ▸ before.near

/-- Another task is woken. -/
theorem wake {other : TaskRef} {result : WaitResult} (before : Pending s t due)
    (woke : Woke s s' other result) (different : t ≠ other) : Pending s' t due :=
  before.congr (woke.others t different)
    (fun flag => (congrArg Sched.runningFlag woke.rest :).trans flag)
    (congrArg Sched.ticks woke.rest :) (congrArg Sched.clock woke.rest :)

/-- Another task is changed. -/
theorem modifyTask {other : TaskRef} (before : Pending s t due) (different : t ≠ other)
    (change : Task World → Task World) : Pending (s.modifyTask other change) t due :=
  before.congr (by simp only [Sched.modifyTask, Function.update_of_ne different])
    id rfl rfl

theorem unrelated (before : Pending s t due) (tasks : s'.tasks = s.tasks)
    (flag : s'.runningFlag = s.runningFlag) (ticks : s'.ticks = s.ticks)
    (clock : s'.clock = s.clock) : Pending s' t due :=
  before.congr (by rw [tasks]) (fun isSet => flag.trans isSet) ticks clock

/-- The task that runs is another one. -/
theorem ne_current (before : Pending s t due) (valid : Valid s) : t ≠ s.current := by
  rintro rfl
  rcases valid.runs with running | exiting
  · rw [before.blocked] at running
    cases running
  · have terminated := valid.exits _ exiting
    rw [before.blocked] at terminated
    cases terminated

theorem toCode (before : Pending s t due) (valid : Valid s) : Pending
    (s.modifyTask s.current fun task => { task with context := .code }) t due :=
  before.modifyTask (before.ne_current valid) _

/-- A slot that waits is one that `wake_expired` looks at. -/
theorem slot (before : Pending s t due) (valid : Valid s) :
    ∃ i, t = .slot i ∧ i < s.slotCount := by
  have inUse := valid.allocated t (by simp [before.blocked])
  cases t with
  | slot index => exact ⟨index, rfl, inUse⟩
  | idle =>
      rcases valid.idle with ready | running
      · rw [before.blocked] at ready
        cases ready
      · rw [before.blocked] at running
        cases running

end Pending

/-! ## Timer ticks -/

theorem Pending.advance (before : Pending s t due) (early : s.clock + 1 < due) :
    Pending (Scheduler.advance s) t due where
  toArmed := before.toArmed
  flag := before.flag
  ticks := by
    simp only [Scheduler.advance, before.ticks, wordSize]
    omega
  later := early
  near := by
    have near := before.near
    simp only [Scheduler.advance]
    omega

/-- A tick before the deadline. Only a task whose deadline has come is timed out. -/
theorem Pending.tick (before : Pending s t due) (valid : Valid s)
    (early : s.clock + 1 < due) : Pending (schedulerTick s) t due := by
  rcases valid.tick_spec (fun s _ => Pending s t due) before.flag (before.advance early)
    (fun s s' members i consistent holds expired => by
      refine holds.wake expired.woke ?_
      rintro rfl
      have reached := expired.reached
      rw [holds.ticks, holds.deadline] at reached
      have passed := due_of_timeReached holds.near reached
      have later := holds.later
      omega) with
    ⟨lists, expired, consistent, holds, switched⟩
  exact holds.switch switched consistent.idle

section Expiry

variable {members : Members} {i : Nat}

/-- The round of `wake_expired` for a slot whose deadline has come. -/
theorem expireSlot_ready (armed : (s.tasks (.slot i)).Armed due)
    (reached : timeReached s.ticks (due % wordSize) = true) :
    ((expireSlot s i).tasks (.slot i)).state = .ready := by
  have waits : ¬ ((s.tasks (.slot i)).state ≠ .blocked ∨
      (s.tasks (.slot i)).hasDeadline = false) := by
    simp [armed.blocked, armed.timed]
  have isReached : ¬ timeReached s.ticks (s.tasks (.slot i)).deadline = false := by
    simp [armed.deadline, reached]
  dsimp only [expireSlot]
  rw [if_neg waits, if_neg isReached]
  cases (s.tasks (.slot i)).queue with
  | none => simp [makeReady, Sched.modifyTask]
  | some q => simp [makeReady, Sched.modifyTask, Sched.emit]

/-- The rounds for the other slots leave a slot alone. -/
theorem expireSlot_other (consistent : Consistent s members) {k : Nat}
    (different : i ≠ k) :
    ((expireSlot s k).tasks (.slot i)).unlinked = (s.tasks (.slot i)).unlinked ∧
      (expireSlot s k).ticks = s.ticks := by
  rcases expireSlot_cases consistent k with same | expired
  · rw [same]
    exact ⟨rfl, rfl⟩
  · exact ⟨expired.woke.others _ (by simpa using different),
      (congrArg Sched.ticks expired.woke.rest :)⟩

theorem expireSlot_consistent (consistent : Consistent s members) (k : Nat) :
    ∃ lists, Consistent (expireSlot s k) lists := by
  rcases expireSlot_cases consistent k with same | expired
  · rw [same]
    exact ⟨members, consistent⟩
  · exact ⟨_, expired.consistent⟩

/-- A task that is not blocked is not timed out. -/
theorem expireSlots_keep_ready (slots : List Nat) :
    ∀ {s : Sched World} {members : Members}, Consistent s members →
      (s.tasks (.slot i)).state = .ready →
      ((slots.foldl expireSlot s).tasks (.slot i)).state = .ready := by
  induction slots with
  | nil => exact fun _ ready => ready
  | cons k rest ih =>
      intro s members consistent ready
      rcases expireSlot_consistent consistent k with ⟨lists, after⟩
      refine ih after ?_
      by_cases same : i = k
      · subst same
        rw [expireSlot, if_pos (Or.inl (by simp [ready]))]
        exact ready
      · exact (congrArg Task.state (expireSlot_other consistent same).1 :).trans ready

/-- A task whose deadline has come is made ready when its slot is reached. -/
theorem expireSlots_ready (slots : List Nat) (inside : i ∈ slots) :
    ∀ {s : Sched World} {members : Members}, Consistent s members →
      (s.tasks (.slot i)).Armed due → timeReached s.ticks (due % wordSize) = true →
      ((slots.foldl expireSlot s).tasks (.slot i)).state = .ready := by
  induction slots with
  | nil => cases inside
  | cons k rest ih =>
      intro s members consistent armed reached
      rcases expireSlot_consistent consistent k with ⟨lists, after⟩
      by_cases same : i = k
      · subst same
        exact expireSlots_keep_ready rest after (expireSlot_ready armed reached)
      · have inRest : i ∈ rest := by
          rcases List.mem_cons.mp inside with first | later
          · exact absurd first same
          · exact later
        rcases expireSlot_other consistent same with ⟨task, ticks⟩
        refine ih inRest after ⟨?_, ?_, ?_⟩ (ticks ▸ reached)
        · exact (congrArg Task.state task :).trans armed.blocked
        · exact (congrArg Task.hasDeadline task :).trans armed.timed
        · exact (congrArg Task.deadline task :).trans armed.deadline

end Expiry

/-- The tick at the deadline makes the task ready, before the switch of that tick. -/
theorem Pending.expires (before : Pending s t due) (valid : Valid s)
    (last : s.clock + 1 = due) :
    ((wakeExpired (Scheduler.advance s)).tasks t).state = .ready := by
  rcases before.slot valid with ⟨i, rfl, inside⟩
  refine expireSlots_ready _ (List.mem_range.mpr inside) valid.toConsistent.advance
    before.toArmed ?_
  have isNow : (Scheduler.advance s).ticks = due % wordSize := by
    rw [← last]
    simp only [Scheduler.advance, before.ticks, wordSize]
    omega
  rw [isNow]
  exact timeReached_self _

/-! ## Runs -/

theorem schedulerTick_clock (valid : Valid s) (flag : s.runningFlag = true) :
    (schedulerTick s).clock = s.clock + 1 := by
  rcases valid.tick_spec (fun after _ => after.clock = s.clock + 1) flag rfl
    (fun _ _ _ _ _ holds expired =>
      (congrArg Sched.clock expired.woke.rest :).trans holds) with
    ⟨lists, expired, consistent, holds, switched⟩
  exact (congrArg Sched.clock switched.rest :).trans holds

/-- The clock does not go back. -/
theorem Change.clock_le (change : Change s s') (valid : Valid s) : s.clock ≤ s'.clock := by
  cases change with
  | create room =>
      have notFull : ¬ s.slotCount ≥ maxTasks := by omega
      simp only [taskCreate, notFull, if_false]
      exact Nat.le_refl _
  | switch switched => exact Nat.le_of_eq (congrArg Sched.clock switched.rest :).symm
  | tick flag =>
      rw [schedulerTick_clock valid flag]
      exact Nat.le_succ _
  | block running reason fits blocked consistent switched =>
      have marked : _ = s.clock := (congrArg Sched.clock blocked.rest :)
      exact Nat.le_of_eq ((congrArg Sched.clock switched.rest :).trans marked).symm
  | semHand semaphore t handed =>
      exact Nat.le_of_eq (congrArg Sched.clock handed.woke.rest :).symm
  | unlockHand mutex t owned inCode handed =>
      exact Nat.le_of_eq (congrArg Sched.clock handed.woke.rest :).symm
  | wakeOne queue t handed =>
      exact Nat.le_of_eq (congrArg Sched.clock handed.woke.rest :).symm
  | wakeAll queue =>
      rcases valid.wakeAll_spec (fun after => after.clock = s.clock) rfl (.events queue)
        (fun _ _ _ _ holds handed =>
          (congrArg Sched.clock handed.woke.rest :).trans holds) with
        ⟨drained, _, holds, _, equal⟩
      rw [equal]
      exact Nat.le_of_eq holds.symm
  | _ => exact Nat.le_refl _

/-- A wake-up that is among the events of a step takes another task. -/
theorem Pending.handed {q : QueueRef} {other : TaskRef} {start after : Sched World}
    (before : Pending s t due) (handed : Handed s s' q other)
    (notWoken : NotWoken t start after) (events : List (Event World))
    (isTrace : after.trace = events ++ start.trace)
    (happened : Event.woken q other ∈ events) : Pending s' t due := by
  refine before.wake handed.woke ?_
  rintro rfl
  exact notWoken events q isTrace happened

theorem Pending.wakeAll {queue : Nat} (before : Pending s t due) (valid : Valid s)
    (notWoken : NotWoken t s (waitQueueWakeAll s (.events queue)).2) :
    Pending (waitQueueWakeAll s (.events queue)).2 t due := by
  rcases valid.wakeAll_spec (fun after => ∃ events, after.trace = events ++ s.trace ∧
      (Pending after t due ∨ ∃ q, Event.woken q t ∈ events))
    ⟨[], rfl, Or.inl before⟩ (.events queue) (fun middle after other _ holds handed => by
      rcases holds with ⟨events, isTrace, pending⟩
      refine ⟨.woken (.events queue) other :: events, by rw [handed.trace, isTrace]; rfl, ?_⟩
      rcases pending with pending | ⟨q, woken⟩
      · by_cases same : t = other
        · subst same
          exact Or.inr ⟨_, List.mem_cons_self⟩
        · exact Or.inl (pending.wake handed.woke same)
      · exact Or.inr ⟨q, List.mem_cons_of_mem _ woken⟩) with
    ⟨drained, _, ⟨events, isTrace, pending⟩, _, equal⟩
  rw [equal] at notWoken ⊢
  rcases pending with pending | ⟨q, woken⟩
  · exact pending.unrelated rfl rfl rfl rfl
  · have noEvent := notWoken (.wokeAll (.events queue) :: events) q
      (by simp [Sched.emit, isTrace])
    exact absurd (List.mem_cons_of_mem _ woken) noEvent

/-- What a step can do to a task that waits, unless it wakes it. -/
theorem Pending.change (before : Pending s t due) (valid : Valid s)
    (change : Change s s') (notWoken : NotWoken t s s') :
    Pending s' t due ∨ due ≤ s'.clock := by
  cases change with
  | tick flag =>
      by_cases early : s.clock + 1 < due
      · exact Or.inl (before.tick valid early)
      · right
        rw [schedulerTick_clock valid flag]
        omega
  | stay => exact Or.inl before
  | start => exact Or.inl (before.congr rfl (fun _ => rfl) rfl rfl)
  | write world => exact Or.inl (before.unrelated rfl rfl rfl rfl)
  | create room =>
      have notFull : ¬ s.slotCount ≥ maxTasks := by omega
      have different : t ≠ .slot s.slotCount := by
        rcases before.slot valid with ⟨i, rfl, inside⟩
        intro same
        injection same with index
        omega
      simp only [taskCreate, notFull, if_false]
      exact Or.inl (before.congr (by simp [Sched.modifyTask, different]) id rfl rfl)
  | exit inCode notIdle =>
      exact Or.inl (before.modifyTask (before.ne_current valid) _)
  | switch switched => exact Or.inl (before.switch switched valid.idle)
  | block running reason fits blocked consistent switched =>
      have marked : Pending _ t due :=
        before.congr (blocked.others t (before.ne_current valid))
          (fun flag => (congrArg Sched.runningFlag blocked.rest :).trans flag)
          (congrArg Sched.ticks blocked.rest :) (congrArg Sched.clock blocked.rest :)
      exact Or.inl (marked.switch switched consistent.idle)
  | awake sleeping => exact Or.inl (before.toCode valid)
  | semTake semaphore inCode positive =>
      exact Or.inl ((before.toCode valid).unrelated rfl rfl rfl rfl)
  | semReturn semaphore result returns =>
      exact Or.inl ((before.toCode valid).unrelated rfl rfl rfl rfl)
  | semCount semaphore empty => exact Or.inl (before.unrelated rfl rfl rfl rfl)
  | semHand semaphore other handed =>
      have woken := before.handed handed notWoken
        [.posted semaphore, .woken (.semaphore semaphore) other]
        (by simp [Sched.emit, handed.trace]) (by simp)
      exact Or.inl (woken.unrelated rfl rfl rfl rfl)
  | lockTake call mutex inCode free =>
      exact Or.inl ((before.toCode valid).unrelated rfl rfl rfl rfl)
  | lockReturn call mutex result returns taken =>
      exact Or.inl ((before.toCode valid).unrelated rfl rfl rfl rfl)
  | unlockFree mutex owned inCode empty =>
      exact Or.inl (before.unrelated rfl rfl rfl rfl)
  | unlockHand mutex other owned inCode handed =>
      have unlocked : Pending (s.emit (.unlocked mutex s.current)) t due :=
        before.unrelated rfl rfl rfl rfl
      have woken := unlocked.handed handed notWoken
        [.woken (.mutex mutex) other, .unlocked mutex s.current]
        (by simp [Sched.emit, handed.trace]) (by simp)
      exact Or.inl (woken.unrelated rfl rfl rfl rfl)
  | waitReturn ready timed due result returns =>
      exact Or.inl ((before.toCode valid).unrelated rfl rfl rfl rfl)
  | wakeOne queue other handed =>
      exact Or.inl (before.handed handed notWoken [.woken _ other] handed.trace (by simp))
  | wakeAll queue => exact Or.inl (before.wakeAll valid notWoken)

/-- A timer tick times tasks out, but it wakes none. -/
theorem Valid.tick_notWoken (valid : Valid s) (t : TaskRef) :
    NotWoken t s (schedulerTick s) := by
  have without : ∃ events, (schedulerTick s).trace = events ++ s.trace ∧
      ∀ q, Event.woken q t ∉ events := by
    by_cases flag : s.runningFlag = true
    · rcases valid.tick_spec (fun after _ => ∃ events, after.trace = events ++ s.trace ∧
          ∀ q, Event.woken q t ∉ events) flag ⟨[], rfl, fun _ => by simp⟩
        (fun middle after members i _ holds expired => by
          rcases holds with ⟨events, isTrace, none⟩
          cases inQueue : (middle.tasks (.slot i)).queue with
          | none => exact ⟨events, (expired.trace_none inQueue).trans isTrace, none⟩
          | some queue =>
              refine ⟨.timedOut queue (.slot i) :: events, ?_, ?_⟩
              · rw [expired.trace_some queue inQueue, isTrace]
                rfl
              · intro q happened
                rcases List.mem_cons.mp happened with same | earlier
                · cases same
                · exact none q earlier) with
        ⟨lists, expired, consistent, ⟨events, isTrace, none⟩, switched⟩
      exact ⟨events, switched.trace.trans isTrace, none⟩
    · rw [schedulerTick, if_neg flag]
      exact ⟨[], rfl, fun _ => by simp⟩
  rcases without with ⟨events, isTrace, none⟩
  intro others q isOther
  rw [isTrace] at isOther
  rw [← List.append_cancel_right isOther]
  exact none q

/-- The runs in which no wake-up takes the task. -/
def Undisturbed (t : TaskRef) : Sched World → Sched World → Prop :=
  Relation.ReflTransGen fun s s' => Step s s' ∧ NotWoken t s s'

/-- The task waits until its deadline comes. -/
theorem Pending.run {start last : Sched World} (before : Pending start t due)
    (valid : Valid start) (run : Undisturbed t start last) :
    Valid last ∧ (Pending last t due ∨ due ≤ last.clock) := by
  induction run with
  | refl => exact ⟨valid, Or.inl before⟩
  | tail _ next ih =>
      have change := ih.1.step_change next.1
      refine ⟨change.valid ih.1, ?_⟩
      rcases ih.2 with pending | passed
      · exact pending.change ih.1 change next.2
      · exact Or.inr (Nat.le_trans passed (change.clock_le ih.1))

/-! ## Calls -/

/-- The calls that wait for at most `ms` milliseconds. -/
inductive Action.WaitsFor : Action World → Nat → Prop
  | sleep {ms : Nat} : 0 < ms → ms < wordSize → WaitsFor (.taskSleep ms) ms
  | condition {queue ms : Nat} {ready : World → Bool} :
      ms < waitForever → WaitsFor (.waitUntil queue ready ms) ms
  | semaphore {semaphore ms : Nat} :
      ms < waitForever → WaitsFor (.semWaitTimeout semaphore ms) ms
  | mutex {mutex ms : Nat} :
      ms < waitForever → WaitsFor (.mutexLockTimeout mutex ms) ms

/-- The call gets what it asks for without waiting. -/
def Action.Available (s : Sched World) : Action World → Prop
  | .waitUntil _ ready _ => ready s.world = true
  | .semWaitTimeout semaphore _ => 0 < s.count semaphore
  | .mutexLockTimeout mutex _ => s.owner mutex = none
  | _ => False

/-- The caller goes on in its own code. -/
structure GoesOn (s s' : Sched World) : Prop where
  current : s'.current = s.current
  running : (s'.tasks s.current).state = .running
  inCode : (s'.tasks s.current).context.InCode
  clock : s'.clock = s.clock

/-- The end of every call that may block. -/
theorem GoesOn.return (running : (s.tasks s.current).state = .running)
    (event : Event World) : GoesOn s
      ((s.modifyTask s.current fun task => { task with context := .code }).emit event) where
  current := rfl
  running := by simp [Sched.emit, Sched.modifyTask, running]
  inCode := by simp [Sched.emit, Sched.modifyTask, Context.InCode]
  clock := rfl

section Blocking

variable {queue : Option QueueRef} {context : Context World} {ms : Nat}
variable {returned : Option WaitResult}

/-- A wait of some time blocks the caller, whatever the tick counter is. -/
theorem Valid.block_pending (valid : Valid s) (timely : Timely s)
    (inCode : (s.tasks s.current).context = .code) (fits : context.Fits queue)
    (positive : 0 < ms) (small : ms < wordSize)
    (done : blockCurrent s queue true (deadlineAfter s.ticks ms) context =
      .ok (returned, s')) :
    returned = none ∧ s'.clock = s.clock ∧
      Pending s' s.current (s.clock + waitTicks ms) := by
  have bounded := waitTicks_le ms
  have some := waitTicks_eq positive small
  have isDeadline : deadlineAfter s.ticks ms = (s.clock + waitTicks ms) % wordSize := by
    rw [deadlineAfter, timely.ticks]
    exact Nat.mod_add_mod _ _ _
  have flag : s.runningFlag = true := by
    unfold blockCurrent at done
    split at done
    · cases done
    · rename_i started
      simpa using started
  rcases blockCurrent_cases valid.toConsistent (valid.running_of_code (by simp [inCode]))
    fits done with ⟨_, _, _, reached⟩ | ⟨suspended, middle, blocked, consistent, switched⟩
  · rw [isDeadline, timely.ticks] at reached
    have passed := due_of_timeReached (by omega) reached
    omega
  · have isClock : middle.clock = s.clock := (congrArg Sched.clock blocked.rest :)
    have isTicks : middle.ticks = s.ticks := (congrArg Sched.ticks blocked.rest :)
    have pending : Pending middle s.current (s.clock + waitTicks ms) :=
      { blocked := blocked.state_self
        timed := (congrArg Task.hasDeadline blocked.self :)
        deadline := (congrArg Task.deadline blocked.self :).trans isDeadline
        flag := (congrArg Sched.runningFlag blocked.rest :).trans flag
        ticks := by rw [isTicks, isClock, timely.ticks]
        later := by omega
        near := by omega }
    exact ⟨suspended, (congrArg Sched.clock switched.rest :).trans isClock,
      pending.switch switched consistent.idle⟩

/-- A wait of no time does not block. -/
theorem Timely.block_nothing (timely : Timely s)
    (done : blockCurrent s queue true (deadlineAfter s.ticks 0) context =
      .ok (returned, s')) : returned = some .timeout ∧ s' = s := by
  have isDeadline : deadlineAfter s.ticks 0 = s.ticks := by
    rw [deadlineAfter, waitTicks_zero, Nat.add_zero, timely.ticks, Nat.mod_mod]
  unfold blockCurrent at done
  split at done
  · cases done
  split at done
  · cases done
  rw [isDeadline, timeReached_self, Bool.and_self, if_pos rfl] at done
  injection done with pair
  injection pair with first second
  exact ⟨first.symm, second.symm⟩

end Blocking

/-- What a call that has to wait does with `block_current`. -/
structure Calls (s s' : Sched World) (ms : Nat) (queue : Option QueueRef)
    (context : Context World) (returned : Option WaitResult) (middle : Sched World) :
    Prop where
  fits : context.Fits queue
  done : blockCurrent s queue true (deadlineAfter s.ticks ms) context =
    .ok (returned, middle)
  suspended : returned = none → s' = middle
  atOnce : returned = some .timeout → middle = s → GoesOn s s'

/-- A call that has to wait comes to `block_current`. -/
theorem Action.WaitsFor.calls {call : Action World} {ms : Nat} (waits : call.WaitsFor ms)
    (unavailable : ¬ call.Available s) (done : call.perform s = .ok s')
    (inCode : (s.tasks s.current).context = .code)
    (running : (s.tasks s.current).state = .running) :
    ∃ queue context returned middle, Calls s s' ms queue context returned middle := by
  have timed : ∀ {ms : Nat}, ms < waitForever → decide (ms ≠ waitForever) = true := by
    intro ms finite
    exact decide_eq_true (Nat.ne_of_lt finite)
  cases waits with
  | sleep positive small =>
      simp only [Action.perform, Scheduler.taskSleep, if_neg (Nat.ne_of_gt positive)] at done
      rcases ok_of_bind done with ⟨⟨returned, middle⟩, blocking, finished⟩
      have same := Except.ok.inj finished
      subst same
      refine ⟨_, _, returned, middle, ?_, blocking, fun _ => rfl, ?_⟩
      · exact trivial
      · rintro _ rfl
        exact ⟨rfl, running, by simp [inCode, Context.InCode], rfl⟩
  | @condition queue ms ready finite =>
      simp only [Action.perform, waitQueueWaitUntil, waitRound, timed finite] at done
      rw [if_neg (by simpa [Action.Available] using unavailable)] at done
      rcases ok_of_bind done with ⟨⟨returned, middle⟩, blocking, finished⟩
      refine ⟨_, _, returned, middle, ?_, blocking, ?_, ?_⟩
      · exact (rfl : queue = queue)
      · rintro rfl
        exact (Except.ok.inj finished).symm
      · rintro rfl rfl
        have same := Except.ok.inj finished
        subst same
        exact .return running _
  | @semaphore semaphore ms finite =>
      simp only [Action.perform, Scheduler.semWaitTimeout, timed finite] at done
      have empty : ¬ s.count semaphore > 0 := unavailable
      rw [if_neg empty] at done
      rcases ok_of_bind done with ⟨⟨returned, middle⟩, blocking, finished⟩
      refine ⟨_, _, returned, middle, ?_, blocking, ?_, ?_⟩
      · exact (rfl : semaphore = semaphore)
      · rintro rfl
        exact (Except.ok.inj finished).symm
      · rintro rfl rfl
        have same := Except.ok.inj finished
        subst same
        exact .return running _
  | @mutex mutex ms finite =>
      simp only [Action.perform, Scheduler.mutexLockTimeout, timed finite] at done
      split at done
      · cases done
      have taken : ¬ s.owner mutex = none := unavailable
      rw [if_neg taken] at done
      rcases ok_of_bind done with ⟨⟨returned, middle⟩, blocking, finished⟩
      refine ⟨_, _, returned, middle, ?_, blocking, ?_, ?_⟩
      · exact (rfl : mutex = mutex)
      · rintro rfl
        exact (Except.ok.inj finished).symm
      · rintro rfl rfl
        have same := Except.ok.inj finished
        subst same
        exact .return running _

theorem Reachable.timely {count : Nat → Nat} (reachable : Reachable count s) : Timely s :=
  (reachable.induction Timely (fun world => schedulerInit_timely world count)
    fun _ _ valid holds change => holds.change valid change).2

theorem Action.WaitsFor.inCode {call : Action World} {ms : Nat} (waits : call.WaitsFor ms)
    (enabled : call.Enabled s) : (s.tasks s.current).context = .code := by
  cases waits <;> exact Context.code_of_inCode enabled

theorem Action.WaitsFor.small {call : Action World} {ms : Nat} (waits : call.WaitsFor ms) :
    ms < wordSize := by
  have isWord : wordSize = 2 ^ 32 := rfl
  have isForever : waitForever = 0xFFFFFFFF := rfl
  cases waits <;> omega

/-- A call that has to wait returns at once if it may not wait at all. Otherwise its task
is blocked, and stays so in every run in which no wake-up takes it, until the tick that
is one more than its time rounded up to ticks; that tick makes it ready. -/
theorem timeout_exact {count : Nat → Nat} {s s' : Sched World} {call : Action World}
    {ms : Nat} (reachable : Reachable count s) (waits : call.WaitsFor ms)
    (enabled : call.Enabled s) (unavailable : ¬ call.Available s)
    (done : call.perform s = .ok s') :
    (ms = 0 → GoesOn s s') ∧
    (0 < ms → s'.clock = s.clock ∧
      ∀ last, Undisturbed s.current s' last →
        (last.clock < s.clock + (ms + 9) / 10 + 1 →
          (last.tasks s.current).state = .blocked) ∧
        (last.clock + 1 = s.clock + (ms + 9) / 10 + 1 →
          ((wakeExpired (advance last)).tasks s.current).state = .ready ∧
          schedulerTick last = schedule (wakeExpired (advance last)))) := by
  have valid := reachable.valid
  have timely := reachable.timely
  have inCode := waits.inCode enabled
  have running := valid.running_of_code (by simp [inCode])
  rcases waits.calls unavailable done inCode running with
    ⟨queue, context, returned, middle, calls⟩
  constructor
  · rintro rfl
    rcases timely.block_nothing calls.done with ⟨timedOut, same⟩
    exact calls.atOnce timedOut same
  · intro positive
    have isTicks := waitTicks_eq positive waits.small
    rcases valid.block_pending timely inCode calls.fits positive waits.small calls.done with
      ⟨suspended, sameClock, pending⟩
    rw [← calls.suspended suspended] at sameClock
    rw [← calls.suspended suspended, isTicks, ← Nat.add_assoc] at pending
    have reached : Reachable count s' := reachable.step ⟨call, enabled, done⟩
    refine ⟨sameClock, ?_⟩
    intro last run
    rcases pending.run reached.valid run with ⟨validLast, still | passed⟩
    · refine ⟨fun _ => still.blocked, fun next => ⟨still.expires validLast next, ?_⟩⟩
      rw [schedulerTick, if_pos still.flag]
      rfl
    · exact ⟨fun early => by omega, fun next => by omega⟩

/-- The main task has run alone for a number of ticks. -/
def startedAt (clock : Nat) : Sched Unit :=
  { schedulerStart (schedulerInit () fun _ => 0) with
    ticks := clock % wordSize
    clock := clock }

theorem wakeExpired_startedAt (clock : Nat) :
    wakeExpired (advance (startedAt clock)) = startedAt (clock + 1) := by
  have isTicks : (clock % wordSize + 1) % wordSize = (clock + 1) % wordSize :=
    Nat.mod_add_mod _ _ _
  change expireSlot (advance (startedAt clock)) 0 = _
  rw [expireSlot, if_pos (Or.inl (by intro same; cases same))]
  simp only [advance, startedAt, isTicks]

theorem schedule_startedAt (clock : Nat) :
    schedule (startedAt clock) = startedAt clock := by
  simp only [schedule, startedAt, schedulerStart, schedulerInit, Sched.modifyTask, if_true,
    nextReady, Nat.reduceAdd, Nat.mod_one, Function.update_self]
  congr
  funext t
  rcases t with (_ | index) | _ <;> simp [Function.update]

/-- The tick counter takes every value. -/
theorem startedAt_reachable (clock : Nat) : Reachable (fun _ => 0) (startedAt clock) := by
  induction clock with
  | zero => exact .step (.init ()) ⟨.schedulerStart, trivial, rfl⟩
  | succ clock ih =>
      refine .step ih ⟨.tick, trivial, ?_⟩
      have ticked : schedulerTick (startedAt clock) = startedAt (clock + 1) := by
        have isTick : schedulerTick (startedAt clock) =
            schedule (wakeExpired (advance (startedAt clock))) := if_pos rfl
        rw [isTick, wakeExpired_startedAt, schedule_startedAt]
      exact congrArg Except.ok ticked

/-- A sleep that begins just before the tick counter wraps ends at the second tick. -/
theorem sleep_over_wrap :
    (startedAt 0xFFFFFFFF).ticks = 0xFFFFFFFF ∧
      ∃ asleep, taskSleep (startedAt 0xFFFFFFFF) 10 = .ok asleep ∧
        ((schedulerTick asleep).tasks (.slot 0)).state = .blocked ∧
        ((wakeExpired (advance (schedulerTick asleep))).tasks (.slot 0)).state = .ready := by
  have started := startedAt_reachable 0xFFFFFFFF
  let asleep := schedulerSwitch (markBlocked (startedAt 0xFFFFFFFF) none true 1 .sleeping)
  have sleeps : taskSleep (startedAt 0xFFFFFFFF) 10 = .ok asleep := rfl
  have reached := started.step ⟨.taskSleep 10, trivial, sleeps⟩
  have run : Undisturbed (.slot 0) asleep (schedulerTick asleep) :=
    .single ⟨⟨.tick, trivial, rfl⟩, reached.valid.tick_notWoken (.slot 0)⟩
  have isClock : (schedulerTick asleep).clock = 0xFFFFFFFF + 1 :=
    schedulerTick_clock reached.valid rfl
  have ends := ((timeout_exact started (@Action.WaitsFor.sleep Unit 10 (by decide) (by decide))
    trivial id sleeps).2 (by decide)).2 _ run
  have isMain : (startedAt 0xFFFFFFFF).current = .slot 0 := rfl
  rw [isMain, isClock] at ends
  exact ⟨rfl, asleep, sleeps, ends.1 (by decide), (ends.2 rfl).1⟩

end Katela.Scheduler
