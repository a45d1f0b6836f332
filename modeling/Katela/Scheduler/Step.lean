import Katela.Scheduler.Invariant

/-! # What a step can do

`Change` lists everything that one step of a run can do to a valid state,
together with the conditions under which it happens. All later arguments about
runs are case distinctions over it. -/

namespace Katela.Scheduler

variable {World : Type} {s s' : Sched World} {members : Members}
variable {q : QueueRef} {t : TaskRef}

/-- The invariant between two actions; the queues hold the waiting tasks. -/
abbrev Valid (s : Sched World) : Prop :=
  Invariant s fun q => waiting q s.trace

theorem Consistent.members_eq (consistent : Consistent s members) :
    members = fun q => waiting q s.trace := by
  funext q
  exact (consistent.waits q).symm

theorem Invariant.valid (invariant : Invariant s members) : Valid s := by
  have equal := invariant.members_eq
  subst equal
  exact invariant

/-- The current task calls `wait_queue_wait_until` now, or it is suspended in a
call with these local variables. -/
def WaitCall (s : Sched World) (queue : Nat) (ready : World → Bool)
    (timed : Bool) (deadline due : Nat) : Prop :=
  ((s.tasks s.current).context = .code ∧ ∃ timeoutMs,
    timed = decide (timeoutMs ≠ waitForever) ∧
    deadline = deadlineAfter s.ticks timeoutMs ∧
    due = s.clock + waitTicks timeoutMs) ∨
  (s.tasks s.current).context = .waitUntil queue ready timed deadline due

/-- Why the current task blocks. -/
def Blocks (s : Sched World) (timed : Bool) (deadline : Nat) :
    Context World → Prop
  | .sleeping => (s.tasks s.current).context = .code
  | .semWait semaphore =>
      (s.tasks s.current).context = .code ∧ s.count semaphore = 0
  | .mutexLock mutex =>
      (s.tasks s.current).context = .code ∧ s.owner mutex ≠ none ∧
        s.owner mutex ≠ some s.current
  | .waitUntil queue ready timed' deadline' due =>
      timed' = timed ∧ deadline' = deadline ∧ ready s.world = false ∧
        WaitCall s queue ready timed deadline due
  | .code | .exiting => False

/-- Why a call that could block returns `result` now. -/
def Returns (s : Sched World) (waits : Context World) (result : WaitResult) :
    Prop :=
  (s.tasks s.current).context = .code ∧ result = .timeout ∨
  (s.tasks s.current).context = waits ∧
    result = (s.tasks s.current).wakeResult

/-- Why `wait_queue_wait_until` returns `result` now. -/
def WaitReturns (s : Sched World) (ready : World → Bool) (timed : Bool)
    (due : Nat) (result : WaitResult) : Prop :=
  ∃ queue deadline, WaitCall s queue ready timed deadline due ∧
    (result = .ok ∧ ready s.world = true ∨
      result = .timeout ∧ ready s.world = false ∧
        (timed = true ∧ timeReached s.ticks deadline = true ∨
          (s.tasks s.current).context =
              .waitUntil queue ready timed deadline due ∧
            (s.tasks s.current).wakeResult = .timeout))

/-- The head `t` of a queue was woken, as seen from the state before. -/
structure Handed (s s' : Sched World) (q : QueueRef) (t : TaskRef) : Prop where
  head : (waiting q s.trace).head? = some t
  blocked : (s.tasks t).state = .blocked
  woke : Woke s s' t .ok
  trace : s'.trace = .woken q t :: s.trace
  consistent : Consistent s' fun q => waiting q s'.trace

inductive Change (s : Sched World) : Sched World → Prop
  | stay : Change s s
  | start : Change s (schedulerStart s)
  | write (world : World) : Change s { s with world := world }
  | create : s.slotCount < maxTasks → Change s (taskCreate s).2
  | exit : (s.tasks s.current).context = .code → s.current ≠ .idle →
      Change s (taskExit s)
  | switch {s' : Sched World} : Switched s s' → Change s s'
  | tick : s.runningFlag = true → Change s (schedulerTick s)
  | block {middle s' : Sched World} {queue : Option QueueRef} {timed : Bool}
      {deadline : Nat} {context : Context World} :
      (s.tasks s.current).state = .running →
      Blocks s timed deadline context → context.Fits queue →
      Blocked s middle queue timed deadline context →
      Consistent middle (fun q => waiting q middle.trace) →
      Switched middle s' → Change s s'
  | awake : (s.tasks s.current).context = .sleeping →
      Change s (s.modifyTask s.current fun task => { task with context := .code })
  | semTake (semaphore : Nat) : (s.tasks s.current).context = .code →
      0 < s.count semaphore →
      Change s (semReturn { s with
        count := Function.update s.count semaphore (s.count semaphore - 1) }
        semaphore .ok)
  | semReturn (semaphore : Nat) (result : WaitResult) :
      Returns s (.semWait semaphore) result →
      Change s (Scheduler.semReturn s semaphore result)
  | semCount (semaphore : Nat) : waiting (.semaphore semaphore) s.trace = [] →
      Change s (Sched.emit { s with
        count := Function.update s.count semaphore (s.count semaphore + 1) }
        (.posted semaphore))
  | semHand {middle : Sched World} (semaphore : Nat) (t : TaskRef) :
      Handed s middle (.semaphore semaphore) t →
      Change s (middle.emit (.posted semaphore))
  | lockTake (call : LockCall) (mutex : Nat) :
      (s.tasks s.current).context = .code → s.owner mutex = none →
      Change s (lockReturn { s with
        owner := Function.update s.owner mutex (some s.current) } call mutex .ok)
  | lockReturn (call : LockCall) (mutex : Nat) (result : WaitResult) :
      Returns s (.mutexLock mutex) result →
      ((s.tasks s.current).context = .code → s.owner mutex ≠ none ∧
        (call = .lock → s.owner mutex ≠ some s.current)) →
      Change s (Scheduler.lockReturn s call mutex result)
  | unlockFree (mutex : Nat) : s.owner mutex = some s.current →
      (s.tasks s.current).context = .code →
      waiting (.mutex mutex) s.trace = [] →
      Change s { s.emit (.unlocked mutex s.current) with
        owner := Function.update s.owner mutex none }
  | unlockHand {middle : Sched World} (mutex : Nat) (t : TaskRef) :
      s.owner mutex = some s.current →
      (s.tasks s.current).context = .code →
      Handed (s.emit (.unlocked mutex s.current)) middle (.mutex mutex) t →
      Change s { middle with
        owner := Function.update middle.owner mutex (some t) }
  | waitReturn (ready : World → Bool) (timed : Bool) (due : Nat)
      (result : WaitResult) : WaitReturns s ready timed due result →
      Change s (Scheduler.waitReturn s ready timed due result)
  | wakeOne {s' : Sched World} (queue : Nat) (t : TaskRef) :
      Handed s s' (.events queue) t → Change s s'
  | wakeAll (queue : Nat) : Change s (waitQueueWakeAll s (.events queue)).2

/-! ## Inversion of the blocking calls -/

theorem Invariant.running_of_code (invariant : Invariant s members)
    (inCode : (s.tasks s.current).context ≠ .exiting) :
    (s.tasks s.current).state = .running := by
  rcases invariant.runs with running | exiting
  · exact running
  · exact absurd exiting inCode

theorem ok_of_bind {α β : Type} {first : Except Panic α}
    {next : α → Except Panic β} {result : β}
    (done : (first >>= next) = .ok result) :
    ∃ value, first = .ok value ∧ next value = .ok result := by
  cases first with
  | error panic => cases done
  | ok value => exact ⟨value, rfl, done⟩

theorem Valid.block_change {queue : Option QueueRef} {timed : Bool}
    {deadline : Nat} {context : Context World} {returned : Option WaitResult}
    (valid : Valid s) (notExiting : (s.tasks s.current).context ≠ .exiting)
    (done : blockCurrent s queue timed deadline context = .ok (returned, s'))
    (fits : context.Fits queue) (reason : Blocks s timed deadline context) :
    (returned = some .timeout ∧ s' = s ∧ timed = true ∧
      timeReached s.ticks deadline = true) ∨
    (returned = none ∧ Change s s') := by
  have running := valid.running_of_code notExiting
  rcases blockCurrent_cases valid.toConsistent running fits done with
    timedOut | ⟨suspended, middle, blocked, consistent, switched⟩
  · exact Or.inl timedOut
  · have equal := consistent.members_eq
    rw [equal] at consistent
    exact Or.inr ⟨suspended, .block running reason fits blocked consistent
      switched⟩

theorem Valid.wakeFirst_cases (valid : Valid s) (q : QueueRef) :
    (waiting q s.trace = [] ∧ wakeFirst s q = (none, s)) ∨
      ∃ t s', wakeFirst s q = (some t, s') ∧ Handed s s' q t := by
  rcases Scheduler.wakeFirst_cases valid.toConsistent q with
    empty | ⟨t, rest, s', split, woken, woke, traced, consistent⟩
  · exact Or.inl empty
  · have equal := consistent.members_eq
    rw [equal] at consistent
    have blocked := ((valid.member_iff q t).mp (by simp [split])).1
    exact Or.inr ⟨t, s', woken, by simp [split], blocked, woke, traced,
      consistent⟩

theorem Valid.waitRound_change {queue : Nat} {ready : World → Bool}
    {timed : Bool} {deadline due : Nat} (valid : Valid s)
    (notExiting : (s.tasks s.current).context ≠ .exiting)
    (call : WaitCall s queue ready timed deadline due)
    (done : waitRound s queue ready timed deadline due = .ok s') :
    Change s s' := by
  unfold waitRound at done
  split at done
  · rename_i isReady
    injection done with equal
    subst equal
    exact .waitReturn ready timed due .ok
      ⟨queue, deadline, call, Or.inl ⟨rfl, isReady⟩⟩
  · rename_i notReady
    have unready : ready s.world = false := by simpa using notReady
    rcases ok_of_bind done with ⟨⟨returned, after⟩, blocking, finished⟩
    rcases valid.block_change notExiting blocking (by simp [Context.Fits])
      ⟨rfl, rfl, unready, call⟩ with
      ⟨timedOut, same, isTimed, reached⟩ | ⟨suspended, change⟩
    · subst timedOut
      subst same
      have equal := Except.ok.inj finished
      subst equal
      rw [waitTimedOut, if_neg notReady]
      exact .waitReturn ready timed due .timeout ⟨queue, deadline, call,
        Or.inr ⟨rfl, unready, Or.inl ⟨isTimed, reached⟩⟩⟩
    · subst suspended
      have equal := Except.ok.inj finished
      subst equal
      exact change

theorem Valid.semWaitTimeout_change {semaphore timeoutMs : Nat}
    (valid : Valid s) (inCode : (s.tasks s.current).context = .code)
    (done : semWaitTimeout s semaphore timeoutMs = .ok s') : Change s s' := by
  unfold semWaitTimeout at done
  split at done
  · rename_i positive
    injection done with equal
    subst equal
    exact .semTake semaphore inCode positive
  · rename_i notPositive
    have zero : s.count semaphore = 0 := by omega
    rcases ok_of_bind done with ⟨⟨returned, after⟩, blocking, finished⟩
    rcases valid.block_change (by simp [inCode]) blocking (by simp [Context.Fits])
      ⟨inCode, zero⟩ with
      ⟨timedOut, same, _⟩ | ⟨suspended, change⟩
    · subst timedOut
      subst same
      have equal := Except.ok.inj finished
      subst equal
      exact .semReturn semaphore .timeout (Or.inl ⟨inCode, rfl⟩)
    · subst suspended
      have equal := Except.ok.inj finished
      subst equal
      exact change

theorem Valid.mutexLockTimeout_change {mutex timeoutMs : Nat}
    (valid : Valid s) (inCode : (s.tasks s.current).context = .code)
    (done : mutexLockTimeout s mutex timeoutMs = .ok s') : Change s s' := by
  unfold mutexLockTimeout at done
  split at done
  · cases done
  rename_i notOwner
  split at done
  · rename_i free
    injection done with equal
    subst equal
    exact .lockTake .lock mutex inCode free
  · rename_i taken
    rcases ok_of_bind done with ⟨⟨returned, after⟩, blocking, finished⟩
    rcases valid.block_change (by simp [inCode]) blocking (by simp [Context.Fits])
      ⟨inCode, taken, notOwner⟩ with
      ⟨timedOut, same, _⟩ | ⟨suspended, change⟩
    · subst timedOut
      subst same
      have equal := Except.ok.inj finished
      subst equal
      exact .lockReturn .lock mutex .timeout (Or.inl ⟨inCode, rfl⟩)
        fun _ => ⟨taken, fun _ => notOwner⟩
    · subst suspended
      have equal := Except.ok.inj finished
      subst equal
      exact change

theorem Valid.taskSleep_change {ms : Nat} (valid : Valid s)
    (inCode : (s.tasks s.current).context = .code)
    (done : taskSleep s ms = .ok s') : Change s s' := by
  unfold taskSleep at done
  split at done
  · injection done with equal
    subst equal
    unfold taskYield schedulerSwitch
    split
    · exact .switch (schedule_switched valid.slotCount_pos)
    · exact .stay
  · rcases ok_of_bind done with ⟨⟨returned, after⟩, blocking, finished⟩
    have equal := Except.ok.inj finished
    subst equal
    rcases valid.block_change (by simp [inCode]) blocking trivial inCode with
      ⟨_, same, _⟩ | ⟨_, change⟩
    · subst same
      exact .stay
    · exact change

theorem Valid.semPost_change {semaphore : Nat} (valid : Valid s)
    (done : semPost s semaphore = .ok s') : Change s s' := by
  unfold semPost at done
  rcases valid.wakeFirst_cases (.semaphore semaphore) with
    ⟨empty, nobody⟩ | ⟨t, middle, woken, handed⟩
  · rw [nobody] at done
    simp only at done
    split at done
    · cases done
    · injection done with equal
      subst equal
      exact .semCount semaphore empty
  · rw [woken] at done
    injection done with equal
    subst equal
    exact .semHand semaphore t handed

theorem Valid.emit {event : Event World} (valid : Valid s)
    (silent : event.Silent) : Valid (s.emit event) :=
  Invariant.valid ⟨valid.toConsistent.emit silent, valid.runs⟩

theorem Valid.mutexUnlock_change {mutex : Nat} (valid : Valid s)
    (inCode : (s.tasks s.current).context = .code)
    (done : mutexUnlock s mutex = .ok s') : Change s s' := by
  unfold mutexUnlock at done
  split at done
  · cases done
  rename_i owned
  have owner : s.owner mutex = some s.current := by simpa using owned
  have unlocked : Valid (s.emit (.unlocked mutex s.current)) :=
    valid.emit trivial
  rcases unlocked.wakeFirst_cases (.mutex mutex) with ⟨empty, nobody⟩ | ⟨t, middle, woken, handed⟩
  · rw [nobody] at done
    injection done with equal
    subst equal
    exact .unlockFree mutex owner inCode empty
  · rw [woken] at done
    injection done with equal
    subst equal
    exact .unlockHand mutex t owner inCode handed

theorem Valid.resume_change (valid : Valid s) (done : resume s = .ok s') :
    Change s s' := by
  unfold resume at done
  cases context : (s.tasks s.current).context with
  | code =>
      rw [context] at done
      injection done with equal
      subst equal
      exact .stay
  | sleeping =>
      rw [context] at done
      injection done with equal
      subst equal
      exact .awake context
  | semWait semaphore =>
      rw [context] at done
      injection done with equal
      subst equal
      exact .semReturn semaphore _ (Or.inr ⟨context, rfl⟩)
  | mutexLock mutex =>
      rw [context] at done
      injection done with equal
      subst equal
      exact .lockReturn .lock mutex _ (Or.inr ⟨context, rfl⟩) (by simp [context])
  | waitUntil queue ready timed deadline due =>
      rw [context] at done
      simp only at done
      cases result : (s.tasks s.current).wakeResult with
      | ok =>
          rw [result] at done
          exact valid.waitRound_change (by simp [context]) (Or.inr context) done
      | timeout =>
          rw [result] at done
          injection done with equal
          subst equal
          unfold waitTimedOut
          split
          · rename_i isReady
            exact .waitReturn ready timed due .ok
              ⟨queue, deadline, Or.inr context, Or.inl ⟨rfl, isReady⟩⟩
          · rename_i notReady
            exact .waitReturn ready timed due .timeout ⟨queue, deadline,
              Or.inr context, Or.inr ⟨rfl, by simpa using notReady,
                Or.inr ⟨context, result⟩⟩⟩
  | exiting =>
      rw [context] at done
      injection done with equal
      subst equal
      unfold schedulerSwitch
      split
      · exact .switch (schedule_switched valid.slotCount_pos)
      · exact .stay

theorem Context.code_of_inCode {context : Context World}
    (inCode : context.InCode) : context = .code := by
  cases context <;> first | rfl | exact inCode.elim

/-- Every step from a valid state is one of the changes. -/
theorem Valid.step_change (valid : Valid s) (step : Step s s') :
    Change s s' := by
  rcases step with ⟨action, enabled, done⟩
  cases action with
  | schedulerStart =>
      injection done with equal
      subst equal
      exact .start
  | taskCreate =>
      injection done with equal
      subst equal
      by_cases full : s.slotCount ≥ maxTasks
      · rw [taskCreate, if_pos full]
        exact .stay
      · exact .create (by omega)
  | taskYield =>
      injection done with equal
      subst equal
      unfold taskYield schedulerSwitch
      split
      · exact .switch (schedule_switched valid.slotCount_pos)
      · exact .stay
  | taskSleep ms =>
      exact valid.taskSleep_change (Context.code_of_inCode enabled) done
  | taskExit =>
      injection done with equal
      subst equal
      exact .exit (Context.code_of_inCode enabled.1) enabled.2
  | waitUntil queue ready timeoutMs =>
      have inCode := Context.code_of_inCode enabled
      exact valid.waitRound_change (by simp [inCode])
        (Or.inl ⟨inCode, timeoutMs, rfl, rfl, rfl⟩) done
  | semWaitTimeout semaphore timeoutMs =>
      exact valid.semWaitTimeout_change (Context.code_of_inCode enabled) done
  | mutexLockTimeout mutex timeoutMs =>
      exact valid.mutexLockTimeout_change (Context.code_of_inCode enabled) done
  | mutexTrylock mutex =>
      have inCode := Context.code_of_inCode enabled
      injection done with equal
      subst equal
      unfold mutexTrylock
      split
      · rename_i free
        exact .lockTake .trylock mutex inCode free
      · rename_i taken
        exact .lockReturn .trylock mutex .timeout (Or.inl ⟨inCode, rfl⟩)
          fun _ => ⟨taken, by simp⟩
  | mutexUnlock mutex =>
      exact valid.mutexUnlock_change (Context.code_of_inCode enabled) done
  | resume => exact valid.resume_change done
  | wakeOne queue =>
      injection done with equal
      subst equal
      unfold waitQueueWakeOne
      rcases valid.wakeFirst_cases (.events queue) with
        ⟨_, nobody⟩ | ⟨t, middle, woken, handed⟩
      · rw [nobody]
        exact .stay
      · rw [woken]
        exact .wakeOne queue t handed
  | wakeAll queue =>
      injection done with equal
      subst equal
      exact .wakeAll queue
  | semPost semaphore => exact valid.semPost_change done
  | setWorld world =>
      injection done with equal
      subst equal
      exact .write world
  | tick =>
      injection done with equal
      subst equal
      by_cases flag : s.runningFlag = true
      · exact .tick flag
      · rw [schedulerTick, if_neg flag]
        exact .stay

/-! ## Every change keeps the invariant -/

/-- Fields that the invariant does not mention. -/
theorem Valid.unrelated (valid : Valid s) (count : Nat → Nat)
    (owner : Nat → Option TaskRef) (flag : Bool) (world : World) :
    Valid { s with
      count := count, owner := owner, runningFlag := flag, world := world } :=
  ⟨valid.toConsistent.congr (fun _ => ⟨rfl, rfl, rfl⟩) (fun _ => Or.inl rfl)
    rfl rfl rfl (fun _ => rfl) valid.inOrder, valid.runs⟩

theorem Valid.withCount (valid : Valid s) (count : Nat → Nat) :
    Valid { s with count := count } :=
  valid.unrelated count s.owner s.runningFlag s.world

theorem Valid.withOwner (valid : Valid s) (owner : Nat → Option TaskRef) :
    Valid { s with owner := owner } :=
  valid.unrelated s.count owner s.runningFlag s.world

/-- A return to the caller's own code. -/
theorem Invariant.return {event : Event World} (invariant : Invariant s members)
    (running : (s.tasks s.current).state = .running) (silent : event.Silent) :
    Valid ((s.modifyTask s.current fun task => { task with context := .code }
      ).emit event) := by
  refine Invariant.valid ⟨(invariant.toConsistent.toCode (by simp [running])
    ).emit silent, Or.inl ?_⟩
  simp [Sched.emit, Sched.modifyTask, running]

theorem Returns.notExiting {context : Context World} {result : WaitResult}
    (returns : Returns s context result) (other : context ≠ .exiting) :
    (s.tasks s.current).context ≠ .exiting := by
  rcases returns with ⟨inCode, _⟩ | ⟨suspended, _⟩
  · simp [inCode]
  · rw [suspended]
    exact other

theorem WaitCall.notExiting {queue : Nat} {ready : World → Bool}
    {timed : Bool} {deadline due : Nat}
    (call : WaitCall s queue ready timed deadline due) :
    (s.tasks s.current).context ≠ .exiting := by
  rcases call with ⟨inCode, _⟩ | suspended
  · simp [inCode]
  · simp [suspended]

theorem Handed.valid (handed : Handed s s' q t) (before : Valid s) : Valid s' :=
  ⟨handed.consistent,
    handed.woke.currentRuns handed.blocked before.runs before.exits⟩

/-- What every wake-up preserves is preserved by the loop of
`wait_queue_wake_all`, which ends with an empty queue. -/
theorem Valid.wakeLoop_induction {Holds : Sched World → Prop}
    (step : ∀ s s' t, Valid s → Holds s → Handed s s' q t → Holds s') :
    ∀ {fuel woken : Nat} {s : Sched World}, Valid s → Holds s →
      (waiting q s.trace).length < fuel →
      Valid (wakeLoop q fuel woken s).2 ∧ Holds (wakeLoop q fuel woken s).2 ∧
        waiting q (wakeLoop q fuel woken s).2.trace = []
  | 0, _, _, _, _, enough => by simp at enough
  | fuel + 1, woken, s, valid, holds, enough => by
      rcases valid.wakeFirst_cases q with
        ⟨empty, nobody⟩ | ⟨t, after, woke, handed⟩
      · rw [wakeLoop, nobody]
        exact ⟨valid, holds, empty⟩
      · rw [wakeLoop, woke]
        refine wakeLoop_induction step (handed.valid valid)
          (step s after t valid holds handed) ?_
        have member := List.mem_of_head? handed.head
        have shorter := List.length_erase_of_mem member
        rw [handed.trace]
        simp only [waiting, if_true, shorter]
        have positive := List.length_pos_of_mem member
        omega

theorem Valid.wakeAll_spec (valid : Valid s) (Holds : Sched World → Prop)
    (holds : Holds s) (q : QueueRef)
    (step : ∀ s s' t, Valid s → Holds s → Handed s s' q t → Holds s') :
    ∃ drained, Valid drained ∧ Holds drained ∧ waiting q drained.trace = [] ∧
      (waitQueueWakeAll s q).2 = drained.emit (.wokeAll q) := by
  have enough : (waiting q s.trace).length < queueFuel :=
    Nat.lt_succ_of_le (valid.toConsistent.length_le q)
  have drained : Valid (wakeLoop q queueFuel 0 s).2 ∧ _ :=
    Valid.wakeLoop_induction step valid holds enough
  exact ⟨_, drained.1, drained.2.1, drained.2.2, rfl⟩

theorem taskCreate_consistent (before : Consistent s members)
    (room : s.slotCount < maxTasks) :
    Consistent (taskCreate s).2 members := by
  have unused : (s.tasks (.slot s.slotCount)).state = .unused := by
    by_contra used
    exact Nat.lt_irrefl _ (before.allocated _ used)
  have outside : ∀ q, TaskRef.slot s.slotCount ∉ members q := by
    intro q member
    have blocked := ((before.member_iff q _).mp member).1
    rw [unused] at blocked
    cases blocked
  have notFull : ¬ s.slotCount ≥ maxTasks := by omega
  simp only [taskCreate, if_neg notFull]
  -- Only the new slot differs, and it is in no queue.
  constructor
  case stores =>
    refine before.stores.congr ?_ rfl
    intro q t member
    have different : t ≠ .slot s.slotCount := fun equal =>
      outside q (equal ▸ member)
    simp [nextOf, Sched.modifyTask, different]
  case member_iff =>
    intro q t
    by_cases equal : t = .slot s.slotCount
    · subst equal
      simp [Sched.modifyTask, outside]
    · simpa [Sched.modifyTask, equal] using before.member_iff q t
  case unqueued =>
    intro t notBlocked
    by_cases equal : t = .slot s.slotCount
    · subst equal
      simp [Sched.modifyTask]
    · simp only [Sched.modifyTask, ne_eq, equal, not_false_eq_true,
        Function.update_of_ne] at notBlocked ⊢
      exact before.unqueued t notBlocked
  case allocated =>
    intro t used
    by_cases equal : t = .slot s.slotCount
    · subst equal
      exact Nat.lt_succ_self _
    · simp only [Sched.modifyTask, ne_eq, equal, not_false_eq_true,
        Function.update_of_ne] at used
      have inUse := before.allocated t used
      cases t with
      | idle => trivial
      | slot index => exact Nat.lt_succ_of_lt inUse
  case slotCount_pos => exact Nat.succ_pos _
  case slotCount_le => exact room
  case running_only =>
    intro t running
    by_cases equal : t = .slot s.slotCount
    · subst equal
      simp [Sched.modifyTask] at running
    · simp only [Sched.modifyTask, ne_eq, equal, not_false_eq_true,
        Function.update_of_ne] at running
      exact before.running_only t running
  case idle => simpa [Sched.modifyTask] using before.idle
  case fits =>
    intro t blocked
    by_cases equal : t = .slot s.slotCount
    · subst equal
      simp [Sched.modifyTask] at blocked
    · simp only [Sched.modifyTask, ne_eq, equal, not_false_eq_true,
        Function.update_of_ne] at blocked ⊢
      exact before.fits t blocked
  case exits =>
    intro t exiting
    by_cases equal : t = .slot s.slotCount
    · subst equal
      simp [Sched.modifyTask] at exiting
    · simp only [Sched.modifyTask, ne_eq, equal, not_false_eq_true,
        Function.update_of_ne] at exiting ⊢
      exact before.exits t exiting
  case fresh =>
    intro t isUnused
    by_cases equal : t = .slot s.slotCount
    · subst equal
      simp [Sched.modifyTask]
    · simp only [Sched.modifyTask, ne_eq, equal, not_false_eq_true,
        Function.update_of_ne] at isUnused ⊢
      exact before.fresh t isUnused
  case waits => exact before.waits
  case inOrder => exact before.inOrder

theorem taskExit_consistent (before : Consistent s members)
    (running : (s.tasks s.current).state = .running)
    (notIdle : s.current ≠ .idle) : Consistent (taskExit s) members := by
  have outside : ∀ q, s.current ∉ members q := by
    intro q member
    have blocked := ((before.member_iff q _).mp member).1
    rw [running] at blocked
    cases blocked
  constructor
  case stores =>
    refine before.stores.congr ?_ rfl
    intro q t member
    have different : t ≠ s.current := fun equal => outside q (equal ▸ member)
    simp [nextOf, taskExit, Sched.modifyTask, different]
  case member_iff =>
    intro q t
    by_cases equal : t = s.current
    · subst equal
      simp [taskExit, Sched.modifyTask, outside]
    · simpa [taskExit, Sched.modifyTask, equal] using before.member_iff q t
  case unqueued =>
    intro t notBlocked
    by_cases equal : t = s.current
    · subst equal
      simpa [taskExit, Sched.modifyTask] using
        before.unqueued s.current (by simp [running])
    · simp only [taskExit, Sched.modifyTask, ne_eq, equal, not_false_eq_true,
        Function.update_of_ne] at notBlocked ⊢
      exact before.unqueued t notBlocked
  case allocated =>
    intro t used
    by_cases equal : t = s.current
    · subst equal
      exact before.allocated _ (by simp [running])
    · simp only [taskExit, Sched.modifyTask, ne_eq, equal, not_false_eq_true,
        Function.update_of_ne] at used
      exact before.allocated t used
  case slotCount_pos => exact before.slotCount_pos
  case slotCount_le => exact before.slotCount_le
  case running_only =>
    intro t isRunning
    by_cases equal : t = s.current
    · exact equal
    · simp only [taskExit, Sched.modifyTask, ne_eq, equal, not_false_eq_true,
        Function.update_of_ne] at isRunning
      exact before.running_only t isRunning
  case idle =>
    simpa [taskExit, Sched.modifyTask, Function.update_of_ne notIdle.symm] using
      before.idle
  case fits =>
    intro t blocked
    by_cases equal : t = s.current
    · subst equal
      simp [taskExit, Sched.modifyTask] at blocked
    · simp only [taskExit, Sched.modifyTask, ne_eq, equal, not_false_eq_true,
        Function.update_of_ne] at blocked ⊢
      exact before.fits t blocked
  case exits =>
    intro t exiting
    by_cases equal : t = s.current
    · subst equal
      simp [taskExit, Sched.modifyTask]
    · simp only [taskExit, Sched.modifyTask, ne_eq, equal, not_false_eq_true,
        Function.update_of_ne] at exiting ⊢
      exact before.exits t exiting
  case fresh =>
    intro t unused
    by_cases equal : t = s.current
    · subst equal
      simp [taskExit, Sched.modifyTask] at unused
    · simp only [taskExit, Sched.modifyTask, ne_eq, equal, not_false_eq_true,
        Function.update_of_ne] at unused ⊢
      exact before.fresh t unused
  case waits => exact before.waits
  case inOrder => exact before.inOrder

/-- The state in which a timer tick looks for expired deadlines. -/
def advance (s : Sched World) : Sched World :=
  { s with ticks := (s.ticks + 1) % wordSize, clock := s.clock + 1 }

theorem Consistent.advance (before : Consistent s members) :
    Consistent (advance s) members :=
  before.congr (fun _ => ⟨rfl, rfl, rfl⟩) (fun _ => Or.inl rfl) rfl rfl rfl
    (fun _ => rfl) before.inOrder

/-- A timer tick times out tasks one after the other and then switches. -/
theorem Valid.tick_spec (valid : Valid s)
    (Holds : Sched World → Members → Prop) (flag : s.runningFlag = true)
    (start : Holds (Scheduler.advance s) fun q => waiting q s.trace)
    (step : ∀ s s' members i, Consistent s members → Holds s members →
      Expired s s' members i →
      Holds s' fun q => (members q).erase (.slot i)) :
    ∃ lists expired, Consistent expired lists ∧ Holds expired lists ∧
      Switched expired (schedulerTick s) := by
  rcases wakeExpired_induction valid.toConsistent.advance start step with
    ⟨lists, consistent, holds⟩
  refine ⟨lists, wakeExpired (Scheduler.advance s), consistent, holds, ?_⟩
  have ticked : schedulerTick s = schedule (wakeExpired (Scheduler.advance s)) :=
    if_pos flag
  rw [ticked]
  exact schedule_switched consistent.slotCount_pos

theorem Change.valid (change : Change s s') (before : Valid s) : Valid s' := by
  cases change with
  | stay => exact before
  | start => exact before.unrelated s.count s.owner true s.world
  | write world => exact before.unrelated s.count s.owner s.runningFlag world
  | create room =>
      refine Invariant.valid ⟨taskCreate_consistent before.toConsistent room, ?_⟩
      have notFull : ¬ s.slotCount ≥ maxTasks := by omega
      have different : s.current ≠ .slot s.slotCount := by
        intro equal
        have inUse : s.current.Allocated s.slotCount := by
          apply before.allocated
          rcases before.runs with running | exiting
          · simp [running]
          · simp [before.exits _ exiting]
        rw [equal] at inUse
        exact Nat.lt_irrefl _ inUse
      simpa [CurrentRuns, taskCreate, notFull, Sched.modifyTask, different] using
        before.runs
  | exit inCode notIdle =>
      have running := before.running_of_code (by simp [inCode])
      refine Invariant.valid
        ⟨taskExit_consistent before.toConsistent running notIdle, Or.inr ?_⟩
      simp [taskExit, Sched.modifyTask]
  | switch switched => exact (switched.invariant before.toConsistent).valid
  | tick flag =>
      rcases before.tick_spec (fun _ _ => True) flag trivial
        (fun _ _ _ _ _ _ _ => trivial) with
        ⟨lists, expired, consistent, _, switched⟩
      exact (switched.invariant consistent).valid
  | block running reason fits blocked consistent switched =>
      exact (switched.invariant consistent).valid
  | awake sleeping =>
      have running := before.running_of_code (by simp [sleeping])
      refine Invariant.valid
        ⟨before.toConsistent.toCode (by simp [running]), Or.inl ?_⟩
      simp [Sched.modifyTask, running]
  | semTake semaphore inCode positive =>
      have running := before.running_of_code (by simp [inCode])
      exact (before.withCount _).return running trivial
  | semReturn semaphore result returns =>
      exact before.return
        (before.running_of_code (returns.notExiting (by simp))) trivial
  | semCount semaphore empty =>
      exact (before.withCount _).emit trivial
  | semHand semaphore t handed => exact (handed.valid before).emit trivial
  | lockTake call mutex inCode free =>
      have running := before.running_of_code (by simp [inCode])
      exact (before.withOwner _).return running trivial
  | lockReturn call mutex result returns taken =>
      exact before.return
        (before.running_of_code (returns.notExiting (by simp))) trivial
  | unlockFree mutex owned inCode empty =>
      have unlocked : Valid (s.emit (.unlocked mutex s.current)) :=
        before.emit trivial
      exact unlocked.withOwner _
  | unlockHand mutex t owned inCode handed =>
      have unlocked : Valid (s.emit (.unlocked mutex s.current)) :=
        before.emit trivial
      exact (handed.valid unlocked).withOwner _
  | waitReturn ready timed due result returns =>
      rcases returns with ⟨queue, deadline, call, _⟩
      exact before.return (before.running_of_code call.notExiting) trivial
  | wakeOne queue t handed => exact handed.valid before
  | wakeAll queue =>
      rcases before.wakeAll_spec (fun _ => True) trivial
        (.events queue) (fun _ _ _ _ _ _ => trivial) with
        ⟨drained, valid, _, _, equal⟩
      rw [equal]
      exact valid.emit trivial

/-! ## Runs -/

theorem schedulerInit_valid (world : World) (count : Nat → Nat) :
    Valid (schedulerInit world count) := by
  constructor
  case runs => exact Or.inl rfl
  constructor
  case stores =>
    refine ⟨fun _ => rfl, fun _ => rfl, ?_⟩
    intro q q' t member
    cases member
  case member_iff =>
    intro q t
    simp only [waiting, schedulerInit, List.not_mem_nil, false_iff, not_and]
    intro blocked
    split at blocked <;> cases blocked
  case unqueued =>
    intro t _
    simp only [schedulerInit]
    split <;> rfl
  case allocated =>
    intro t used
    cases t with
    | idle => trivial
    | slot index =>
        cases index with
        | zero => exact Nat.zero_lt_one
        | succ index => exact absurd rfl used
  case slotCount_pos => exact Nat.zero_lt_one
  case slotCount_le => exact Nat.le_of_ble_eq_true rfl
  case running_only =>
    intro t running
    cases t with
    | idle => cases running
    | slot index =>
        cases index with
        | zero => rfl
        | succ index => cases running
  case idle => exact Or.inl rfl
  case fits =>
    intro t blocked
    simp only [schedulerInit] at blocked
    split at blocked <;> cases blocked
  case exits =>
    intro t exiting
    simp only [schedulerInit] at exiting
    split at exiting <;> cases exiting
  case fresh =>
    intro t _
    simp only [schedulerInit]
    split <;> rfl
  case waits => exact fun _ => rfl
  case inOrder =>
    intro later q t earlier split
    cases later <;> cases split

/-- What holds after `scheduler_init` and survives every change holds in every
reachable state. -/
theorem Reachable.induction {count : Nat → Nat} (reachable : Reachable count s)
    (Holds : Sched World → Prop) (init : ∀ world, Holds (schedulerInit world count))
    (step : ∀ s s', Valid s → Holds s → Change s s' → Holds s') :
    Valid s ∧ Holds s := by
  induction reachable with
  | init world => exact ⟨schedulerInit_valid world count, init world⟩
  | step _ next induction =>
      have change := induction.1.step_change next
      exact ⟨change.valid induction.1, step _ _ induction.1 induction.2 change⟩

theorem Reachable.valid {count : Nat → Nat} (reachable : Reachable count s) :
    Valid s :=
  (reachable.induction (fun _ => True) (fun _ => trivial)
    fun _ _ _ holds _ => holds).1

end Katela.Scheduler
