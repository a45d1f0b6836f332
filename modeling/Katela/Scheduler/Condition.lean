import Katela.Scheduler.Step

/-! # Waiting for a condition

Every return of `wait_queue_wait_until` agrees with its predicate and its
deadline at that moment, and no waiter sleeps through a
`wait_queue_wake_all`. -/

namespace Katela.Scheduler

variable {World : Type} {s s' : Sched World} {q : QueueRef} {t : TaskRef}

/-! ## Deadlines in 32 bits -/

theorem waitTicks_le (ms : Nat) : waitTicks ms ≤ maxWaitTicks + 1 := by
  have bounded : msToTicks ms ≤ maxWaitTicks := by
    dsimp only [msToTicks]
    generalize (if ms % msPerTick ≠ 0 then _ else _) = rounded
    split <;> omega
  simp only [waitTicks]
  split <;> omega

/-- The wrapped comparison is exact for deadlines that are near enough. -/
theorem due_of_timeReached {clock due : Nat}
    (near : due ≤ clock + maxWaitTicks + 1)
    (reached : timeReached (clock % wordSize) (due % wordSize) = true) :
    due ≤ clock := by
  have early := of_decide_eq_true reached
  simp only [wordSize, maxWaitTicks] at near early
  omega

/-- What is known about the deadline of a task that waits for a condition. -/
def Task.Timely (task : Task World) (clock : Nat) : Prop :=
  match task.context with
  | .waitUntil _ _ timed deadline due =>
      deadline = due % wordSize ∧ due ≤ clock + maxWaitTicks + 1 ∧
        (task.state = .blocked →
          task.hasDeadline = timed ∧ task.deadline = deadline) ∧
        (task.state ≠ .blocked → task.wakeResult = .timeout →
          timed = true ∧ due ≤ clock)
  | _ => True

structure Timely (s : Sched World) : Prop where
  ticks : s.ticks = s.clock % wordSize
  task : ∀ t, (s.tasks t).Timely s.clock

theorem Task.Timely.later {task : Task World} {clock clock' : Nat}
    (before : task.Timely clock) (later : clock ≤ clock') :
    task.Timely clock' := by
  unfold Task.Timely at *
  split at before
  · rcases before with ⟨wraps, near, blocked, woken⟩
    refine ⟨wraps, by omega, blocked, ?_⟩
    intro notBlocked timedOut
    rcases woken notBlocked timedOut with ⟨timed, reached⟩
    exact ⟨timed, by omega⟩
  · trivial

/-- A change of a task that keeps what its deadline depends on. -/
theorem Task.Timely.congr {task task' : Task World} {clock : Nat}
    (before : task.Timely clock) (context : task'.context = task.context)
    (state : task'.state = .blocked ↔ task.state = .blocked)
    (deadline : task'.deadline = task.deadline)
    (timed : task'.hasDeadline = task.hasDeadline)
    (result : task'.wakeResult = task.wakeResult) : task'.Timely clock := by
  unfold Task.Timely at *
  rw [context, Ne, state, deadline, timed, result]
  exact before

theorem Task.timely_of_context {task : Task World} {clock : Nat}
    (notWaiting : ∀ queue ready timed deadline due,
      task.context ≠ .waitUntil queue ready timed deadline due) :
    task.Timely clock := by
  unfold Task.Timely
  split
  · rename_i waits
    exact absurd waits (notWaiting _ _ _ _ _)
  · trivial

namespace Timely

theorem sameTasks (before : Timely s) (tasks : s'.tasks = s.tasks)
    (ticks : s'.ticks = s.ticks) (clock : s'.clock = s.clock) : Timely s' where
  ticks := by rw [ticks, clock, before.ticks]
  task t := by
    rw [tasks, clock]
    exact before.task t

theorem advance (before : Timely s) : Timely (Scheduler.advance s) where
  ticks := by
    simp only [Scheduler.advance, before.ticks, wordSize]
    omega
  task t := (before.task t).later (Nat.le_succ s.clock)

theorem switch (before : Timely s) (switched : Switched s s')
    (idle : (s.tasks .idle).state = .ready ∨ (s.tasks .idle).state = .running) :
    Timely s' where
  ticks := by
    rw [(congrArg Sched.ticks switched.rest :),
      (congrArg Sched.clock switched.rest :), before.ticks]
  task t := by
    rw [(congrArg Sched.clock switched.rest :)]
    exact (before.task t).congr (switched.context_eq t)
      (switched.state_iff idle (by simp) (by simp) t)
      (congrArg Task.deadline (switched.task t) :)
      (congrArg Task.hasDeadline (switched.task t) :)
      (congrArg Task.wakeResult (switched.task t) :)

/-- Waking a task, with a time-out only if its deadline has been reached. -/
theorem wake {result : WaitResult} (before : Timely s)
    (woke : Woke s s' t result)
    (reached : result = .timeout → (s.tasks t).state = .blocked ∧
      (s.tasks t).hasDeadline = true ∧
      timeReached s.ticks (s.tasks t).deadline = true) : Timely s' where
  ticks := by
    rw [(congrArg Sched.ticks woke.rest :), (congrArg Sched.clock woke.rest :),
      before.ticks]
  task other := by
    rw [(congrArg Sched.clock woke.rest :)]
    by_cases equal : other = t
    · subst equal
      have known := before.task other
      have woken : (s'.tasks other).wakeResult = result :=
        (congrArg Task.wakeResult woke.self :)
      unfold Task.Timely at *
      rw [woke.context_eq, woke.state_self, woken]
      split at known
      · rcases known with ⟨wraps, near, blocked, _⟩
        refine ⟨wraps, near, (fun impossible => by cases impossible), ?_⟩
        intro _ timedOut
        rcases reached timedOut with ⟨isBlocked, hasDeadline, isReached⟩
        rcases blocked isBlocked with ⟨timed, deadline⟩
        rw [deadline, wraps, before.ticks] at isReached
        exact ⟨timed ▸ hasDeadline, due_of_timeReached near isReached⟩
      · trivial
    · exact (before.task other).congr (woke.context_eq other)
        (by rw [woke.state_other equal])
        (congrArg Task.deadline (woke.others other equal) :)
        (congrArg Task.hasDeadline (woke.others other equal) :)
        (congrArg Task.wakeResult (woke.others other equal) :)

theorem tick (before : Timely s) (valid : Valid s)
    (flag : s.runningFlag = true) : Timely (schedulerTick s) := by
  rcases valid.tick_spec (fun s _ => Timely s) flag before.advance
    (fun _ _ _ _ _ holds expired => holds.wake expired.woke fun _ =>
      ⟨expired.blocked, expired.hasDeadline, expired.reached⟩) with
    ⟨lists, expired, consistent, holds, switched⟩
  exact holds.switch switched consistent.idle

/-- The local variables of a call that is running agree on its deadline. -/
theorem ofCall {queue : Nat} {ready : World → Bool} {timed : Bool}
    {deadline due : Nat} (before : Timely s)
    (call : WaitCall s queue ready timed deadline due) :
    deadline = due % wordSize ∧ due ≤ s.clock + maxWaitTicks + 1 := by
  rcases call with ⟨_, timeoutMs, _, isDeadline, isDue⟩ | suspended
  · have bounded := waitTicks_le timeoutMs
    constructor
    · rw [isDeadline, isDue, deadlineAfter, before.ticks]
      exact Nat.mod_add_mod _ _ _
    · omega
  · have known := before.task s.current
    unfold Task.Timely at known
    rw [suspended] at known
    exact ⟨known.1, known.2.1⟩

theorem block {middle : Sched World} {queue : Option QueueRef} {timed : Bool}
    {deadline : Nat} {context : Context World} (before : Timely s)
    (reason : Blocks s timed deadline context)
    (blocked : Blocked s middle queue timed deadline context) :
    Timely middle where
  ticks := by
    rw [(congrArg Sched.ticks blocked.rest :),
      (congrArg Sched.clock blocked.rest :), before.ticks]
  task t := by
    rw [(congrArg Sched.clock blocked.rest :)]
    by_cases equal : t = s.current
    · subst equal
      cases context with
      | waitUntil index ready timed' deadline' due =>
          rcases reason with ⟨sameTimed, sameDeadline, _, call⟩
          subst sameTimed
          subst sameDeadline
          have known := before.ofCall call
          unfold Task.Timely
          rw [blocked.context_self, blocked.state_self]
          refine ⟨known.1, known.2, fun _ => ?_, fun absurd => (absurd rfl).elim⟩
          exact ⟨(congrArg Task.hasDeadline blocked.self :),
            (congrArg Task.deadline blocked.self :)⟩
      | _ =>
          apply Task.timely_of_context
          simp [blocked.context_self]
    · exact (before.task t).congr (blocked.context_other equal)
        (by rw [blocked.state_other equal])
        (congrArg Task.deadline (blocked.others t equal) :)
        (congrArg Task.hasDeadline (blocked.others t equal) :)
        (congrArg Task.wakeResult (blocked.others t equal) :)

/-- A task goes to a context in which it waits for no condition. -/
theorem modifyTask (before : Timely s) (t : TaskRef)
    (change : Task World → Task World)
    (notWaiting : ∀ task queue ready timed deadline due,
      (change task).context ≠ .waitUntil queue ready timed deadline due) :
    Timely (s.modifyTask t change) where
  ticks := before.ticks
  task other := by
    by_cases equal : other = t
    · subst equal
      apply Task.timely_of_context
      simpa [Sched.modifyTask] using notWaiting (s.tasks other)
    · simpa [Sched.modifyTask, equal] using before.task other

theorem toCode (before : Timely s) : Timely
    (s.modifyTask s.current fun task => { task with context := .code }) :=
  before.modifyTask s.current _ (by simp)

theorem change (before : Timely s) (valid : Valid s) (change : Change s s') :
    Timely s' := by
  cases change with
  | stay => exact before
  | start => exact before.sameTasks rfl rfl rfl
  | write world => exact before.sameTasks rfl rfl rfl
  | create room =>
      have notFull : ¬ s.slotCount ≥ maxTasks := by omega
      simp only [taskCreate, notFull, if_false]
      have created := before.modifyTask (.slot s.slotCount) (fun task =>
        { task with
          state := .ready
          id := s.nextId
          queue := none
          waitNext := none
          hasDeadline := false
          wakeResult := .ok
          context := .code }) (by simp)
      exact created.sameTasks rfl rfl rfl
  | exit inCode notIdle => exact before.modifyTask s.current _ (by simp)
  | switch switched => exact before.switch switched valid.idle
  | tick flag => exact before.tick valid flag
  | block running reason fits blocked consistent switched =>
      exact (before.block reason blocked).switch switched consistent.idle
  | awake sleeping => exact before.toCode
  | semTake semaphore inCode positive =>
      exact before.toCode.sameTasks rfl rfl rfl
  | semReturn semaphore result returns =>
      exact before.toCode.sameTasks rfl rfl rfl
  | semCount semaphore empty => exact before.sameTasks rfl rfl rfl
  | semHand semaphore t handed =>
      have woken := before.wake handed.woke fun impossible => by cases impossible
      exact woken.sameTasks rfl rfl rfl
  | lockTake call mutex inCode free =>
      exact before.toCode.sameTasks rfl rfl rfl
  | lockReturn call mutex result returns taken =>
      exact before.toCode.sameTasks rfl rfl rfl
  | unlockFree mutex owned inCode empty => exact before.sameTasks rfl rfl rfl
  | unlockHand mutex t owned inCode handed =>
      have unlocked : Timely (s.emit (.unlocked mutex s.current)) :=
        before.sameTasks rfl rfl rfl
      have woken := unlocked.wake handed.woke
        fun impossible => by cases impossible
      exact woken.sameTasks rfl rfl rfl
  | waitReturn ready timed due result returns =>
      exact before.toCode.sameTasks rfl rfl rfl
  | wakeOne queue t handed =>
      exact before.wake handed.woke fun impossible => by cases impossible
  | wakeAll queue =>
      rcases valid.wakeAll_spec Timely before (.events queue)
        (fun _ _ _ _ holds handed =>
          holds.wake handed.woke fun impossible => by cases impossible) with
        ⟨drained, _, holds, _, equal⟩
      rw [equal]
      exact holds.sameTasks rfl rfl rfl

end Timely

/-! ## The trace of returns and wake-ups -/

/-- A return of `wait_queue_wait_until` that agrees with its predicate and its
deadline. -/
def Event.Exact : Event World → Prop
  | .waitReturned _ ready _ _ .ok world _ => ready world = true
  | .waitReturned _ ready timed due .timeout world clock =>
      ready world = false ∧ timed = true ∧ due ≤ clock
  | _ => True

/-- Every return so far was exact, and `wait_queue_wake_all` left nobody
waiting. -/
structure Faithful (trace : List (Event World)) : Prop where
  exact : ∀ event ∈ trace, event.Exact
  drained : ∀ later q earlier, trace = later ++ .wokeAll q :: earlier →
    waiting q earlier = []

/-- Events about which `Faithful` says nothing. -/
def Event.Unremarkable : Event World → Prop
  | .waitReturned .. | .wokeAll _ => False
  | _ => True

namespace Faithful

variable {trace : List (Event World)} {event : Event World}

theorem cons (before : Faithful trace) (exact : event.Exact)
    (drained : ∀ q, event = .wokeAll q → waiting q trace = []) :
    Faithful (event :: trace) where
  exact other member := by
    rcases List.mem_cons.mp member with equal | earlier
    · subst equal
      exact exact
    · exact before.exact other earlier
  drained later q earlier split := by
    cases later with
    | nil =>
        injection split with first rest
        subst rest
        exact drained q first
    | cons first others =>
        injection split with _ rest
        exact before.drained others q earlier rest

theorem unremarkable (before : Faithful trace)
    (unremarkable : event.Unremarkable) : Faithful (event :: trace) := by
  refine before.cons ?_ ?_
  · cases event with
    | waitReturned => exact unremarkable.elim
    | _ => trivial
  · intro q equal
    subst equal
    exact unremarkable.elim

theorem tick (before : Faithful s.trace) (valid : Valid s)
    (flag : s.runningFlag = true) : Faithful (schedulerTick s).trace := by
  have step : ∀ (middle after : Sched World) (members : Members) (i : Nat),
      Consistent middle members → Faithful middle.trace →
      Expired middle after members i → Faithful after.trace := by
    intro middle after members i _ holds expired
    cases queued : (middle.tasks (.slot i)).queue with
    | none =>
        rw [expired.trace_none queued]
        exact holds
    | some q =>
        rw [expired.trace_some q queued]
        exact holds.unremarkable trivial
  rcases valid.tick_spec (fun s _ => Faithful s.trace) flag before step with
    ⟨lists, expired, consistent, holds, switched⟩
  rw [switched.trace]
  exact holds

/-- A return that the code makes is exact. -/
theorem returned {ready : World → Bool} {timed : Bool} {due : Nat}
    {result : WaitResult} (timely : Timely s) (valid : Valid s)
    (returns : WaitReturns s ready timed due result) :
    (Event.waitReturned s.current ready timed due result s.world
      s.clock).Exact := by
  rcases returns with ⟨queue, deadline, call, isOk | ⟨isTimeout, unready, why⟩⟩
  · rw [isOk.1]
    exact isOk.2
  · rw [isTimeout]
    rcases why with ⟨isTimed, reached⟩ | ⟨suspended, woken⟩
    · have known := timely.ofCall call
      rw [known.1, timely.ticks] at reached
      exact ⟨unready, isTimed, due_of_timeReached known.2 reached⟩
    · have running := valid.running_of_code (by simp [suspended])
      have known := timely.task s.current
      unfold Task.Timely at known
      rw [suspended, running, woken] at known
      exact ⟨unready, known.2.2.2 (by simp) rfl⟩

theorem change (before : Faithful s.trace) (timely : Timely s)
    (valid : Valid s) (change : Change s s') : Faithful s'.trace := by
  cases change with
  | stay => exact before
  | start => exact before
  | write world => exact before
  | create room =>
      have notFull : ¬ s.slotCount ≥ maxTasks := by omega
      have trace : (taskCreate s).2.trace = s.trace := by
        simp [taskCreate, notFull, Sched.modifyTask]
      rw [trace]
      exact before
  | exit inCode notIdle => exact before
  | switch switched =>
      rw [switched.trace]
      exact before
  | tick flag => exact before.tick valid flag
  | @block middle _ queue _ _ _ _ _ _ blocked _ switched =>
      rw [switched.trace]
      cases queue with
      | none =>
          rw [blocked.trace_none rfl]
          exact before
      | some q =>
          rw [blocked.trace_some q rfl]
          exact before.unremarkable trivial
  | awake sleeping => exact before
  | semTake semaphore inCode positive => exact before.unremarkable trivial
  | semReturn semaphore result returns => exact before.unremarkable trivial
  | semCount semaphore empty => exact before.unremarkable trivial
  | semHand semaphore t handed =>
      have woken : Faithful (.woken (.semaphore semaphore) t :: s.trace) :=
        before.unremarkable trivial
      rw [← handed.trace] at woken
      exact woken.unremarkable trivial
  | lockTake call mutex inCode free => exact before.unremarkable trivial
  | lockReturn call mutex result returns taken =>
      exact before.unremarkable trivial
  | unlockFree mutex owned inCode empty => exact before.unremarkable trivial
  | unlockHand mutex t owned inCode handed =>
      have unlocked : Faithful (.unlocked mutex s.current :: s.trace) :=
        before.unremarkable trivial
      rw [handed.trace]
      exact unlocked.unremarkable trivial
  | waitReturn ready timed due result returns =>
      refine before.cons (returned timely valid returns) ?_
      intro q equal
      cases equal
  | wakeOne queue t handed =>
      rw [handed.trace]
      exact before.unremarkable trivial
  | wakeAll queue =>
      rcases valid.wakeAll_spec (fun s => Faithful s.trace) before
        (.events queue) (fun s s' t _ holds handed => by
          rw [handed.trace]
          exact holds.unremarkable trivial) with
        ⟨drained, _, holds, empty, equal⟩
      rw [equal]
      refine holds.cons trivial ?_
      intro q equal
      injection equal with same
      subst same
      exact empty

end Faithful

/-- A task waits now because it waited before or joined the queue since. -/
theorem waiting_append {later earlier : List (Event World)}
    (member : t ∈ waiting q (later ++ earlier)) :
    t ∈ waiting q earlier ∨ .enqueued q t ∈ later := by
  induction later with
  | nil => exact Or.inl member
  | cons event later induction =>
      have still : t ∈ waiting q (later ++ earlier) ∨ event = .enqueued q t := by
        cases event with
        | enqueued queue task =>
            by_cases same : queue = q
            · subst same
              simp only [List.cons_append, waiting, if_true, List.mem_append,
                List.mem_singleton] at member
              rcases member with before | equal
              · exact Or.inl before
              · exact Or.inr (by rw [equal])
            · simp only [List.cons_append, waiting, same, if_false] at member
              exact Or.inl member
        | woken queue task =>
            by_cases same : queue = q
            · simp only [List.cons_append, waiting, same, if_true] at member
              exact Or.inl (List.mem_of_mem_erase member)
            · simp only [List.cons_append, waiting, same, if_false] at member
              exact Or.inl member
        | timedOut queue task =>
            by_cases same : queue = q
            · simp only [List.cons_append, waiting, same, if_true] at member
              exact Or.inl (List.mem_of_mem_erase member)
            · simp only [List.cons_append, waiting, same, if_false] at member
              exact Or.inl member
        | _ => exact Or.inl member
      rcases still with before | joined
      · rcases induction before with early | late
        · exact Or.inl early
        · exact Or.inr (List.mem_cons_of_mem _ late)
      · exact Or.inr (by simp [joined])

/-! ## Exact waiting in every reachable state -/

/-- What `wait_queue_wait_until` and `wait_queue_wake_all` guarantee. -/
structure WaitContract (s : Sched World) : Prop where
  /-- `WAIT_OK` is returned only while the predicate holds. -/
  ok : ∀ t ready timed due world clock,
    .waitReturned t ready timed due .ok world clock ∈ s.trace →
    ready world = true
  /-- `WAIT_TIMEOUT` is returned only at or after the deadline and while the
  predicate does not hold. -/
  timeout : ∀ t ready timed due world clock,
    .waitReturned t ready timed due .timeout world clock ∈ s.trace →
    ready world = false ∧ timed = true ∧ due ≤ clock
  /-- Who is blocked on a queue after a `wait_queue_wake_all` of it has entered
  the queue after that wake-up. -/
  noLostWakeup : ∀ later queue earlier t,
    s.trace = later ++ .wokeAll (.events queue) :: earlier →
    (s.tasks t).state = .blocked → (s.tasks t).queue = some (.events queue) →
    .enqueued (.events queue) t ∈ later

theorem schedulerInit_timely (world : World) (count : Nat → Nat) :
    Timely (schedulerInit world count) where
  ticks := rfl
  task t := by
    apply Task.timely_of_context
    intro queue ready timed deadline due
    simp only [schedulerInit]
    split <;> simp

theorem reachable_waitContract {count : Nat → Nat} {s : Sched World}
    (reachable : Reachable count s) : WaitContract s := by
  have invariant := reachable.induction
    (fun s => Timely s ∧ Faithful s.trace)
    (fun world => ⟨schedulerInit_timely world count,
      ⟨by simp [schedulerInit], by simp [schedulerInit]⟩⟩)
    fun s s' valid holds change =>
      ⟨holds.1.change valid change, holds.2.change holds.1 valid change⟩
  rcases invariant with ⟨valid, timely, faithful⟩
  constructor
  case ok =>
    intro t ready timed due world clock member
    exact faithful.exact _ member
  case timeout =>
    intro t ready timed due world clock member
    exact faithful.exact _ member
  case noLostWakeup =>
    intro later queue earlier t split blocked queued
    have waits := (valid.member_iff (.events queue) t).mpr ⟨blocked, queued⟩
    rw [split] at waits
    rcases waiting_append waits with before | late
    · have nobody := faithful.drained later _ earlier split
      have still : t ∈ waiting (.events queue) earlier := before
      rw [nobody] at still
      cases still
    · exact late

/-- The main task waits for a flag without a deadline; the flag is set and the
queue is woken, and the call returns. -/
theorem waitContract_after_wakeAll :
    ∃ s : Sched Bool, Reachable (fun _ => 0) s ∧
      s.trace.length = 4 ∧ s.world = true ∧ WaitContract s := by
  have started : Reachable (fun _ => 0) (schedulerStart (schedulerInit false _)) :=
    .step (.init false) ⟨.schedulerStart, trivial, rfl⟩
  have waits : Reachable (fun _ => 0) _ :=
    .step started ⟨.waitUntil 2 id waitForever, trivial, rfl⟩
  have written : Reachable (fun _ => 0) _ :=
    .step waits ⟨.setWorld true, trivial, rfl⟩
  have woken : Reachable (fun _ => 0) _ :=
    .step written ⟨.wakeAll 2, trivial, rfl⟩
  have switched : Reachable (fun _ => 0) _ :=
    .step woken ⟨.tick, trivial, rfl⟩
  have returned : Reachable (fun _ => 0) _ :=
    .step switched ⟨.resume, (fun inCode => inCode), rfl⟩
  exact ⟨_, returned, rfl, rfl, reachable_waitContract returned⟩

end Katela.Scheduler
