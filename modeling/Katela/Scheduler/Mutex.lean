import Katela.Scheduler.Grant

/-! # Mutual exclusion

A mutex is free, held by the task that took it, or handed over to a task that
was blocked in a lock call and has not run since. Every change moves a mutex
between these three situations as the events tell. -/

namespace Katela.Scheduler

variable {World : Type} {s s' : Sched World} {mutex : Nat} {t : TaskRef}

/-- The tasks between a successful return from a lock call and the matching
unlock. -/
def holders (mutex : Nat) : List (Event World) → List TaskRef
  | [] => []
  | .lockReturned _ index task .ok :: earlier =>
      if index = mutex then task :: holders mutex earlier
      else holders mutex earlier
  | .unlocked index task :: earlier =>
      if index = mutex then (holders mutex earlier).erase task
      else holders mutex earlier
  | .lockReturned _ _ _ .timeout :: earlier => holders mutex earlier
  | .enqueued _ _ :: earlier => holders mutex earlier
  | .woken _ _ :: earlier => holders mutex earlier
  | .timedOut _ _ :: earlier => holders mutex earlier
  | .wokeAll _ :: earlier => holders mutex earlier
  | .semReturned _ _ _ :: earlier => holders mutex earlier
  | .posted _ :: earlier => holders mutex earlier
  | .waitReturned _ _ _ _ _ _ _ :: earlier => holders mutex earlier

/-- The three situations of a mutex. -/
inductive MutexState (s : Sched World) (mutex : Nat) : Prop
  | free : s.owner mutex = none → holders mutex s.trace = [] →
      (∀ t, ¬ Granted s (.mutexLock mutex) t) → waiting (.mutex mutex) s.trace = [] →
      MutexState s mutex
  | held (t : TaskRef) : s.owner mutex = some t →
      holders mutex s.trace = [t] → (∀ t, ¬ Granted s (.mutexLock mutex) t) →
      (s.tasks t).context ≠ .mutexLock mutex → MutexState s mutex
  | handed (t : TaskRef) : s.owner mutex = some t →
      holders mutex s.trace = [] →
      (∀ other, Granted s (.mutexLock mutex) other ↔ other = t) → MutexState s mutex

/-- Whether an event can change who holds a mutex. -/
def Event.AboutLock : Event World → Prop
  | .lockReturned _ _ _ .ok | .unlocked _ _ => True
  | _ => False

theorem holders_unrelated {event : Event World} (unrelated : ¬ event.AboutLock)
    (trace : List (Event World)) :
    holders mutex (event :: trace) = holders mutex trace := by
  cases event with
  | lockReturned call index task result =>
      cases result with
      | ok => exact absurd trivial unrelated
      | timeout => rfl
  | unlocked index task => exact absurd trivial unrelated
  | _ => rfl

namespace MutexState

/-- A change that concerns neither the owner nor the callers of a mutex. -/
theorem congr (before : MutexState s mutex)
    (owner : s'.owner mutex = s.owner mutex)
    (holding : holders mutex s'.trace = holders mutex s.trace)
    (granted : ∀ t, Granted s' (.mutexLock mutex) t ↔ Granted s (.mutexLock mutex) t)
    (calls : ∀ t, s.owner mutex = some t →
      (s'.tasks t).context = .mutexLock mutex →
      (s.tasks t).context = .mutexLock mutex)
    (queue : waiting (.mutex mutex) s.trace = [] →
      waiting (.mutex mutex) s'.trace = [] ∨ s.owner mutex ≠ none) :
    MutexState s' mutex := by
  cases before with
  | free noOwner nobody notGranted empty =>
      refine .free (owner.trans noOwner) (holding.trans nobody) ?_ ?_
      · intro t isGranted
        exact notGranted t ((granted t).mp isGranted)
      · rcases queue empty with still | owned
        · exact still
        · exact absurd noOwner owned
  | held t owned holds notGranted notCalling =>
      refine .held t (owner.trans owned) (holding.trans holds) ?_ ?_
      · intro other isGranted
        exact notGranted other ((granted other).mp isGranted)
      · intro calling
        exact notCalling (calls t owned calling)
  | handed t owned nobody isGranted =>
      refine .handed t (owner.trans owned) (holding.trans nobody) ?_
      intro other
      exact (granted other).trans (isGranted other)

/-- The tasks and the waiters of the mutex are the same. -/
theorem sameTasks (before : MutexState s mutex) (tasks : s'.tasks = s.tasks)
    (owner : s'.owner mutex = s.owner mutex)
    (holding : holders mutex s'.trace = holders mutex s.trace)
    (queue : waiting (.mutex mutex) s'.trace = waiting (.mutex mutex) s.trace) :
    MutexState s' mutex := by
  refine before.congr owner holding (fun t => ?_) (fun t _ call => ?_) ?_
  · unfold Granted
    rw [tasks]
  · rw [tasks] at call
    exact call
  · intro empty
    exact Or.inl (queue.trans empty)

end MutexState

/-! ## Every change keeps the situation of a mutex -/

namespace MutexState

theorem switch (before : MutexState s mutex) (switched : Switched s s')
    (idle : (s.tasks .idle).state = .ready ∨ (s.tasks .idle).state = .running) :
    MutexState s' mutex := by
  refine before.congr (congrFun (congrArg Sched.owner switched.rest :) mutex)
    (by rw [switched.trace]) (fun t => switched.granted_iff idle)
    (fun t _ call => switched.context_eq t ▸ call) ?_
  intro empty
  rw [switched.trace]
  exact Or.inl empty

/-- A timer tick concerns no owner, holder or granted caller. -/
theorem tick (before : MutexState s mutex) (valid : Valid s)
    (flag : s.runningFlag = true) : MutexState (schedulerTick s) mutex := by
  have start : MutexState (advance s) mutex :=
    before.sameTasks rfl rfl rfl rfl
  have step : ∀ (middle after : Sched World) (members : Members) (i : Nat),
      Consistent middle members → MutexState middle mutex →
      Expired middle after members i → MutexState after mutex := by
    intro middle after members i consistent holds expired
    have holding : holders mutex after.trace = holders mutex middle.trace := by
      cases queued : (middle.tasks (.slot i)).queue with
      | none => rw [expired.trace_none queued]
      | some q =>
          rw [expired.trace_some q queued]
          exact holders_unrelated (by simp [Event.AboutLock]) _
    refine holds.congr (congrFun (congrArg Sched.owner expired.woke.rest :) mutex)
      holding (expired.woke.granted_iff_of_timeout expired.blocked)
      (fun t _ call => expired.woke.context_eq t ▸ call) ?_
    intro empty
    rw [consistent.waits] at empty
    rw [expired.consistent.waits, empty]
    exact Or.inl rfl
  rcases valid.tick_spec (fun s _ => MutexState s mutex) flag start step with
    ⟨lists, expired, consistent, holds, switched⟩
  exact holds.switch switched consistent.idle

/-- Blocking joins the queue of a mutex only when the mutex has an owner. -/
theorem block {middle : Sched World} {queue : Option QueueRef} {timed : Bool}
    {deadline : Nat} {context : Context World} (before : MutexState s mutex)
    (reason : Blocks s timed deadline context) (fits : context.Fits queue)
    (blocked : Blocked s middle queue timed deadline context)
    (consistent : Consistent middle fun q => waiting q middle.trace)
    (switched : Switched middle s') : MutexState s' mutex := by
  have marked : MutexState middle mutex := by
    refine before.congr (congrFun (congrArg Sched.owner blocked.rest :) mutex) ?_
      (blocked.granted_iff (reason.not_granted trivial)) ?_ ?_
    · cases queue with
      | none => rw [blocked.trace_none rfl]
      | some q =>
          rw [blocked.trace_some q rfl]
          exact holders_unrelated (by simp [Event.AboutLock]) _
    · intro t owned call
      by_cases equal : t = s.current
      · subst equal
        rw [blocked.context_self] at call
        subst call
        exact absurd owned reason.2.2
      · rw [blocked.context_other equal] at call
        exact call
    · intro empty
      by_cases joins : queue = some (.mutex mutex)
      · subst joins
        right
        cases context with
        | mutexLock index =>
            have same : mutex = index := fits
            subst same
            exact reason.2.1
        | _ => exact fits.elim
      · left
        cases queue with
        | none =>
            rw [blocked.trace_none rfl]
            exact empty
        | some q =>
            rw [blocked.trace_some q rfl]
            have different : ¬ q = .mutex mutex := fun equal =>
              joins (congrArg some equal)
            simpa [waiting, different] using empty
  exact marked.switch switched consistent.idle

/-- Waking a waiter of another queue. -/
theorem wakeOther {q : QueueRef} (before : MutexState s mutex) (valid : Valid s)
    (handed : Handed s s' q t) (unrelated : q ≠ .mutex mutex) :
    MutexState s' mutex := by
  have unfit : ¬ (Context.mutexLock mutex : Context World).Fits (some q) := by
    intro fits
    cases q with
    | mutex index =>
        have same : index = mutex := fits
        exact unrelated (congrArg QueueRef.mutex same)
    | _ => exact fits
  refine before.congr (congrFun (congrArg Sched.owner handed.woke.rest :) mutex)
    ?_ (handed.granted_iff valid.toConsistent unfit)
    (fun t _ call => handed.woke.context_eq t ▸ call) ?_
  · rw [handed.trace]
    exact holders_unrelated (by simp [Event.AboutLock]) _
  · intro empty
    rw [handed.trace]
    simpa [waiting, unrelated] using Or.inl empty

/-- Going back to its own code starts no lock call. -/
theorem toCode_calls (call : ((s.modifyTask s.current fun task =>
      { task with context := .code }).tasks t).context = .mutexLock mutex) :
    (s.tasks t).context = .mutexLock mutex := by
  by_cases equal : t = s.current
  · subst equal
    simp [Sched.modifyTask] at call
  · simpa [Sched.modifyTask, equal] using call

theorem emit {event : Event World} (before : MutexState s mutex)
    (silent : event.Silent) (unrelated : ¬ event.AboutLock) :
    MutexState (s.emit event) mutex := by
  exact before.sameTasks rfl rfl (holders_unrelated unrelated _)
    (waiting_silent silent _ _)

/-- A return that says nothing about this mutex, by a caller that was not
granted it. -/
theorem returnCode {event : Event World} (before : MutexState s mutex)
    (silent : event.Silent)
    (unrelated : ∀ trace, holders mutex (event :: trace) = holders mutex trace)
    (different : ¬ Granted s (.mutexLock mutex) s.current) :
    MutexState ((s.modifyTask s.current fun task =>
      { task with context := .code }).emit event) mutex := by
  refine before.congr rfl (unrelated _) (fun t => ?_) ?_ ?_
  · exact granted_toCode different (by simp)
  · exact fun t _ => toCode_calls
  · intro empty
    left
    exact (waiting_silent silent _ _).trans empty

/-- A caller in its own code is granted nothing, so it is the owner because it
holds the mutex. -/
theorem held_of_code (before : MutexState s mutex)
    (owned : s.owner mutex = some t) (inCode : (s.tasks t).context = .code) :
    holders mutex s.trace = [t] ∧ ∀ other, ¬ Granted s (.mutexLock mutex) other := by
  cases before with
  | free noOwner => rw [noOwner] at owned; cases owned
  | held other isOwner holds notGranted _ =>
      rw [isOwner] at owned
      injection owned with equal
      subst equal
      exact ⟨holds, notGranted⟩
  | handed other isOwner _ granted =>
      rw [isOwner] at owned
      injection owned with equal
      subst equal
      have isGranted := (granted other).mpr rfl
      exact absurd isGranted (not_granted_of_context inCode (by simp))

/-- Taking a free mutex. -/
theorem take (before : MutexState s mutex) (free : s.owner mutex = none)
    (call : LockCall) :
    MutexState (lockReturn { s with
      owner := Function.update s.owner mutex (some s.current) } call mutex .ok)
      mutex := by
  cases before with
  | held t owned => rw [free] at owned; cases owned
  | handed t owned => rw [free] at owned; cases owned
  | free _ nobody notGranted empty =>
      refine .held s.current ?_ ?_ ?_ ?_
      · simp [lockReturn, Sched.emit, Sched.modifyTask]
      · simp [lockReturn, Sched.emit, Sched.modifyTask, holders, nobody]
      · intro t granted
        exact notGranted t
          ((granted_toCode (notGranted s.current) (by simp)).mp granted)
      · simp [lockReturn, Sched.emit, Sched.modifyTask]

/-- The return of a caller that the mutex was handed to. -/
theorem resumeGranted (before : MutexState s mutex) (call : LockCall)
    (granted : Granted s (.mutexLock mutex) s.current) :
    MutexState (lockReturn s call mutex .ok) mutex := by
  cases before with
  | free _ _ notGranted => exact absurd granted (notGranted _)
  | held _ _ _ notGranted => exact absurd granted (notGranted _)
  | handed t owned nobody isGranted =>
      have equal := (isGranted s.current).mp granted
      subst equal
      refine .held s.current owned ?_ ?_ ?_
      · simp [lockReturn, Sched.emit, Sched.modifyTask, holders, nobody]
      · intro other stillGranted
        by_cases same : other = s.current
        · subst same
          have context := stillGranted.1
          simp [lockReturn, Sched.emit, Sched.modifyTask] at context
        · have already : Granted s (.mutexLock mutex) other := by
            simpa [Granted, lockReturn, Sched.emit, Sched.modifyTask, same] using
              stillGranted
          exact same ((isGranted other).mp already)
      · simp [lockReturn, Sched.emit, Sched.modifyTask]

/-- Releasing a mutex that nobody waits for. -/
theorem release (before : MutexState s mutex)
    (owned : s.owner mutex = some s.current)
    (inCode : (s.tasks s.current).context = .code)
    (empty : waiting (.mutex mutex) s.trace = []) :
    MutexState { s.emit (.unlocked mutex s.current) with
      owner := Function.update s.owner mutex none } mutex := by
  have held := before.held_of_code owned inCode
  refine .free ?_ ?_ held.2 empty
  · simp
  · simp [Sched.emit, holders, held.1]

/-- Handing a mutex over to the task that has waited longest. -/
theorem handOver {middle : Sched World} (before : MutexState s mutex)
    (valid : Valid s) (owned : s.owner mutex = some s.current)
    (inCode : (s.tasks s.current).context = .code)
    (handed : Handed (s.emit (.unlocked mutex s.current)) middle
      (.mutex mutex) t) :
    MutexState { middle with
      owner := Function.update middle.owner mutex (some t) } mutex := by
  have held := before.held_of_code owned inCode
  refine .handed t (by simp) ?_ ?_
  · rw [handed.trace]
    simp [Sched.emit, holders, held.1]
  · intro other
    constructor
    · intro granted
      by_contra different
      have already : Granted s (.mutexLock mutex) other :=
        (handed.woke.granted_other different).mp granted
      exact held.2 other already
    · intro equal
      subst equal
      have unlocked : Valid (s.emit (.unlocked mutex s.current)) :=
        valid.emit trivial
      have fits := handed.fits unlocked.toConsistent
      refine handed.granted ?_
      cases call : ((s.emit (.unlocked mutex s.current)).tasks other).context with
      | mutexLock index =>
          rw [call] at fits
          have same : mutex = index := fits
          rw [same]
      | _ =>
          rw [call] at fits
          exact fits.elim

theorem change (before : MutexState s mutex) (valid : Valid s)
    (change : Change s s') : MutexState s' mutex := by
  cases change with
  | stay => exact before
  | start =>
      exact before.sameTasks rfl rfl rfl rfl
  | write world =>
      exact before.sameTasks rfl rfl rfl rfl
  | create room =>
      have notFull : ¬ s.slotCount ≥ maxTasks := by omega
      refine before.congr ?_ ?_
        (fun t => granted_taskCreate valid room (by simp)) (fun t _ call => ?_) ?_
      · simp [taskCreate, notFull, Sched.modifyTask]
      · simp [taskCreate, notFull, Sched.modifyTask]
      · by_cases equal : t = .slot s.slotCount
        · subst equal
          simp [taskCreate, notFull, Sched.modifyTask] at call
        · simpa [taskCreate, notFull, Sched.modifyTask, equal] using call
      · intro empty
        exact Or.inl (by simpa [taskCreate, notFull, Sched.modifyTask] using empty)
  | exit inCode notIdle =>
      refine before.congr rfl rfl (fun t => granted_taskExit inCode trivial)
        (fun t _ call => ?_) fun empty => Or.inl empty
      by_cases equal : t = s.current
      · subst equal
        simp [taskExit, Sched.modifyTask] at call
      · simpa [taskExit, Sched.modifyTask, equal] using call
  | switch switched => exact before.switch switched valid.idle
  | tick flag => exact before.tick valid flag
  | block running reason fits blocked consistent switched =>
      exact before.block reason fits blocked consistent switched
  | awake sleeping =>
      have different : ¬ Granted s (.mutexLock mutex) s.current :=
        not_granted_of_context sleeping (by simp)
      refine before.congr rfl rfl (fun t => ?_) (fun t _ => toCode_calls)
        fun empty => Or.inl empty
      exact granted_toCode different (by simp)
  | semTake semaphore inCode positive =>
      have counted : MutexState { s with
          count := Function.update s.count semaphore (s.count semaphore - 1) }
          mutex :=
        before.sameTasks rfl rfl rfl rfl
      exact counted.returnCode trivial (fun _ => rfl)
        (not_granted_of_context inCode (by simp))
  | semReturn semaphore result returns =>
      refine before.returnCode trivial (fun _ => rfl) ?_
      rcases returns with ⟨inCode, _⟩ | ⟨suspended, _⟩
      · exact not_granted_of_context inCode (by simp)
      · exact not_granted_of_context suspended (by simp)
  | semCount semaphore empty =>
      have counted : MutexState { s with
          count := Function.update s.count semaphore (s.count semaphore + 1) }
          mutex :=
        before.sameTasks rfl rfl rfl rfl
      exact counted.emit trivial (by simp [Event.AboutLock])
  | semHand semaphore t handed =>
      exact (before.wakeOther valid handed (by simp)).emit trivial
        (by simp [Event.AboutLock])
  | lockTake call index inCode free =>
      by_cases same : index = mutex
      · subst same
        exact before.take free call
      · have different : ¬ Granted s (.mutexLock mutex) s.current :=
          not_granted_of_context inCode (by simp)
        have owned : MutexState { s with
            owner := Function.update s.owner index (some s.current) } mutex := by
          refine before.sameTasks rfl ?_ rfl rfl
          simp [Function.update_of_ne fun equal => same equal.symm]
        exact owned.returnCode trivial (fun _ => by simp [holders, same])
          different
  | lockReturn call index result returns taken =>
      by_cases same : index = mutex
      · subst same
        rcases returns with ⟨inCode, timedOut⟩ | ⟨suspended, woken⟩
        · subst timedOut
          exact before.returnCode trivial (fun _ => rfl)
            (not_granted_of_context inCode (by simp))
        · have running := valid.running_of_code (by simp [suspended])
          cases result with
          | ok =>
              exact before.resumeGranted call
                ⟨suspended, by simp [running], woken.symm⟩
          | timeout =>
              refine before.returnCode trivial (fun _ => rfl) ?_
              intro granted
              rw [granted.2.2] at woken
              cases woken
      · refine before.returnCode trivial (fun _ => ?_) ?_
        · cases result <;> simp [holders, same]
        · rcases returns with ⟨inCode, _⟩ | ⟨suspended, _⟩
          · exact not_granted_of_context inCode (by simp)
          · exact not_granted_of_context suspended (by simp [same])
  | unlockFree index owned inCode empty =>
      by_cases same : index = mutex
      · subst same
        exact before.release owned inCode empty
      · refine before.sameTasks rfl ?_ ?_ rfl
        · simp [Function.update_of_ne fun equal => same equal.symm]
        · simp [holders, same, Sched.emit]
  | unlockHand index t owned inCode handed =>
      by_cases same : index = mutex
      · subst same
        exact before.handOver valid owned inCode handed
      · have unlocked : MutexState (s.emit (.unlocked index s.current)) mutex := by
          refine before.sameTasks rfl rfl ?_ rfl
          simp [holders, same, Sched.emit]
        have after := unlocked.wakeOther (valid.emit trivial) handed
          (by simp [same])
        refine after.sameTasks rfl ?_ rfl rfl
        simp [Function.update_of_ne fun equal => same equal.symm]
  | waitReturn ready timed due result returns =>
      rcases returns with ⟨queue, deadline, call, _⟩
      refine before.returnCode trivial (fun _ => rfl) ?_
      rcases call with ⟨inCode, _⟩ | suspended
      · exact not_granted_of_context inCode (by simp)
      · exact not_granted_of_context suspended (by simp)
  | wakeOne queue t handed => exact before.wakeOther valid handed (by simp)
  | wakeAll queue =>
      rcases valid.wakeAll_spec (fun s => MutexState s mutex) before
        (.events queue) (fun s s' t valid holds handed =>
          holds.wakeOther valid handed (by simp)) with
        ⟨drained, _, holds, _, equal⟩
      rw [equal]
      exact holds.emit trivial (by simp [Event.AboutLock])

end MutexState

/-! ## The latest event -/

/-- What the latest event says about a mutex, and that every hand-over follows
an unlock. -/
structure Recent (s : Sched World) (mutex : Nat) : Prop where
  timeout : ∀ call t,
    s.trace.head? = some (.lockReturned call mutex t .timeout) →
    t ∉ waiting (.mutex mutex) s.trace ∧
      (call = .lock → s.owner mutex ≠ some t) ∧
      (s.owner mutex = some t → t ∈ holders mutex s.trace)
  handover : ∀ t, s.trace.head? = some (.woken (.mutex mutex) t) →
    s.owner mutex = some t
  unlocks : ∀ later t earlier,
    s.trace = later ++ .woken (.mutex mutex) t :: earlier →
    ∃ unlocker rest, earlier = .unlocked mutex unlocker :: rest

/-- The events that say something about the mutex at once. -/
def Event.Decides (mutex : Nat) : Event World → Prop
  | .lockReturned _ index _ .timeout => index = mutex
  | .woken (.mutex index) _ => index = mutex
  | _ => False

namespace Recent

theorem same (before : Recent s mutex) (trace : s'.trace = s.trace)
    (owner : s'.owner mutex = s.owner mutex) : Recent s' mutex := by
  constructor
  case timeout => rw [trace, owner]; exact before.timeout
  case handover => rw [trace, owner]; exact before.handover
  case unlocks => rw [trace]; exact before.unlocks

/-- Hand-overs stay behind unlocks when an event is added. -/
theorem unlocks_cons {event : Event World} {trace : List (Event World)}
    (before : ∀ later t earlier,
      trace = later ++ .woken (.mutex mutex) t :: earlier →
      ∃ unlocker rest, earlier = .unlocked mutex unlocker :: rest)
    (new : ∀ t, event = .woken (.mutex mutex) t →
      ∃ unlocker rest, trace = .unlocked mutex unlocker :: rest)
    (later : List (Event World)) (t : TaskRef) (earlier : List (Event World))
    (split : event :: trace = later ++ .woken (.mutex mutex) t :: earlier) :
    ∃ unlocker rest, earlier = .unlocked mutex unlocker :: rest := by
  cases later with
  | nil =>
      injection split with first rest
      subst rest
      exact new t first
  | cons first others =>
      injection split with _ rest
      exact before others t earlier rest

theorem add {event : Event World} (before : Recent s mutex)
    (trace : s'.trace = event :: s.trace) (silent : ¬ event.Decides mutex) :
    Recent s' mutex := by
  constructor
  case timeout =>
    intro call t latest
    rw [trace] at latest
    injection latest with equal
    subst equal
    exact absurd rfl silent
  case handover =>
    intro t latest
    rw [trace] at latest
    injection latest with equal
    subst equal
    exact absurd rfl silent
  case unlocks =>
    rw [trace]
    refine unlocks_cons before.unlocks ?_
    rintro t rfl
    exact absurd rfl silent

theorem tick (before : Recent s mutex) (valid : Valid s)
    (flag : s.runningFlag = true) : Recent (schedulerTick s) mutex := by
  have start : Recent (advance s) mutex := before.same rfl rfl
  have step : ∀ (middle after : Sched World) (members : Members) (i : Nat),
      Consistent middle members → Recent middle mutex →
      Expired middle after members i → Recent after mutex := by
    intro middle after members i consistent holds expired
    cases queued : (middle.tasks (.slot i)).queue with
    | none =>
        exact holds.same (expired.trace_none queued)
          (congrFun (congrArg Sched.owner expired.woke.rest :) mutex)
    | some q => exact holds.add (expired.trace_some q queued) fun decides => decides
  rcases valid.tick_spec (fun s _ => Recent s mutex) flag start step with
    ⟨lists, expired, consistent, holds, switched⟩
  exact holds.same switched.trace
    (congrFun (congrArg Sched.owner switched.rest :) mutex)

/-- The return of a lock call. -/
theorem returned {call : LockCall} {result : WaitResult} {index : Nat}
    (before : Recent s mutex) (state : MutexState s mutex) (valid : Valid s)
    (returns : Returns s (.mutexLock index) result)
    (taken : (s.tasks s.current).context = .code → s.owner index ≠ none ∧
      (call = .lock → s.owner index ≠ some s.current)) :
    Recent (lockReturn s call index result) mutex := by
  have running := valid.running_of_code (returns.notExiting (by simp))
  have absent : s.current ∉ waiting (.mutex mutex) s.trace := by
    intro member
    have blocked := ((valid.member_iff _ _).mp member).1
    rw [running] at blocked
    cases blocked
  by_cases decides : index = mutex ∧ result = .timeout
  · rcases decides with ⟨same, timedOut⟩
    subst same
    subst timedOut
    -- A caller that blocked is not the owner, since it was not granted.
    have notGranted : ¬ Granted s (.mutexLock index) s.current := by
      rintro ⟨suspended, _, woken⟩
      rcases returns with ⟨inCode, _⟩ | ⟨_, result⟩
      · rw [inCode] at suspended
        cases suspended
      · rw [woken] at result
        cases result
    constructor
    case timeout =>
      intro call' t latest
      simp only [lockReturn, Sched.emit, List.head?_cons, Option.some.injEq,
        Event.lockReturned.injEq, and_true, true_and] at latest
      rcases latest with ⟨sameCall, sameTask⟩
      subst sameCall
      subst sameTask
      have stillHolds : s.owner index = some s.current →
          s.current ∈ holders index s.trace := by
        intro owned
        cases state with
        | free noOwner => rw [noOwner] at owned; cases owned
        | held other isOwner holds _ =>
            rw [isOwner] at owned
            injection owned with equal
            rw [holds, equal]
            simp
        | handed other isOwner _ granted =>
            rw [isOwner] at owned
            injection owned with equal
            exact absurd ((granted s.current).mpr equal.symm) notGranted
      refine ⟨absent, ?_, stillHolds⟩
      rintro rfl owned
      rcases returns with ⟨inCode, _⟩ | ⟨suspended, _⟩
      · exact (taken inCode).2 rfl owned
      · cases state with
        | free noOwner =>
            have impossible := noOwner.symm.trans owned
            cases impossible
        | handed other isOwner _ granted =>
            have equal := isOwner.symm.trans owned
            injection equal with equal
            exact notGranted ((granted s.current).mpr equal.symm)
        | held other isOwner _ _ notCalling =>
            have equal := isOwner.symm.trans owned
            injection equal with equal
            subst equal
            exact notCalling suspended
    case handover => intro t latest; cases latest
    case unlocks =>
      refine unlocks_cons before.unlocks ?_
      intro t equal
      cases equal
  · refine before.add rfl ?_
    cases result with
    | ok => exact fun decides => decides
    | timeout => exact fun equal => decides ⟨equal, rfl⟩

/-- A woken task of another queue. -/
theorem wakeOther {q : QueueRef} (before : Recent s mutex)
    (handed : Handed s s' q t) (unrelated : q ≠ .mutex mutex) :
    Recent s' mutex := by
  refine before.add handed.trace ?_
  cases q with
  | mutex index => exact fun same => unrelated (congrArg QueueRef.mutex same)
  | _ => exact fun decides => decides

/-- The hand-over of a mutex. -/
theorem handOver {middle : Sched World} {index : Nat} (before : Recent s mutex)
    (handed : Handed (s.emit (.unlocked index s.current)) middle
      (.mutex index) t) :
    Recent { middle with
      owner := Function.update middle.owner index (some t) } mutex := by
  have unlocked : Recent (s.emit (.unlocked index s.current)) mutex :=
    before.add rfl fun decides => decides
  by_cases same : index = mutex
  · subst same
    constructor
    case timeout =>
      intro call other latest
      rw [handed.trace] at latest
      cases latest
    case handover =>
      intro other latest
      rw [handed.trace] at latest
      injection latest with equal
      injection equal with _ equal
      simp [equal]
    case unlocks =>
      rw [handed.trace]
      refine unlocks_cons unlocked.unlocks ?_
      intro other _
      exact ⟨s.current, s.trace, rfl⟩
  · refine (unlocked.wakeOther handed (by simp [same])).same rfl ?_
    simp [Function.update_of_ne fun equal => same equal.symm]

theorem change (before : Recent s mutex) (state : MutexState s mutex)
    (valid : Valid s) (change : Change s s') : Recent s' mutex := by
  cases change with
  | stay => exact before
  | start => exact before.same rfl rfl
  | write world => exact before.same rfl rfl
  | create room =>
      have notFull : ¬ s.slotCount ≥ maxTasks := by omega
      refine before.same ?_ ?_
      · simp [taskCreate, notFull, Sched.modifyTask]
      · simp [taskCreate, notFull, Sched.modifyTask]
  | exit inCode notIdle => exact before.same rfl rfl
  | switch switched =>
      exact before.same switched.trace
        (congrFun (congrArg Sched.owner switched.rest :) mutex)
  | tick flag => exact before.tick valid flag
  | @block middle _ queue _ _ _ running reason fits blocked consistent switched =>
      have marked : Recent middle mutex := by
        cases queue with
        | none =>
            exact before.same (blocked.trace_none rfl)
              (congrFun (congrArg Sched.owner blocked.rest :) mutex)
        | some q => exact before.add (blocked.trace_some q rfl) fun decides => decides
      exact marked.same switched.trace
        (congrFun (congrArg Sched.owner switched.rest :) mutex)
  | awake sleeping => exact before.same rfl rfl
  | semTake semaphore inCode positive => exact before.add rfl fun decides => decides
  | semReturn semaphore result returns => exact before.add rfl fun decides => decides
  | semCount semaphore empty => exact before.add rfl fun decides => decides
  | semHand semaphore t handed =>
      exact (before.wakeOther handed (by simp)).add rfl fun decides => decides
  | lockTake call index inCode free => exact before.add rfl fun decides => decides
  | lockReturn call index result returns taken =>
      exact before.returned state valid returns taken
  | unlockFree index owned inCode empty =>
      exact before.add rfl fun decides => decides
  | unlockHand index t owned inCode handed => exact before.handOver handed
  | waitReturn ready timed due result returns =>
      exact before.add rfl fun decides => decides
  | wakeOne queue t handed => exact before.wakeOther handed (by simp)
  | wakeAll queue =>
      rcases valid.wakeAll_spec (fun s => Recent s mutex) before
        (.events queue) (fun s s' t _ holds handed =>
          holds.wakeOther handed (by simp)) with
        ⟨drained, _, holds, _, equal⟩
      rw [equal]
      exact holds.add rfl fun decides => decides

end Recent

/-! ## Mutual exclusion in every reachable state -/

/-- What a mutex guarantees in a state. -/
structure MutexContract (s : Sched World) (mutex : Nat) : Prop where
  /-- At most one task is between a successful lock call and its unlock. -/
  exclusive : (holders mutex s.trace).length ≤ 1
  /-- The owner holds the mutex or is the one caller it was handed to. -/
  owner : ∀ t, s.owner mutex = some t →
    (holders mutex s.trace = [t] ∧ ∀ other, ¬ Granted s (.mutexLock mutex) other) ∨
    (holders mutex s.trace = [] ∧
      ∀ other, Granted s (.mutexLock mutex) other ↔ other = t)
  /-- Nobody waits for a mutex without an owner. -/
  free : s.owner mutex = none → (s.queues (.mutex mutex)).head = none
  /-- A lock call that has just timed out left its caller outside the queue; it
  is the owner only if it called `mutex_trylock` and held the mutex before. -/
  timeout : ∀ call t,
    s.trace.head? = some (.lockReturned call mutex t .timeout) →
    (s.tasks t).queue ≠ some (.mutex mutex) ∧
      (s.owner mutex = some t →
        call = .trylock ∧ t ∈ holders mutex s.trace.tail)
  /-- A hand-over follows an unlock and takes the caller that blocked first
  among those that have not timed out. -/
  order : ∀ later t earlier,
    s.trace = later ++ .woken (.mutex mutex) t :: earlier →
    (∃ unlocker rest, earlier = .unlocked mutex unlocker :: rest) ∧
      (waiting (.mutex mutex) earlier).head? = some t
  handover : ∀ t, s.trace.head? = some (.woken (.mutex mutex) t) →
    s.owner mutex = some t

theorem reachable_mutexContract {count : Nat → Nat} {s : Sched World}
    (reachable : Reachable count s) (mutex : Nat) : MutexContract s mutex := by
  have invariant := reachable.induction
    (fun s => MutexState s mutex ∧ Recent s mutex)
    (fun world => ⟨.free rfl rfl (fun t granted => by
        have context := granted.1
        simp only [schedulerInit] at context
        split at context <;> cases context) rfl,
      ⟨by simp [schedulerInit], by simp [schedulerInit], by simp [schedulerInit]⟩⟩)
    fun s s' valid holds change =>
      ⟨holds.1.change valid change, holds.2.change holds.1 valid change⟩
  rcases invariant with ⟨valid, state, recent⟩
  refine ⟨?_, ?_, ?_, ?_, ?_, recent.handover⟩
  · cases state with
    | free _ nobody => simp [nobody]
    | held _ _ holds => simp [holds]
    | handed _ _ nobody => simp [nobody]
  · intro t owned
    cases state with
    | free noOwner =>
        rw [noOwner] at owned
        cases owned
    | held other isOwner holds notGranted =>
        rw [isOwner] at owned
        injection owned with equal
        subst equal
        exact Or.inl ⟨holds, notGranted⟩
    | handed other isOwner nobody granted =>
        rw [isOwner] at owned
        injection owned with equal
        subst equal
        exact Or.inr ⟨nobody, granted⟩
  · intro noOwner
    rw [valid.stores.head]
    cases state with
    | free _ _ _ empty => simp [empty]
    | held _ owned =>
        rw [noOwner] at owned
        cases owned
    | handed _ owned =>
        rw [noOwner] at owned
        cases owned
  · intro call t latest
    rcases recent.timeout call t latest with ⟨outside, notOwner, holds⟩
    constructor
    · intro queued
      apply outside
      refine (valid.member_iff _ t).mpr ⟨?_, queued⟩
      by_contra notBlocked
      rw [valid.unqueued t notBlocked] at queued
      cases queued
    · intro owned
      have isTry : call = .trylock := by
        cases call with
        | lock => exact absurd owned (notOwner rfl)
        | trylock => rfl
      refine ⟨isTry, ?_⟩
      have holding := holds owned
      cases trace : s.trace with
      | nil => simp [trace] at latest
      | cons event earlier =>
          rw [trace] at latest holding
          injection latest with equal
          subst equal
          exact holding
  · intro later t earlier split
    exact ⟨recent.unlocks later t earlier split,
      valid.inOrder later (.mutex mutex) t earlier split⟩

/-- The main task takes a mutex and keeps it while `mutex_trylock` fails. -/
theorem mutexContract_after_trylock :
    ∃ s : Sched Unit, Reachable (fun _ => 0) s ∧ s.trace.length = 2 ∧
      MutexContract s 5 := by
  have locked : Reachable (fun _ => 0) (mutexTrylock (schedulerInit () _) 5) :=
    .step (.init ()) ⟨.mutexTrylock 5, trivial, rfl⟩
  have again : Reachable (fun _ => 0) (mutexTrylock (mutexTrylock
      (schedulerInit () _) 5) 5) :=
    .step locked ⟨.mutexTrylock 5, trivial, rfl⟩
  exact ⟨_, again, rfl, reachable_mutexContract again 5⟩

/-- `mutex_trylock` of a mutex that the caller already holds returns
`WAIT_TIMEOUT` and leaves the caller its owner. -/
theorem trylock_by_owner_times_out :
    ∃ s : Sched Unit, Reachable (fun _ => 0) s ∧
      s.trace.head? = some (.lockReturned .trylock 5 (.slot 0) .timeout) ∧
      s.owner 5 = some (.slot 0) := by
  have locked : Reachable (fun _ => 0) (mutexTrylock (schedulerInit () _) 5) :=
    .step (.init ()) ⟨.mutexTrylock 5, trivial, rfl⟩
  have again : Reachable (fun _ => 0) (mutexTrylock (mutexTrylock
      (schedulerInit () _) 5) 5) :=
    .step locked ⟨.mutexTrylock 5, trivial, rfl⟩
  exact ⟨_, again, rfl, rfl⟩

end Katela.Scheduler
