import Katela.Scheduler.Step

/-! # Callers that have been granted what they waited for

An unlock or a post gives its mutex or token to a sleeping caller before that
caller runs. The file follows such callers through the changes of a run. -/

namespace Katela.Scheduler

variable {World : Type} {s s' : Sched World} {call : Context World}
variable {t : TaskRef}

/-- A caller that blocked in `call`, was made ready with `WAIT_OK` and has not
resumed yet. -/
def Granted (s : Sched World) (call : Context World) (t : TaskRef) : Prop :=
  (s.tasks t).context = call ∧ (s.tasks t).state ≠ .blocked ∧
    (s.tasks t).wakeResult = .ok

/-- A task in another context than the call is not granted. -/
theorem not_granted_of_context {context : Context World}
    (inContext : (s.tasks t).context = context) (other : context ≠ call) :
    ¬ Granted s call t :=
  fun granted => other (inContext.symm.trans granted.1)

theorem Switched.granted_iff (switched : Switched s s')
    (idle : (s.tasks .idle).state = .ready ∨ (s.tasks .idle).state = .running) :
    Granted s' call t ↔ Granted s call t := by
  have result : (s'.tasks t).wakeResult = (s.tasks t).wakeResult :=
    (congrArg Task.wakeResult (switched.task t) :)
  have blocked := switched.state_iff idle (by simp : TaskState.blocked ≠ .ready)
    (by simp) t
  unfold Granted
  rw [switched.context_eq, result, Ne, Ne, blocked]

theorem Woke.wakeResult_self {result : WaitResult} (woke : Woke s s' t result) :
    (s'.tasks t).wakeResult = result :=
  (congrArg Task.wakeResult woke.self :)

theorem Woke.granted_other {result : WaitResult} {other : TaskRef}
    (woke : Woke s s' t result) (different : other ≠ t) :
    Granted s' call other ↔ Granted s call other := by
  have same : (s'.tasks other).wakeResult = (s.tasks other).wakeResult :=
    (congrArg Task.wakeResult (woke.others other different) :)
  unfold Granted
  rw [woke.context_eq, woke.state_other different, same]

theorem Woke.granted_iff_of_timeout (woke : Woke s s' t .timeout)
    (blocked : (s.tasks t).state = .blocked) (other : TaskRef) :
    Granted s' call other ↔ Granted s call other := by
  by_cases equal : other = t
  · subst equal
    constructor
    · rintro ⟨_, _, ok⟩
      rw [woke.wakeResult_self] at ok
      cases ok
    · rintro ⟨_, notBlocked, _⟩
      exact absurd blocked notBlocked
  · exact woke.granted_other equal

/-- The context of the head of a queue belongs to that queue. -/
theorem Handed.fits {q : QueueRef} (handed : Handed s s' q t)
    (consistent : Consistent s fun q => waiting q s.trace) :
    (s.tasks t).context.Fits (some q) := by
  have queued := ((consistent.member_iff q t).mp
    (List.mem_of_head? handed.head)).2
  have fits := consistent.fits t handed.blocked
  rw [queued] at fits
  exact fits

/-- Waking the head of a queue grants only calls that wait in that queue. -/
theorem Handed.granted_iff {q : QueueRef} (handed : Handed s s' q t)
    (consistent : Consistent s fun q => waiting q s.trace)
    (unrelated : ¬ call.Fits (some q)) (other : TaskRef) :
    Granted s' call other ↔ Granted s call other := by
  by_cases equal : other = t
  · subst equal
    constructor
    · rintro ⟨context, _⟩
      rw [handed.woke.context_eq] at context
      exact absurd (context ▸ handed.fits consistent) unrelated
    · rintro ⟨_, notBlocked, _⟩
      exact absurd handed.blocked notBlocked
  · exact handed.woke.granted_other equal

/-- The woken head of a queue is granted the call it is in. -/
theorem Handed.granted {q : QueueRef} (handed : Handed s s' q t)
    (inCall : (s.tasks t).context = call) : Granted s' call t := by
  refine ⟨(handed.woke.context_eq t).trans inCall, ?_,
    handed.woke.wakeResult_self⟩
  simp [handed.woke.state_self]

theorem Blocked.granted_iff {queue : Option QueueRef} {timed : Bool}
    {deadline : Nat} {context : Context World}
    (blocked : Blocked s s' queue timed deadline context)
    (different : ¬ Granted s call s.current) (t : TaskRef) :
    Granted s' call t ↔ Granted s call t := by
  by_cases equal : t = s.current
  · subst equal
    refine ⟨fun granted => ?_, fun granted => absurd granted different⟩
    exact absurd blocked.state_self granted.2.1
  · have same : (s'.tasks t).wakeResult = (s.tasks t).wakeResult :=
      (congrArg Task.wakeResult (blocked.others t equal) :)
    unfold Granted
    rw [blocked.context_other equal, blocked.state_other equal, same]

/-- Calls on semaphores and mutexes; they block at most once. -/
def Context.OneShot : Context World → Prop
  | .semWait _ | .mutexLock _ => True
  | _ => False

theorem Blocks.not_granted {timed : Bool} {deadline : Nat}
    {context : Context World} (reason : Blocks s timed deadline context)
    (oneShot : call.OneShot) : ¬ Granted s call s.current := by
  have notCode : Context.code ≠ call := by
    rintro rfl
    exact oneShot
  cases context with
  | code => exact reason.elim
  | exiting => exact reason.elim
  | sleeping => exact not_granted_of_context reason notCode
  | semWait semaphore => exact not_granted_of_context reason.1 notCode
  | mutexLock other => exact not_granted_of_context reason.1 notCode
  | waitUntil queue ready timed deadline due =>
      rcases reason.2.2.2 with ⟨inCode, _⟩ | suspended
      · exact not_granted_of_context inCode notCode
      · refine not_granted_of_context suspended ?_
        rintro rfl
        exact oneShot

/-- Returning to its own code only affects the current task. -/
theorem granted_toCode (different : ¬ Granted s call s.current)
    (notCode : Context.code ≠ call) :
    Granted (s.modifyTask s.current fun task => { task with context := .code })
      call t ↔ Granted s call t := by
  by_cases equal : t = s.current
  · subst equal
    refine ⟨fun granted => ?_, fun granted => absurd granted different⟩
    have context := granted.1
    simp only [Sched.modifyTask, Function.update_self] at context
    exact absurd context notCode
  · simp [Granted, Sched.modifyTask, equal]

/-- A task that returned to its own code is granted nothing any more. -/
theorem not_granted_current (notCode : Context.code ≠ call) :
    ¬ Granted (s.modifyTask s.current fun task => { task with context := .code })
      call s.current := by
  intro granted
  have context := granted.1
  simp only [Sched.modifyTask, Function.update_self] at context
  exact notCode context

theorem granted_taskCreate (valid : Valid s) (room : s.slotCount < maxTasks)
    (notCode : Context.code ≠ call) :
    Granted (taskCreate s).2 call t ↔ Granted s call t := by
  have unused : (s.tasks (.slot s.slotCount)).state = .unused := by
    by_contra used
    exact Nat.lt_irrefl _ (valid.allocated _ used)
  have notFull : ¬ s.slotCount ≥ maxTasks := by omega
  by_cases equal : t = .slot s.slotCount
  · subst equal
    simp [Granted, taskCreate, notFull, Sched.modifyTask, valid.fresh _ unused,
      notCode]
  · simp [Granted, taskCreate, notFull, Sched.modifyTask, equal]

theorem granted_taskExit (inCode : (s.tasks s.current).context = .code)
    (oneShot : call.OneShot) :
    Granted (taskExit s) call t ↔ Granted s call t := by
  by_cases equal : t = s.current
  · subst equal
    have notExiting : Context.exiting ≠ call := by
      rintro rfl
      exact oneShot
    have notCode : Context.code ≠ call := by
      rintro rfl
      exact oneShot
    simp [Granted, taskExit, Sched.modifyTask, inCode, notExiting, notCode]
  · simp [Granted, taskExit, Sched.modifyTask, equal]

end Katela.Scheduler
