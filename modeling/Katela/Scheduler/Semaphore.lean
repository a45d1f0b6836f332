import Katela.Scheduler.Grant

/-! # Conservation of semaphore tokens

A token is in the count, with a caller that returned, or with a caller that has
been woken and has not resumed yet; it is never in two of these places and
never lost. -/

namespace Katela.Scheduler

variable {World : Type} {s s' : Sched World} {semaphore : Nat} {t : TaskRef}

/-- The number of completed calls of `sem_post`. -/
def posts (semaphore : Nat) : List (Event World) → Nat
  | [] => 0
  | .posted index :: earlier =>
      posts semaphore earlier + if index = semaphore then 1 else 0
  | _ :: earlier => posts semaphore earlier

/-- The number of calls of the `sem_wait` family that returned `WAIT_OK`. -/
def acquired (semaphore : Nat) : List (Event World) → Nat
  | [] => 0
  | .semReturned index _ .ok :: earlier =>
      acquired semaphore earlier + if index = semaphore then 1 else 0
  | _ :: earlier => acquired semaphore earlier

/-- The tokens of a semaphore that started with `initial` of them, where
`granted` lists the callers that have been given one and have not resumed. -/
structure Tokens (s : Sched World) (semaphore initial : Nat)
    (granted : List TaskRef) : Prop where
  nodup : granted.Nodup
  granted_iff : ∀ t, t ∈ granted ↔ Granted s (.semWait semaphore) t
  conserved : initial + posts semaphore s.trace =
    s.count semaphore + acquired semaphore s.trace + granted.length
  nobody : 0 < s.count semaphore → waiting (.semaphore semaphore) s.trace = []

/-- Whether an event is about tokens of the semaphore. -/
def Event.AboutTokens (semaphore : Nat) : Event World → Prop
  | .posted index => index = semaphore
  | .semReturned index _ .ok => index = semaphore
  | _ => False

theorem posts_unrelated {event : Event World}
    (unrelated : ¬ event.AboutTokens semaphore) (trace : List (Event World)) :
    posts semaphore (event :: trace) = posts semaphore trace := by
  cases event with
  | posted index =>
      have different : ¬ index = semaphore := unrelated
      simp [posts, different]
  | _ => rfl

theorem acquired_unrelated {event : Event World}
    (unrelated : ¬ event.AboutTokens semaphore) (trace : List (Event World)) :
    acquired semaphore (event :: trace) = acquired semaphore trace := by
  cases event with
  | semReturned index task result =>
      cases result with
      | ok =>
          have different : ¬ index = semaphore := unrelated
          simp [acquired, different]
      | timeout => rfl
  | _ => rfl

namespace Tokens

variable {initial : Nat} {granted : List TaskRef}

/-- A change that moves no token. -/
theorem congr (before : Tokens s semaphore initial granted)
    (same : ∀ t, Granted s' (.semWait semaphore) t ↔
      Granted s (.semWait semaphore) t)
    (posted : posts semaphore s'.trace = posts semaphore s.trace)
    (taken : acquired semaphore s'.trace = acquired semaphore s.trace)
    (counted : s'.count semaphore = s.count semaphore)
    (queue : 0 < s.count semaphore → waiting (.semaphore semaphore) s.trace = [] →
      waiting (.semaphore semaphore) s'.trace = []) :
    Tokens s' semaphore initial granted where
  nodup := before.nodup
  granted_iff t := (before.granted_iff t).trans (same t).symm
  conserved := by
    rw [posted, taken, counted]
    exact before.conserved
  nobody positive := by
    rw [counted] at positive
    exact queue positive (before.nobody positive)

/-- A change of the trace by one event that moves no token and no waiter. -/
theorem sameTasks {event : Event World}
    (before : Tokens s semaphore initial granted) (tasks : s'.tasks = s.tasks)
    (trace : s'.trace = event :: s.trace) (silent : event.Silent)
    (unrelated : ¬ event.AboutTokens semaphore)
    (counted : s'.count semaphore = s.count semaphore) :
    Tokens s' semaphore initial granted := by
  refine before.congr (fun t => ?_) ?_ ?_ counted ?_
  · unfold Granted
    rw [tasks]
  · rw [trace]
    exact posts_unrelated unrelated _
  · rw [trace]
    exact acquired_unrelated unrelated _
  · intro _ empty
    rw [trace, waiting_silent silent]
    exact empty

theorem switch (before : Tokens s semaphore initial granted)
    (switched : Switched s s')
    (idle : (s.tasks .idle).state = .ready ∨ (s.tasks .idle).state = .running) :
    Tokens s' semaphore initial granted := by
  refine before.congr (fun t => switched.granted_iff idle)
    (by rw [switched.trace]) (by rw [switched.trace])
    (congrFun (congrArg Sched.count switched.rest :) semaphore) ?_
  intro _ empty
  rw [switched.trace]
  exact empty

/-- A time-out takes a waiter away and moves no token. -/
theorem tick (before : Tokens s semaphore initial granted) (valid : Valid s)
    (flag : s.runningFlag = true) :
    Tokens (schedulerTick s) semaphore initial granted := by
  have start : Tokens (advance s) semaphore initial granted :=
    before.congr (fun _ => Iff.rfl) rfl rfl rfl fun _ empty => empty
  have step : ∀ (middle after : Sched World) (members : Members) (i : Nat),
      Consistent middle members → Tokens middle semaphore initial granted →
      Expired middle after members i →
      Tokens after semaphore initial granted := by
    intro middle after members i consistent holds expired
    have counts : posts semaphore after.trace = posts semaphore middle.trace ∧
        acquired semaphore after.trace = acquired semaphore middle.trace := by
      cases queued : (middle.tasks (.slot i)).queue with
      | none =>
          rw [expired.trace_none queued]
          exact ⟨rfl, rfl⟩
      | some q =>
          rw [expired.trace_some q queued]
          exact ⟨rfl, rfl⟩
    refine holds.congr (expired.woke.granted_iff_of_timeout expired.blocked)
      counts.1 counts.2
      (congrFun (congrArg Sched.count expired.woke.rest :) semaphore) ?_
    intro _ empty
    rw [consistent.waits] at empty
    rw [expired.consistent.waits, empty]
    rfl
  rcases valid.tick_spec
    (fun s _ => Tokens s semaphore initial granted) flag start step with
    ⟨lists, expired, consistent, holds, switched⟩
  exact holds.switch switched consistent.idle

/-- A caller waits for a semaphore only while it has no token. -/
theorem block {middle : Sched World} {queue : Option QueueRef} {timed : Bool}
    {deadline : Nat} {context : Context World}
    (before : Tokens s semaphore initial granted)
    (reason : Blocks s timed deadline context) (fits : context.Fits queue)
    (blocked : Blocked s middle queue timed deadline context)
    (consistent : Consistent middle fun q => waiting q middle.trace)
    (switched : Switched middle s') :
    Tokens s' semaphore initial granted := by
  have marked : Tokens middle semaphore initial granted := by
    refine before.congr (blocked.granted_iff (reason.not_granted trivial)) ?_ ?_
      (congrFun (congrArg Sched.count blocked.rest :) semaphore) ?_
    · cases queue with
      | none => rw [blocked.trace_none rfl]
      | some q =>
          rw [blocked.trace_some q rfl]
          rfl
    · cases queue with
      | none => rw [blocked.trace_none rfl]
      | some q =>
          rw [blocked.trace_some q rfl]
          rfl
    · intro positive empty
      by_cases joins : queue = some (.semaphore semaphore)
      · subst joins
        cases context with
        | semWait index =>
            have same : semaphore = index := fits
            subst same
            rw [reason.2] at positive
            exact absurd positive (Nat.lt_irrefl 0)
        | _ => exact fits.elim
      · cases queue with
        | none =>
            rw [blocked.trace_none rfl]
            exact empty
        | some q =>
            rw [blocked.trace_some q rfl]
            have different : ¬ q = .semaphore semaphore := fun equal =>
              joins (congrArg some equal)
            simpa [waiting, different] using empty
  exact marked.switch switched consistent.idle

/-- Waking a waiter of another queue. -/
theorem wakeOther {q : QueueRef} (before : Tokens s semaphore initial granted)
    (valid : Valid s) (handed : Handed s s' q t)
    (unrelated : q ≠ .semaphore semaphore) :
    Tokens s' semaphore initial granted := by
  have unfit : ¬ (Context.semWait semaphore : Context World).Fits (some q) := by
    intro fits
    cases q with
    | semaphore index =>
        have same : index = semaphore := fits
        exact unrelated (congrArg QueueRef.semaphore same)
    | _ => exact fits
  refine before.congr (handed.granted_iff valid.toConsistent unfit) ?_ ?_
    (congrFun (congrArg Sched.count handed.woke.rest :) semaphore) ?_
  · rw [handed.trace]
    rfl
  · rw [handed.trace]
    rfl
  · intro _ empty
    rw [handed.trace]
    simpa [waiting, unrelated] using empty

/-- A return that moves no token, by a caller that was granted none. -/
theorem returnCode {event : Event World}
    (before : Tokens s semaphore initial granted) (silent : event.Silent)
    (unrelated : ¬ event.AboutTokens semaphore)
    (different : ¬ Granted s (.semWait semaphore) s.current) :
    Tokens ((s.modifyTask s.current fun task =>
      { task with context := .code }).emit event) semaphore initial granted := by
  refine before.congr (fun t => granted_toCode different (by simp))
    (posts_unrelated unrelated _) (acquired_unrelated unrelated _) rfl ?_
  intro _ empty
  exact (waiting_silent silent _ _).trans empty

/-- Taking a token from the count. -/
theorem take (before : Tokens s semaphore initial granted)
    (inCode : (s.tasks s.current).context = .code)
    (positive : 0 < s.count semaphore) :
    Tokens (semReturn { s with
      count := Function.update s.count semaphore (s.count semaphore - 1) }
      semaphore .ok) semaphore initial granted where
  nodup := before.nodup
  granted_iff t := by
    have different : ¬ Granted s (.semWait semaphore) s.current :=
      not_granted_of_context inCode (by simp)
    exact (before.granted_iff t).trans (granted_toCode different (by simp)).symm
  conserved := by
    have conserved := before.conserved
    simp only [semReturn, Sched.emit, Sched.modifyTask, posts, acquired,
      Function.update_self, if_true]
    omega
  nobody _ := before.nobody positive

/-- The return of a caller that was handed a token. -/
theorem resumeGranted (before : Tokens s semaphore initial granted)
    (isGranted : Granted s (.semWait semaphore) s.current) :
    Tokens (semReturn s semaphore .ok) semaphore initial
      (granted.erase s.current) where
  nodup := before.nodup.erase _
  granted_iff t := by
    rw [before.nodup.mem_erase_iff, before.granted_iff]
    by_cases equal : t = s.current
    · subst equal
      have after : ¬ Granted (semReturn s semaphore .ok) (.semWait semaphore)
          s.current := not_granted_current (by simp)
      simp [after]
    · simp [Granted, semReturn, Sched.emit, Sched.modifyTask, equal]
  conserved := by
    have member := (before.granted_iff s.current).mpr isGranted
    have shorter := List.length_erase_of_mem member
    have positive := List.length_pos_of_mem member
    have conserved := before.conserved
    simp only [semReturn, Sched.emit, Sched.modifyTask, posts, acquired, if_true]
    omega
  nobody positive := before.nobody positive

/-- A post that nobody waits for. -/
theorem put (before : Tokens s semaphore initial granted)
    (empty : waiting (.semaphore semaphore) s.trace = []) :
    Tokens (Sched.emit { s with
      count := Function.update s.count semaphore (s.count semaphore + 1) }
      (.posted semaphore)) semaphore initial granted where
  nodup := before.nodup
  granted_iff := before.granted_iff
  conserved := by
    have conserved := before.conserved
    simp only [Sched.emit, posts, acquired, Function.update_self, if_true]
    omega
  nobody _ := empty

/-- A post hands its token to the caller that has waited longest. -/
theorem handOver {middle : Sched World}
    (before : Tokens s semaphore initial granted) (valid : Valid s)
    (handed : Handed s middle (.semaphore semaphore) t) :
    Tokens (middle.emit (.posted semaphore)) semaphore initial
      (t :: granted) where
  nodup := by
    refine List.nodup_cons.mpr ⟨?_, before.nodup⟩
    intro member
    have already := (before.granted_iff t).mp member
    exact already.2.1 handed.blocked
  granted_iff other := by
    rw [List.mem_cons, before.granted_iff]
    by_cases equal : other = t
    · subst equal
      have fits := handed.fits valid.toConsistent
      have inCall : (s.tasks other).context = .semWait semaphore := by
        cases call : (s.tasks other).context with
        | semWait index =>
            rw [call] at fits
            have same : semaphore = index := fits
            rw [same]
        | _ =>
            rw [call] at fits
            exact fits.elim
      have after : Granted (middle.emit (.posted semaphore))
          (.semWait semaphore) other := handed.granted inCall
      simp [after]
    · have same : Granted (middle.emit (.posted semaphore)) (.semWait semaphore)
          other ↔ Granted s (.semWait semaphore) other :=
        handed.woke.granted_other equal
      rw [same]
      simp [equal]
  conserved := by
    have conserved := before.conserved
    have counted : middle.count semaphore = s.count semaphore :=
      congrFun (congrArg Sched.count handed.woke.rest :) semaphore
    simp only [Sched.emit, handed.trace, posts, acquired, if_true, counted,
      List.length_cons]
    omega
  nobody positive := by
    -- Somebody waited, so there was no token in the count.
    have counted : middle.count semaphore = s.count semaphore :=
      congrFun (congrArg Sched.count handed.woke.rest :) semaphore
    have empty := before.nobody (counted ▸ positive)
    have head := handed.head
    rw [empty] at head
    cases head

/-- The return of a call that did not find a token in the count. -/
theorem returned {index : Nat} {result : WaitResult}
    (before : Tokens s semaphore initial granted) (valid : Valid s)
    (returns : Returns s (.semWait index) result) :
    ∃ granted', Tokens (semReturn s index result) semaphore initial granted' := by
  by_cases same : index = semaphore
  · subst same
    rcases returns with ⟨inCode, timedOut⟩ | ⟨suspended, woken⟩
    · subst timedOut
      exact ⟨granted, before.returnCode trivial (fun about => about)
        (not_granted_of_context inCode (by simp))⟩
    · have running := valid.running_of_code (by simp [suspended])
      cases result with
      | ok =>
          exact ⟨granted.erase s.current,
            before.resumeGranted ⟨suspended, by simp [running], woken.symm⟩⟩
      | timeout =>
          refine ⟨granted, before.returnCode trivial (fun about => about) ?_⟩
          intro isGranted
          rw [isGranted.2.2] at woken
          cases woken
  · have unrelated : ¬ (Event.semReturned index s.current result :
        Event World).AboutTokens semaphore := by
      cases result with
      | ok => exact same
      | timeout => exact fun about => about
    refine ⟨granted, before.returnCode trivial unrelated ?_⟩
    rcases returns with ⟨inCode, _⟩ | ⟨suspended, _⟩
    · exact not_granted_of_context inCode (by simp)
    · exact not_granted_of_context suspended (by simp [same])

/-- Every change leaves the tokens accounted for. -/
theorem change (before : Tokens s semaphore initial granted) (valid : Valid s)
    (change : Change s s') :
    ∃ granted', Tokens s' semaphore initial granted' := by
  cases change with
  | stay => exact ⟨granted, before⟩
  | start =>
      exact ⟨granted, before.congr (fun _ => Iff.rfl) rfl rfl rfl
        fun _ empty => empty⟩
  | write world =>
      exact ⟨granted, before.congr (fun _ => Iff.rfl) rfl rfl rfl
        fun _ empty => empty⟩
  | create room =>
      have notFull : ¬ s.slotCount ≥ maxTasks := by omega
      have trace : (taskCreate s).2.trace = s.trace := by
        simp [taskCreate, notFull, Sched.modifyTask]
      refine ⟨granted, before.congr
        (fun t => granted_taskCreate valid room (by simp))
        (by rw [trace]) (by rw [trace]) ?_ ?_⟩
      · simp [taskCreate, notFull, Sched.modifyTask]
      · intro _ empty
        rw [trace]
        exact empty
  | exit inCode notIdle =>
      exact ⟨granted, before.congr (fun t => granted_taskExit inCode trivial)
        rfl rfl rfl fun _ empty => empty⟩
  | switch switched => exact ⟨granted, before.switch switched valid.idle⟩
  | tick flag => exact ⟨granted, before.tick valid flag⟩
  | block running reason fits blocked consistent switched =>
      exact ⟨granted, before.block reason fits blocked consistent switched⟩
  | awake sleeping =>
      have different : ¬ Granted s (.semWait semaphore) s.current :=
        not_granted_of_context sleeping (by simp)
      exact ⟨granted, before.congr
        (fun t => granted_toCode different (by simp)) rfl rfl rfl
        fun _ empty => empty⟩
  | semTake index inCode positive =>
      by_cases same : index = semaphore
      · subst same
        exact ⟨granted, before.take inCode positive⟩
      · have counted : Tokens { s with
            count := Function.update s.count index (s.count index - 1) }
            semaphore initial granted := by
          refine before.congr (fun _ => Iff.rfl) rfl rfl ?_ fun _ empty => empty
          simp [Function.update_of_ne fun equal => same equal.symm]
        exact ⟨granted, counted.returnCode trivial same
          (not_granted_of_context inCode (by simp))⟩
  | semReturn index result returns =>
      exact before.returned valid returns
  | semCount index empty =>
      by_cases same : index = semaphore
      · subst same
        exact ⟨granted, before.put empty⟩
      · refine ⟨granted, before.sameTasks rfl rfl trivial same ?_⟩
        simp [Sched.emit, Function.update_of_ne fun equal => same equal.symm]
  | semHand index t handed =>
      by_cases same : index = semaphore
      · subst same
        exact ⟨t :: granted, before.handOver valid handed⟩
      · have woken := before.wakeOther valid handed (by simp [same])
        exact ⟨granted, woken.sameTasks rfl rfl trivial same rfl⟩
  | lockTake call mutex inCode free =>
      have owned : Tokens { s with
          owner := Function.update s.owner mutex (some s.current) }
          semaphore initial granted :=
        before.congr (fun _ => Iff.rfl) rfl rfl rfl fun _ empty => empty
      exact ⟨granted, owned.returnCode trivial (fun about => about)
        (not_granted_of_context inCode (by simp))⟩
  | lockReturn call mutex result returns taken =>
      refine ⟨granted, before.returnCode trivial (fun about => about) ?_⟩
      rcases returns with ⟨inCode, _⟩ | ⟨suspended, _⟩
      · exact not_granted_of_context inCode (by simp)
      · exact not_granted_of_context suspended (by simp)
  | unlockFree mutex owned inCode empty =>
      exact ⟨granted, before.sameTasks rfl rfl trivial (fun about => about) rfl⟩
  | unlockHand mutex t owned inCode handed =>
      have unlocked : Tokens (s.emit (.unlocked mutex s.current)) semaphore
          initial granted :=
        before.sameTasks rfl rfl trivial (fun about => about) rfl
      have woken := unlocked.wakeOther (valid.emit trivial) handed (by simp)
      exact ⟨granted, woken.congr (fun _ => Iff.rfl) rfl rfl rfl
        fun _ empty => empty⟩
  | waitReturn ready timed due result returns =>
      rcases returns with ⟨queue, deadline, call, _⟩
      refine ⟨granted, before.returnCode trivial (fun about => about) ?_⟩
      rcases call with ⟨inCode, _⟩ | suspended
      · exact not_granted_of_context inCode (by simp)
      · exact not_granted_of_context suspended (by simp)
  | wakeOne queue t handed =>
      exact ⟨granted, before.wakeOther valid handed (by simp)⟩
  | wakeAll queue =>
      rcases valid.wakeAll_spec (fun s => Tokens s semaphore initial granted)
        before (.events queue) (fun s s' t valid holds handed =>
          holds.wakeOther valid handed (by simp)) with
        ⟨drained, _, holds, _, equal⟩
      rw [equal]
      exact ⟨granted, holds.sameTasks rfl rfl trivial (fun about => about) rfl⟩

end Tokens

/-! ## Calls that time out -/

/-- A timer tick returns from no call. -/
theorem tick_not_semReturned {result : WaitResult} (valid : Valid s)
    (flag : s.runningFlag = true) :
    (schedulerTick s).trace ≠ .semReturned semaphore t result :: s.trace := by
  have step : ∀ (middle after : Sched World) (members : Members) (i : Nat),
      Consistent middle members →
      middle.trace ≠ .semReturned semaphore t result :: s.trace →
      Expired middle after members i →
      after.trace ≠ .semReturned semaphore t result :: s.trace := by
    intro middle after members i _ holds expired
    cases queued : (middle.tasks (.slot i)).queue with
    | none =>
        rw [expired.trace_none queued]
        exact holds
    | some q =>
        rw [expired.trace_some q queued]
        simp
  rcases valid.tick_spec
    (fun middle _ => middle.trace ≠ .semReturned semaphore t result :: s.trace)
    flag (List.cons_ne_self _ _).symm step with
    ⟨lists, expired, consistent, holds, switched⟩
  rw [switched.trace]
  exact holds

/-- Only the return of a waiting call adds its time-out to the trace. -/
theorem Change.semTimeout (change : Change s s') (valid : Valid s)
    (latest : s'.trace = .semReturned semaphore t .timeout :: s.trace) :
    t = s.current ∧ s' = Scheduler.semReturn s semaphore .timeout ∧
      Returns s (.semWait semaphore) .timeout := by
  cases change with
  | stay => exact absurd latest.symm (List.cons_ne_self _ _)
  | start => exact absurd latest.symm (List.cons_ne_self _ _)
  | write world => exact absurd latest.symm (List.cons_ne_self _ _)
  | create room =>
      have notFull : ¬ s.slotCount ≥ maxTasks := by omega
      have same : (taskCreate s).2.trace = s.trace := by
        simp [taskCreate, notFull, Sched.modifyTask]
      rw [same] at latest
      exact absurd latest.symm (List.cons_ne_self _ _)
  | exit => exact absurd latest.symm (List.cons_ne_self _ _)
  | switch switched =>
      rw [switched.trace] at latest
      exact absurd latest.symm (List.cons_ne_self _ _)
  | tick flag => exact absurd latest (tick_not_semReturned valid flag)
  | @block middle _ queue _ _ _ _ _ _ blocked _ switched =>
      rw [switched.trace] at latest
      cases queue with
      | none =>
          rw [blocked.trace_none rfl] at latest
          exact absurd latest.symm (List.cons_ne_self _ _)
      | some q =>
          rw [blocked.trace_some q rfl] at latest
          cases latest
  | awake => exact absurd latest.symm (List.cons_ne_self _ _)
  | semTake => cases latest
  | semReturn index result returns =>
      injection latest with first _
      injection first with sameSemaphore sameTask sameResult
      subst sameSemaphore
      subst sameResult
      exact ⟨sameTask.symm, rfl, returns⟩
  | semCount => cases latest
  | semHand semaphore t handed => cases latest
  | lockTake => cases latest
  | lockReturn => cases latest
  | unlockFree => cases latest
  | unlockHand mutex t owned inCode handed =>
      simp only [handed.trace] at latest
      cases latest
  | waitReturn => cases latest
  | wakeOne queue t handed =>
      rw [handed.trace] at latest
      cases latest
  | wakeAll queue => cases latest

/-! ## Conservation in every reachable state -/

/-- What a semaphore that was initialised with `initial` tokens guarantees. -/
structure SemaphoreContract (s : Sched World) (semaphore initial : Nat) :
    Prop where
  /-- Every token is in the count or with exactly one caller; `granted` lists
  the blocked callers that were made ready with `WAIT_OK`. -/
  conservation : ∃ granted : List TaskRef, granted.Nodup ∧
    (∀ t, t ∈ granted ↔ Granted s (.semWait semaphore) t) ∧
    initial + posts semaphore s.trace =
      s.count semaphore + (acquired semaphore s.trace + granted.length)
  /-- Nobody waits while there is a token. -/
  nobody : 0 < s.count semaphore →
    (s.queues (.semaphore semaphore)).head = none ∧
      ∀ t, (s.tasks t).queue ≠ some (.semaphore semaphore)
  /-- A call that times out was granted no token, takes none from the count
  and has left the queue. -/
  timeout : ∀ s' t, Step s s' →
    s'.trace = .semReturned semaphore t .timeout :: s.trace →
    ¬ Granted s (.semWait semaphore) t ∧
      s'.count semaphore = s.count semaphore ∧
      (∀ other, Granted s' (.semWait semaphore) other ↔
        Granted s (.semWait semaphore) other) ∧
      (s'.tasks t).queue = none ∧
      t ∉ waiting (.semaphore semaphore) s'.trace

theorem reachable_semaphoreContract {count : Nat → Nat} {s : Sched World}
    (reachable : Reachable count s) (semaphore : Nat) :
    SemaphoreContract s semaphore (count semaphore) := by
  have invariant := reachable.induction
    (fun s => ∃ granted, Tokens s semaphore (count semaphore) granted)
    (fun world => ⟨[], .nil, fun t => by
        have notGranted : ¬ Granted (schedulerInit world count)
            (.semWait semaphore) t := by
          intro granted
          have context := granted.1
          simp only [schedulerInit] at context
          split at context <;> cases context
        simp [notGranted], rfl, fun _ => rfl⟩)
    fun s s' valid ⟨granted, tokens⟩ change => tokens.change valid change
  rcases invariant with ⟨valid, granted, tokens⟩
  constructor
  case conservation =>
    refine ⟨granted, tokens.nodup, tokens.granted_iff, ?_⟩
    have conserved := tokens.conserved
    omega
  case nobody =>
    intro positive
    have empty := tokens.nobody positive
    constructor
    · rw [valid.stores.head, empty]
      rfl
    · intro t queued
      have member : t ∈ waiting (.semaphore semaphore) s.trace := by
        refine (valid.member_iff _ t).mpr ⟨?_, queued⟩
        by_contra notBlocked
        rw [valid.unqueued t notBlocked] at queued
        cases queued
      rw [empty] at member
      cases member
  case timeout =>
    intro s' t step latest
    have change := valid.step_change step
    have after := change.valid valid
    rcases change.semTimeout valid latest with ⟨isCurrent, equal, returns⟩
    subst isCurrent
    have running := valid.running_of_code (returns.notExiting (by simp))
    have notGranted : ¬ Granted s (.semWait semaphore) s.current := by
      intro granted
      rcases returns with ⟨inCode, _⟩ | ⟨_, result⟩
      · exact not_granted_of_context inCode (by simp) granted
      · rw [granted.2.2] at result
        cases result
    have stillRuns : (s'.tasks s.current).state ≠ .blocked := by
      simp [equal, semReturn, Sched.emit, Sched.modifyTask, running]
    refine ⟨notGranted, ?_, ?_, after.unqueued _ stillRuns, ?_⟩
    · rw [equal]
      rfl
    · intro other
      rw [equal]
      exact granted_toCode notGranted (by simp)
    · intro member
      exact stillRuns ((after.member_iff _ _).mp member).1

/-- The main task takes the only token and is refused a second one. -/
theorem semaphoreContract_after_trywait :
    ∃ s : Sched Unit, Reachable (fun _ => 1) s ∧ s.count 3 = 0 ∧
      s.trace.length = 2 ∧ SemaphoreContract s 3 1 := by
  have started : Reachable (fun _ => 1) (schedulerStart (schedulerInit () _)) :=
    .step (.init ()) ⟨.schedulerStart, trivial, rfl⟩
  have taken : Reachable (fun _ => 1) _ :=
    .step started ⟨.semWaitTimeout 3 0, trivial, rfl⟩
  have refused : Reachable (fun _ => 1) _ :=
    .step taken ⟨.semWaitTimeout 3 0, trivial, rfl⟩
  exact ⟨_, refused, rfl, rfl, reachable_semaphoreContract refused 3⟩

end Katela.Scheduler
