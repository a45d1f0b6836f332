import Mathlib.Data.List.Perm.Subperm
import Katela.Scheduler.Queue

/-! # The representation invariant

The invariant that every action of the scheduler keeps, proved from one lemma
for each of the ways a task can change: it is woken, it times out, it blocks,
or the processor is switched. -/

namespace Katela.Scheduler

variable {World : Type} {s s' : Sched World} {members : Members}
variable {q : QueueRef} {t : TaskRef}

/-! ## The order of waiting -/

/-- The tasks that wait in a queue according to the events so far: the ones
that blocked, in that order, without those that were woken or timed out. -/
def waiting (q : QueueRef) : List (Event World) → List TaskRef
  | [] => []
  | .enqueued queue task :: earlier =>
      if queue = q then waiting q earlier ++ [task] else waiting q earlier
  | .woken queue task :: earlier =>
      if queue = q then (waiting q earlier).erase task else waiting q earlier
  | .timedOut queue task :: earlier =>
      if queue = q then (waiting q earlier).erase task else waiting q earlier
  | .wokeAll _ :: earlier => waiting q earlier
  | .lockReturned _ _ _ _ :: earlier => waiting q earlier
  | .unlocked _ _ :: earlier => waiting q earlier
  | .semReturned _ _ _ :: earlier => waiting q earlier
  | .posted _ :: earlier => waiting q earlier
  | .waitReturned _ _ _ _ _ _ _ :: earlier => waiting q earlier

/-- Every wake-up took the task that had waited longest. -/
def WokenInOrder (trace : List (Event World)) : Prop :=
  ∀ later q t earlier, trace = later ++ .woken q t :: earlier →
    (waiting q earlier).head? = some t

/-- Whether an event puts no task into a queue and takes none out. -/
def Event.Silent : Event World → Prop
  | .enqueued _ _ | .woken _ _ | .timedOut _ _ => False
  | _ => True

theorem waiting_silent {event : Event World} (silent : event.Silent)
    (q : QueueRef) (trace : List (Event World)) :
    waiting q (event :: trace) = waiting q trace := by
  cases event <;> first | rfl | exact silent.elim

theorem WokenInOrder.cons {trace : List (Event World)} {event : Event World}
    (inOrder : WokenInOrder trace)
    (next : ∀ q t, event = .woken q t → (waiting q trace).head? = some t) :
    WokenInOrder (event :: trace) := by
  intro later q t earlier split
  cases later with
  | nil =>
      injection split with first rest
      subst rest
      exact next q t first
  | cons first others =>
      injection split with _ rest
      exact inOrder others q t earlier rest

theorem WokenInOrder.silent {trace : List (Event World)} {event : Event World}
    (inOrder : WokenInOrder trace) (silent : event.Silent) :
    WokenInOrder (event :: trace) := by
  refine inOrder.cons ?_
  rintro q t rfl
  exact silent.elim

/-! ## The invariant -/

/-- A task that exists: the idle task or one of the slots in use. -/
def TaskRef.Allocated (slotCount : Nat) : TaskRef → Prop
  | .slot index => index < slotCount
  | .idle => True

/-- The call that a blocked task is in belongs to the queue it is in. -/
def Context.Fits : Context World → Option QueueRef → Prop
  | .sleeping, none => True
  | .semWait semaphore, some (.semaphore index) => index = semaphore
  | .mutexLock mutex, some (.mutex index) => index = mutex
  | .waitUntil queue _ _ _ _, some (.events index) => index = queue
  | _, _ => False

/-- What holds of the tasks and queues at all times, also within a function
that has marked the current task and is about to switch. -/
structure Consistent (s : Sched World) (members : Members) : Prop where
  stores : Stores s members
  member_iff : ∀ q t, t ∈ members q ↔
    (s.tasks t).state = .blocked ∧ (s.tasks t).queue = some q
  unqueued : ∀ t, (s.tasks t).state ≠ .blocked → (s.tasks t).queue = none
  allocated : ∀ t, (s.tasks t).state ≠ .unused → t.Allocated s.slotCount
  slotCount_pos : 0 < s.slotCount
  slotCount_le : s.slotCount ≤ maxTasks
  running_only : ∀ t, (s.tasks t).state = .running → t = s.current
  idle : (s.tasks .idle).state = .ready ∨ (s.tasks .idle).state = .running
  fits : ∀ t, (s.tasks t).state = .blocked →
    (s.tasks t).context.Fits (s.tasks t).queue
  exits : ∀ t, (s.tasks t).context = .exiting → (s.tasks t).state = .terminated
  fresh : ∀ t, (s.tasks t).state = .unused → (s.tasks t).context = .code
  waits : ∀ q, waiting q s.trace = members q
  inOrder : WokenInOrder s.trace

/-- The current task runs, or it is leaving through `task_exit`. -/
def CurrentRuns (s : Sched World) : Prop :=
  (s.tasks s.current).state = .running ∨
    (s.tasks s.current).context = .exiting

/-- The invariant between two actions. -/
structure Invariant (s : Sched World) (members : Members) : Prop
    extends Consistent s members where
  runs : CurrentRuns s

namespace Consistent

/-- Only slots wait, so a queue is no longer than there are slots. -/
theorem length_le (consistent : Consistent s members) (q : QueueRef) :
    (members q).length ≤ maxTasks := by
  have bounded : ∀ t ∈ members q,
      t ∈ (List.range maxTasks).map TaskRef.slot := by
    intro t member
    have blocked := ((consistent.member_iff q t).mp member).1
    have inUse := consistent.allocated t (by simp [blocked])
    cases t with
    | idle =>
        rcases consistent.idle with ready | running
        · rw [ready] at blocked
          cases blocked
        · rw [running] at blocked
          cases blocked
    | slot index =>
        have small : index < maxTasks :=
          Nat.lt_of_lt_of_le inUse consistent.slotCount_le
        simp [small]
  have count :=
    (List.subperm_of_subset (consistent.stores.nodup q) bounded).length_le
  simpa using count

/-- What the invariant does not mention may change freely. -/
theorem congr (consistent : Consistent s members)
    (tasks : ∀ t, (s'.tasks t).unlinked.state = (s.tasks t).state ∧
      (s'.tasks t).queue = (s.tasks t).queue ∧
      (s'.tasks t).waitNext = (s.tasks t).waitNext)
    (contexts : ∀ t, (s'.tasks t).context = (s.tasks t).context ∨
      (s.tasks t).state ≠ .blocked ∧ (s'.tasks t).context = .code)
    (queues : s'.queues = s.queues) (current : s'.current = s.current)
    (slotCount : s'.slotCount = s.slotCount)
    (waits : ∀ q, waiting q s'.trace = waiting q s.trace)
    (inOrder : WokenInOrder s'.trace) : Consistent s' members where
  stores := consistent.stores.congr (fun _ t _ => (tasks t).2.2) queues
  member_iff q t := by
    rw [(tasks t).2.1, show (s'.tasks t).state = _ from (tasks t).1]
    exact consistent.member_iff q t
  unqueued t notBlocked := by
    rw [show (s'.tasks t).state = _ from (tasks t).1] at notBlocked
    rw [(tasks t).2.1]
    exact consistent.unqueued t notBlocked
  allocated t used := by
    rw [show (s'.tasks t).state = _ from (tasks t).1] at used
    rw [slotCount]
    exact consistent.allocated t used
  slotCount_pos := slotCount ▸ consistent.slotCount_pos
  slotCount_le := slotCount ▸ consistent.slotCount_le
  running_only t running := by
    rw [show (s'.tasks t).state = _ from (tasks t).1] at running
    rw [current]
    exact consistent.running_only t running
  idle := by
    rw [show (s'.tasks .idle).state = _ from (tasks .idle).1]
    exact consistent.idle
  fits t blocked := by
    rw [show (s'.tasks t).state = _ from (tasks t).1] at blocked
    rcases contexts t with same | ⟨notBlocked, _⟩
    · rw [same, (tasks t).2.1]
      exact consistent.fits t blocked
    · exact absurd blocked notBlocked
  exits t exiting := by
    rw [show (s'.tasks t).state = _ from (tasks t).1]
    rcases contexts t with same | ⟨_, inCode⟩
    · exact consistent.exits t (same ▸ exiting)
    · rw [inCode] at exiting
      cases exiting
  fresh t unused := by
    rw [show (s'.tasks t).state = _ from (tasks t).1] at unused
    rcases contexts t with same | ⟨_, inCode⟩
    · rw [same]
      exact consistent.fresh t unused
    · exact inCode
  waits q := (waits q).trans (consistent.waits q)
  inOrder := inOrder

theorem emit {event : Event World} (consistent : Consistent s members)
    (silent : event.Silent) : Consistent (s.emit event) members :=
  consistent.congr (fun _ => ⟨rfl, rfl, rfl⟩) (fun _ => Or.inl rfl) rfl rfl rfl
    (fun q => waiting_silent silent q s.trace)
    (consistent.inOrder.silent silent)

/-- A task that is not blocked goes back to its own code. -/
theorem toCode (consistent : Consistent s members)
    (running : (s.tasks t).state ≠ .blocked) :
    Consistent (s.modifyTask t fun task => { task with context := .code })
      members := by
  refine consistent.congr ?_ ?_ rfl rfl rfl (fun _ => rfl) consistent.inOrder
  · intro other
    by_cases equal : other = t
    · subst equal
      simp [Sched.modifyTask, Task.unlinked]
    · simp [Sched.modifyTask, Task.unlinked, equal]
  · intro other
    by_cases equal : other = t
    · subst equal
      exact Or.inr ⟨running, by simp [Sched.modifyTask]⟩
    · simp [Sched.modifyTask, equal]

end Consistent

/-! ## Waking a task -/

/-- `t` was taken out of its queue and made ready with `result`; besides, only
links and the trace changed. -/
structure Woke (s s' : Sched World) (t : TaskRef) (result : WaitResult) :
    Prop where
  self : (s'.tasks t).unlinked =
    { s.tasks t with
      state := .ready
      queue := none
      waitNext := none
      hasDeadline := false
      wakeResult := result }
  others : ∀ other, other ≠ t →
    (s'.tasks other).unlinked = (s.tasks other).unlinked
  rest : { s' with tasks := s.tasks, queues := s.queues, trace := s.trace } = s

theorem LinksOnly.woke {linked : Sched World} (links : LinksOnly s linked)
    (t : TaskRef) (result : WaitResult) :
    Woke s (makeReady linked t result) t result where
  self := by
    have same := links.task t
    simp only [Task.unlinked] at same ⊢
    simp only [makeReady, Sched.modifyTask, Function.update_self]
    injection same with state id queue deadline hasDeadline wakeResult context
    simp [*]
  others other different := by
    simpa [makeReady, Sched.modifyTask, different] using links.task other
  rest := by
    have same := links.rest
    have traceSame : linked.trace = s.trace := (congrArg Sched.trace same :)
    simpa [makeReady, Sched.modifyTask, traceSame] using same

namespace Woke

variable {result : WaitResult} {other : TaskRef}

theorem emit (woke : Woke s s' t result) (event : Event World) :
    Woke s (s'.emit event) t result :=
  ⟨woke.self, woke.others, woke.rest⟩

theorem current (woke : Woke s s' t result) : s'.current = s.current :=
  (congrArg Sched.current woke.rest :)

theorem slotCount (woke : Woke s s' t result) : s'.slotCount = s.slotCount :=
  (congrArg Sched.slotCount woke.rest :)

theorem state_self (woke : Woke s s' t result) : (s'.tasks t).state = .ready :=
  (congrArg Task.state woke.self :)

theorem queue_self (woke : Woke s s' t result) : (s'.tasks t).queue = none :=
  (congrArg Task.queue woke.self :)

theorem context_eq (woke : Woke s s' t result) (other : TaskRef) :
    (s'.tasks other).context = (s.tasks other).context := by
  by_cases equal : other = t
  · subst equal
    exact (congrArg Task.context woke.self :)
  · exact (congrArg Task.context (woke.others other equal) :)

theorem state_other (woke : Woke s s' t result) (different : other ≠ t) :
    (s'.tasks other).state = (s.tasks other).state :=
  (congrArg Task.state (woke.others other different) :)

theorem queue_other (woke : Woke s s' t result) (different : other ≠ t) :
    (s'.tasks other).queue = (s.tasks other).queue :=
  (congrArg Task.queue (woke.others other different) :)

/-- Waking a blocked task keeps the invariant. -/
theorem consistent {lists : Members} (woke : Woke s s' t result)
    (before : Consistent s members) (blocked : (s.tasks t).state = .blocked)
    (stores : Stores s' lists)
    (lists_iff : ∀ q other, other ∈ lists q ↔ other ∈ members q ∧ other ≠ t)
    (waits : ∀ q, waiting q s'.trace = lists q)
    (inOrder : WokenInOrder s'.trace) : Consistent s' lists where
  stores := stores
  member_iff q other := by
    rw [lists_iff, before.member_iff]
    by_cases equal : other = t
    · subst equal
      simp [woke.state_self]
    · rw [woke.state_other equal, woke.queue_other equal]
      simp [equal]
  unqueued other notBlocked := by
    by_cases equal : other = t
    · subst equal
      exact woke.queue_self
    · rw [woke.state_other equal] at notBlocked
      rw [woke.queue_other equal]
      exact before.unqueued other notBlocked
  allocated other used := by
    rw [woke.slotCount]
    by_cases equal : other = t
    · subst equal
      exact before.allocated other (by simp [blocked])
    · rw [woke.state_other equal] at used
      exact before.allocated other used
  slotCount_pos := woke.slotCount ▸ before.slotCount_pos
  slotCount_le := woke.slotCount ▸ before.slotCount_le
  running_only other running := by
    rw [woke.current]
    by_cases equal : other = t
    · subst equal
      rw [woke.state_self] at running
      cases running
    · rw [woke.state_other equal] at running
      exact before.running_only other running
  idle := by
    by_cases equal : TaskRef.idle = t
    · subst equal
      exact Or.inl woke.state_self
    · rw [woke.state_other equal]
      exact before.idle
  fits other blockedOther := by
    by_cases equal : other = t
    · subst equal
      rw [woke.state_self] at blockedOther
      cases blockedOther
    · rw [woke.state_other equal] at blockedOther
      rw [woke.context_eq, woke.queue_other equal]
      exact before.fits other blockedOther
  exits other exiting := by
    rw [woke.context_eq] at exiting
    by_cases equal : other = t
    · subst equal
      have terminated := before.exits other exiting
      rw [blocked] at terminated
      cases terminated
    · rw [woke.state_other equal]
      exact before.exits other exiting
  fresh other unused := by
    rw [woke.context_eq]
    by_cases equal : other = t
    · subst equal
      rw [woke.state_self] at unused
      cases unused
    · rw [woke.state_other equal] at unused
      exact before.fresh other unused
  waits := waits
  inOrder := inOrder

/-- The current task is not among the woken ones. -/
theorem currentRuns (woke : Woke s s' t result)
    (blocked : (s.tasks t).state = .blocked) (before : CurrentRuns s)
    (exits : ∀ t, (s.tasks t).context = .exiting →
      (s.tasks t).state = .terminated) : CurrentRuns s' := by
  have different : s.current ≠ t := by
    intro equal
    rcases before with running | exiting
    · rw [equal, blocked] at running
      cases running
    · have terminated := exits s.current exiting
      rw [equal, blocked] at terminated
      cases terminated
  rcases before with running | exiting
  · exact Or.inl (by rw [woke.current, woke.state_other different]; exact running)
  · exact Or.inr (by rw [woke.current, woke.context_eq]; exact exiting)

end Woke

/-- `wake_first` does nothing to an empty queue and otherwise wakes its head. -/
theorem wakeFirst_cases (consistent : Consistent s members) (q : QueueRef) :
    (members q = [] ∧ wakeFirst s q = (none, s)) ∨
      ∃ t rest s', members q = t :: rest ∧ wakeFirst s q = (some t, s') ∧
        Woke s s' t .ok ∧ s'.trace = .woken q t :: s.trace ∧
        Consistent s' (Function.update members q rest) := by
  cases split : members q with
  | nil =>
      refine Or.inl ⟨rfl, ?_⟩
      simp [wakeFirst, queuePop_nil consistent.stores split]
  | cons t rest =>
      rcases queuePop_cons consistent.stores split with
        ⟨popped, pop, links, stores⟩
      have woke := (links.woke t .ok).emit (.woken q t)
      have sameTrace : popped.trace = s.trace := (congrArg Sched.trace links.rest :)
      have traced : ((makeReady popped t .ok).emit (.woken q t)).trace =
          .woken q t :: s.trace := by
        simp [makeReady, Sched.emit, Sched.modifyTask, sameTrace]
      have unique := consistent.stores.nodup q
      rw [split] at unique
      have notRest := (List.nodup_cons.mp unique).1
      have blocked := ((consistent.member_iff q t).mp (by simp [split])).1
      refine Or.inr ⟨t, rest, _, rfl, by rw [wakeFirst, pop], woke, traced, ?_⟩
      refine woke.consistent consistent blocked ?_ ?_ ?_ ?_
      · refine stores.congr ?_ rfl
        intro q' other member
        by_cases equal : other = t
        · subst equal
          by_cases same : q' = q
          · subst same
            rw [Function.update_self] at member
            exact absurd member notRest
          · rw [Function.update_of_ne same] at member
            exact absurd (consistent.stores.apart q' q other member
              (by simp [split])) same
        · simp [nextOf, makeReady, Sched.emit, Sched.modifyTask, equal]
      · intro q' other
        by_cases same : q' = q
        · subst same
          rw [Function.update_self, split, List.mem_cons]
          constructor
          · intro member
            exact ⟨Or.inr member, fun equal => notRest (equal ▸ member)⟩
          · rintro ⟨equal | member, different⟩
            · exact absurd equal different
            · exact member
        · rw [Function.update_of_ne same]
          refine ⟨fun member => ⟨member, ?_⟩, fun both => both.1⟩
          intro equal
          subst equal
          exact same (consistent.stores.apart q' q other member
            (by simp [split]))
      · intro q'
        rw [traced]
        by_cases same : q' = q
        · subst same
          simp [waiting, consistent.waits, split]
        · have other : ¬ q = q' := fun equal => same equal.symm
          simp [waiting, consistent.waits, same, other]
      · rw [traced]
        refine consistent.inOrder.cons ?_
        intro q' t' equal
        injection equal with sameQueue sameTask
        subst sameQueue
        subst sameTask
        rw [consistent.waits, split]
        rfl

/-- The task in slot `i` was blocked past its deadline and has timed out. -/
structure Expired (s s' : Sched World) (members : Members) (i : Nat) :
    Prop where
  blocked : (s.tasks (.slot i)).state = .blocked
  hasDeadline : (s.tasks (.slot i)).hasDeadline = true
  reached : timeReached s.ticks (s.tasks (.slot i)).deadline = true
  woke : Woke s s' (.slot i) .timeout
  trace_some : ∀ q, (s.tasks (.slot i)).queue = some q →
    s'.trace = .timedOut q (.slot i) :: s.trace
  trace_none : (s.tasks (.slot i)).queue = none → s'.trace = s.trace
  consistent : Consistent s' fun q => (members q).erase (.slot i)

/-- One round of `wake_expired` leaves the state alone or times out a task. -/
theorem expireSlot_cases (consistent : Consistent s members) (i : Nat) :
    expireSlot s i = s ∨ Expired s (expireSlot s i) members i := by
  set t := TaskRef.slot i with tDef
  by_cases idle : (s.tasks t).state ≠ .blocked ∨ (s.tasks t).hasDeadline = false
  · left
    rw [expireSlot, ← tDef, if_pos idle]
  by_cases early : timeReached s.ticks (s.tasks t).deadline = false
  · left
    rw [expireSlot, ← tDef, if_neg idle, if_pos early]
  right
  have blocked : (s.tasks t).state = .blocked := by
    by_contra notBlocked
    exact idle (Or.inl notBlocked)
  have timed : (s.tasks t).hasDeadline = true := by simpa [blocked] using idle
  have reached : timeReached s.ticks (s.tasks t).deadline = true := by
    simpa using early
  have erase_iff : ∀ q other, other ∈ (members q).erase t ↔
      other ∈ members q ∧ other ≠ t := by
    intro q other
    rw [(consistent.stores.nodup q).mem_erase_iff]
    exact And.comm
  have clearLink : ∀ linked : Sched World, ∀ lists : Members,
      (∀ q other, other ∈ lists q → other ≠ t) → Stores linked lists →
      Stores (makeReady linked t .timeout) lists := by
    intro linked lists without stores
    refine stores.congr ?_ rfl
    intro q other member
    simp [nextOf, makeReady, Sched.modifyTask, without q other member]
  cases inQueue : (s.tasks t).queue with
  | none =>
      have expired : expireSlot s i = makeReady s t .timeout := by
        rw [expireSlot, ← tDef, if_neg idle, if_neg early, inQueue]
      have outside : ∀ q, t ∉ members q := by
        intro q member
        have queued := ((consistent.member_iff q t).mp member).2
        rw [inQueue] at queued
        cases queued
      have same : (fun q => (members q).erase t) = members := by
        funext q
        exact List.erase_of_not_mem (outside q)
      have woke := (LinksOnly.refl s).woke t .timeout
      rw [← expired] at woke
      refine ⟨blocked, timed, reached, woke, by simp [← tDef, inQueue],
        fun _ => by rw [expired]; rfl, ?_⟩
      rw [same]
      rw [expired] at woke ⊢
      refine woke.consistent consistent blocked ?_ ?_ consistent.waits
        consistent.inOrder
      · refine clearLink s members ?_ consistent.stores
        intro q other member equal
        exact outside q (equal ▸ member)
      · intro q other
        refine ⟨fun member => ⟨member, ?_⟩, fun both => both.1⟩
        intro equal
        exact outside q (equal ▸ member)
  | some q =>
      have expired : expireSlot s i =
          (makeReady (queueRemove s q t) t .timeout).emit (.timedOut q t) := by
        rw [expireSlot, ← tDef, if_neg idle, if_neg early, inQueue]
      have member : t ∈ members q := (consistent.member_iff q t).mpr
        ⟨blocked, inQueue⟩
      have lists : (fun q => (members q).erase t) =
          Function.update members q ((members q).erase t) := by
        funext q'
        by_cases same : q' = q
        · subst same
          simp
        · rw [Function.update_of_ne same]
          exact List.erase_of_not_mem fun other =>
            same (consistent.stores.apart q' q t other member)
      have links := queueRemove_linksOnly s q t
      have woke := (links.woke t .timeout).emit (.timedOut q t)
      have sameTrace : (queueRemove s q t).trace = s.trace :=
        (congrArg Sched.trace links.rest :)
      have traced : (expireSlot s i).trace = .timedOut q t :: s.trace := by
        rw [expired, ← sameTrace]
        rfl
      have stores := queueRemove_stores consistent.stores member
        (Nat.le_succ_of_le (consistent.length_le q))
      rw [← lists] at stores
      rw [← expired] at woke
      refine ⟨blocked, timed, reached, woke, ?_, by simp [← tDef, inQueue], ?_⟩
      · intro q' equal
        rw [← tDef, inQueue] at equal
        injection equal with same
        rw [← same]
        exact traced
      refine woke.consistent consistent blocked ?_ erase_iff ?_ ?_
      · rw [expired]
        refine (clearLink (queueRemove s q t) _ ?_ stores).congr
          (fun _ _ _ => rfl) rfl
        intro q' other inErased
        exact ((erase_iff q' other).mp inErased).2
      · intro q'
        rw [traced]
        by_cases same : q' = q
        · subst same
          simp [waiting, consistent.waits, ← tDef]
        · have other : ¬ q = q' := fun equal => same equal.symm
          have absent : t ∉ members q' := fun inOther =>
            same (consistent.stores.apart q' q t inOther member)
          simp [waiting, consistent.waits, other, ← tDef,
            List.erase_of_not_mem absent]
      · rw [traced]
        exact consistent.inOrder.cons (by simp)

/-- What every timed out task preserves is preserved by `wake_expired`. -/
theorem wakeExpired_induction {Holds : Sched World → Members → Prop}
    (consistent : Consistent s members) (start : Holds s members)
    (step : ∀ s s' members i, Consistent s members → Holds s members →
      Expired s s' members i →
      Holds s' fun q => (members q).erase (.slot i)) :
    ∃ lists, Consistent (wakeExpired s) lists ∧ Holds (wakeExpired s) lists := by
  unfold wakeExpired
  generalize List.range s.slotCount = slots
  induction slots generalizing s members with
  | nil => exact ⟨members, consistent, start⟩
  | cons i rest induction =>
      simp only [List.foldl_cons]
      rcases expireSlot_cases consistent i with same | expired
      · rw [same]
        exact induction consistent start
      · exact induction expired.consistent
          (step s _ members i consistent start expired)

/-! ## Switching the processor -/

theorem nextReady_spec {tasks : TaskRef → Task World} {slotCount probe : Nat}
    (positive : 0 < slotCount) : ∀ {rounds start : Nat},
      nextReady tasks slotCount rounds start = some probe →
      probe < slotCount ∧ (tasks (.slot probe)).state = .ready
  | 0, _, found => by simp [nextReady] at found
  | rounds + 1, start, found => by
      simp only [nextReady] at found
      split at found
      · rename_i ready
        injection found with equal
        subst equal
        exact ⟨Nat.mod_lt _ positive, ready⟩
      · exact nextReady_spec positive found

/-- `schedule` changed the states of the old and the new current task. -/
structure Switched (s s' : Sched World) : Prop where
  task : ∀ t, { s'.tasks t with state := (s.tasks t).state } = s.tasks t
  current : (s'.tasks s'.current).state = .running
  others : ∀ t, t ≠ s'.current → (s'.tasks t).state =
    if t = s.current ∧ (s.tasks t).state = .running then .ready
    else (s.tasks t).state
  chosen : s'.current = .idle ∨ (s.tasks s'.current).state = .ready ∨
    s'.current = s.current ∧ (s.tasks s'.current).state = .running
  allocated : s'.current.Allocated s.slotCount
  rest : { s' with
    tasks := s.tasks
    current := s.current
    lastSlot := s.lastSlot } = s

theorem schedule_switched (positive : 0 < s.slotCount) :
    Switched s (schedule s) := by
  -- `demoted` is the state in which the search runs.
  let demoted : Sched World :=
    if (s.tasks s.current).state = .running then
      s.modifyTask s.current fun task => { task with state := .ready }
    else s
  have demotedTask : ∀ t, demoted.tasks t = { s.tasks t with
      state := if t = s.current ∧ (s.tasks t).state = .running then .ready
        else (s.tasks t).state } := by
    intro t
    by_cases running : (s.tasks s.current).state = .running
    · by_cases equal : t = s.current
      · subst equal
        simp [demoted, running, Sched.modifyTask]
      · simp [demoted, running, Sched.modifyTask, equal]
    · by_cases equal : t = s.current
      · subst equal
        simp [demoted, running]
      · simp [demoted, running, equal]
  have demotedRest : { demoted with tasks := s.tasks } = s := by
    by_cases running : (s.tasks s.current).state = .running <;>
      simp [demoted, running, Sched.modifyTask]
  have slots : demoted.slotCount = s.slotCount :=
    (congrArg Sched.slotCount demotedRest :)
  have sameCurrent : demoted.current = s.current :=
    (congrArg Sched.current demotedRest :)
  have sameLast : demoted.lastSlot = s.lastSlot :=
    (congrArg Sched.lastSlot demotedRest :)
  unfold schedule
  dsimp only
  cases found : nextReady demoted.tasks demoted.slotCount demoted.slotCount
      demoted.lastSlot with
  | none =>
      change Switched s
        { demoted.modifyTask .idle (fun task => { task with state := .running })
          with current := .idle }
      refine ⟨?_, ?_, ?_, Or.inl rfl, trivial, ?_⟩
      · intro t
        by_cases equal : t = .idle
        · subst equal
          simp [Sched.modifyTask, demotedTask]
        · simp [Sched.modifyTask, equal, demotedTask]
      · simp [Sched.modifyTask]
      · intro t different
        simp only at different
        simp [Sched.modifyTask, different, demotedTask]
      · simpa [Sched.modifyTask, sameCurrent, sameLast] using demotedRest
  | some probe =>
      rcases nextReady_spec (by rw [slots]; exact positive) found with
        ⟨inRange, ready⟩
      change Switched s
        { demoted.modifyTask (.slot probe) (fun task => { task with state := .running })
          with current := .slot probe, lastSlot := probe }
      refine ⟨?_, ?_, ?_, Or.inr ?_, by rw [← slots]; exact inRange, ?_⟩
      · intro t
        by_cases equal : t = .slot probe
        · subst equal
          simp [Sched.modifyTask, demotedTask]
        · simp [Sched.modifyTask, equal, demotedTask]
      · simp [Sched.modifyTask]
      · intro t different
        simp only at different
        simp [Sched.modifyTask, different, demotedTask]
      · rw [demotedTask] at ready
        simp only at ready ⊢
        split at ready
        · rename_i wasRunning
          exact Or.inr wasRunning
        · exact Or.inl ready
      · simpa [Sched.modifyTask, sameCurrent, sameLast] using demotedRest

namespace Switched

theorem slotCount (switched : Switched s s') : s'.slotCount = s.slotCount :=
  (congrArg Sched.slotCount switched.rest :)

theorem queues (switched : Switched s s') : s'.queues = s.queues :=
  (congrArg Sched.queues switched.rest :)

theorem trace (switched : Switched s s') : s'.trace = s.trace :=
  (congrArg Sched.trace switched.rest :)

theorem queue_eq (switched : Switched s s') (t : TaskRef) :
    (s'.tasks t).queue = (s.tasks t).queue :=
  (congrArg Task.queue (switched.task t) :)

theorem context_eq (switched : Switched s s') (t : TaskRef) :
    (s'.tasks t).context = (s.tasks t).context :=
  (congrArg Task.context (switched.task t) :)

/-- Tasks that were neither ready nor running keep their state. -/
theorem state_iff {state : TaskState} (switched : Switched s s')
    (idle : (s.tasks .idle).state = .ready ∨ (s.tasks .idle).state = .running)
    (notReady : state ≠ .ready) (notRunning : state ≠ .running) (t : TaskRef) :
    (s'.tasks t).state = state ↔ (s.tasks t).state = state := by
  by_cases equal : t = s'.current
  · subst equal
    rw [switched.current]
    refine ⟨fun same => absurd same.symm notRunning, fun same => ?_⟩
    rcases switched.chosen with isIdle | wasReady | ⟨_, wasRunning⟩
    · rw [isIdle] at same
      rcases idle with ready | running
      · exact absurd (same.symm.trans ready) notReady
      · exact absurd (same.symm.trans running) notRunning
    · exact absurd (same.symm.trans wasReady) notReady
    · exact absurd (same.symm.trans wasRunning) notRunning
  · rw [switched.others t equal]
    split
    · rename_i demoted
      rw [demoted.2]
      exact ⟨fun same => absurd same.symm notReady,
        fun same => absurd same.symm notRunning⟩
    · exact Iff.rfl

theorem invariant (switched : Switched s s') (before : Consistent s members) :
    Invariant s' members where
  stores := before.stores.congr
    (fun _ t _ => (congrArg Task.waitNext (switched.task t) :)) switched.queues
  member_iff q t := by
    rw [switched.queue_eq,
      switched.state_iff before.idle (by simp) (by simp)]
    exact before.member_iff q t
  unqueued t notBlocked := by
    rw [Ne, switched.state_iff before.idle (by simp) (by simp)] at notBlocked
    rw [switched.queue_eq]
    exact before.unqueued t notBlocked
  allocated t used := by
    rw [Ne, switched.state_iff before.idle (by simp) (by simp)] at used
    rw [switched.slotCount]
    exact before.allocated t used
  slotCount_pos := switched.slotCount ▸ before.slotCount_pos
  slotCount_le := switched.slotCount ▸ before.slotCount_le
  running_only t running := by
    by_contra different
    rw [switched.others t different] at running
    split at running
    · cases running
    · rename_i notDemoted
      exact notDemoted ⟨before.running_only t running, running⟩
  idle := by
    by_cases equal : TaskRef.idle = s'.current
    · exact Or.inr (equal ▸ switched.current)
    · rw [switched.others _ equal]
      split
      · exact Or.inl rfl
      · exact before.idle
  fits t blocked := by
    rw [switched.state_iff before.idle (by simp) (by simp)] at blocked
    rw [switched.context_eq, switched.queue_eq]
    exact before.fits t blocked
  exits t exiting := by
    rw [switched.context_eq] at exiting
    rw [switched.state_iff before.idle (by simp) (by simp)]
    exact before.exits t exiting
  fresh t unused := by
    rw [switched.state_iff before.idle (by simp) (by simp)] at unused
    rw [switched.context_eq]
    exact before.fresh t unused
  waits q := by rw [switched.trace]; exact before.waits q
  inOrder := by rw [switched.trace]; exact before.inOrder
  runs := Or.inl switched.current

end Switched

/-! ## Blocking -/

/-- The lists after the current task joined the queue `q`, if there is one. -/
def joined (members : Members) (q : Option QueueRef) (t : TaskRef) : Members :=
  match q with
  | some q => Function.update members q (members q ++ [t])
  | none => members

/-- The current task is marked blocked; the switch is still to come. -/
structure Blocked (s s' : Sched World) (q : Option QueueRef) (timed : Bool)
    (deadline : Nat) (context : Context World) : Prop where
  self : (s'.tasks s.current).unlinked =
    { s.tasks s.current with
      queue := q
      waitNext := none
      hasDeadline := timed
      deadline := deadline
      state := .blocked
      context := context }
  others : ∀ other, other ≠ s.current →
    (s'.tasks other).unlinked = (s.tasks other).unlinked
  rest : { s' with tasks := s.tasks, queues := s.queues, trace := s.trace } = s
  trace_some : ∀ queue, q = some queue →
    s'.trace = .enqueued queue s.current :: s.trace
  trace_none : q = none → s'.trace = s.trace

namespace Blocked

variable {queue : Option QueueRef} {timed : Bool} {deadline : Nat}
variable {context : Context World} {other : TaskRef}

theorem current (blocked : Blocked s s' queue timed deadline context) :
    s'.current = s.current :=
  (congrArg Sched.current blocked.rest :)

theorem slotCount (blocked : Blocked s s' queue timed deadline context) :
    s'.slotCount = s.slotCount :=
  (congrArg Sched.slotCount blocked.rest :)

theorem state_self (blocked : Blocked s s' queue timed deadline context) :
    (s'.tasks s.current).state = .blocked :=
  (congrArg Task.state blocked.self :)

theorem queue_self (blocked : Blocked s s' queue timed deadline context) :
    (s'.tasks s.current).queue = queue :=
  (congrArg Task.queue blocked.self :)

theorem context_self (blocked : Blocked s s' queue timed deadline context) :
    (s'.tasks s.current).context = context :=
  (congrArg Task.context blocked.self :)

theorem state_other (blocked : Blocked s s' queue timed deadline context)
    (different : other ≠ s.current) :
    (s'.tasks other).state = (s.tasks other).state :=
  (congrArg Task.state (blocked.others other different) :)

theorem queue_other (blocked : Blocked s s' queue timed deadline context)
    (different : other ≠ s.current) :
    (s'.tasks other).queue = (s.tasks other).queue :=
  (congrArg Task.queue (blocked.others other different) :)

theorem context_other (blocked : Blocked s s' queue timed deadline context)
    (different : other ≠ s.current) :
    (s'.tasks other).context = (s.tasks other).context :=
  (congrArg Task.context (blocked.others other different) :)

theorem consistent (blocked : Blocked s s' queue timed deadline context)
    (before : Consistent s members)
    (running : (s.tasks s.current).state = .running)
    (notIdle : s.current ≠ .idle) (fits : context.Fits queue)
    (stores : Stores s' (joined members queue s.current)) :
    Consistent s' (joined members queue s.current) where
  stores := stores
  member_iff q other := by
    have outside : s.current ∉ members q := by
      intro member
      have isBlocked := ((before.member_iff q s.current).mp member).1
      rw [running] at isBlocked
      cases isBlocked
    by_cases equal : other = s.current
    · subst equal
      rw [blocked.state_self, blocked.queue_self]
      cases queue with
      | none => simp [joined, outside]
      | some queue =>
          by_cases same : q = queue
          · subst same
            simp [joined]
          · have differs : ¬ queue = q := fun equal => same equal.symm
            simp [joined, Function.update_of_ne same, outside, differs]
    · rw [blocked.state_other equal, blocked.queue_other equal,
        ← before.member_iff]
      cases queue with
      | none => rfl
      | some queue =>
          by_cases same : q = queue
          · subst same
            simp [joined, equal]
          · simp [joined, Function.update_of_ne same]
  unqueued other notBlocked := by
    by_cases equal : other = s.current
    · subst equal
      exact absurd blocked.state_self notBlocked
    · rw [blocked.state_other equal] at notBlocked
      rw [blocked.queue_other equal]
      exact before.unqueued other notBlocked
  allocated other used := by
    rw [blocked.slotCount]
    by_cases equal : other = s.current
    · subst equal
      exact before.allocated _ (by simp [running])
    · rw [blocked.state_other equal] at used
      exact before.allocated other used
  slotCount_pos := blocked.slotCount ▸ before.slotCount_pos
  slotCount_le := blocked.slotCount ▸ before.slotCount_le
  running_only other isRunning := by
    rw [blocked.current]
    by_contra different
    rw [blocked.state_other different] at isRunning
    exact different (before.running_only other isRunning)
  idle := by
    rw [blocked.state_other fun equal => notIdle equal.symm]
    exact before.idle
  fits other isBlocked := by
    by_cases equal : other = s.current
    · subst equal
      rw [blocked.context_self, blocked.queue_self]
      exact fits
    · rw [blocked.state_other equal] at isBlocked
      rw [blocked.context_other equal, blocked.queue_other equal]
      exact before.fits other isBlocked
  exits other exiting := by
    by_cases equal : other = s.current
    · subst equal
      rw [blocked.context_self] at exiting
      rw [exiting] at fits
      cases queue <;> exact fits.elim
    · rw [blocked.context_other equal] at exiting
      rw [blocked.state_other equal]
      exact before.exits other exiting
  fresh other unused := by
    by_cases equal : other = s.current
    · subst equal
      rw [blocked.state_self] at unused
      cases unused
    · rw [blocked.state_other equal] at unused
      rw [blocked.context_other equal]
      exact before.fresh other unused
  waits q := by
    cases queue with
    | none =>
        rw [blocked.trace_none rfl]
        exact before.waits q
    | some queue =>
        rw [blocked.trace_some queue rfl]
        by_cases same : q = queue
        · subst same
          simp [waiting, joined, before.waits]
        · have differs : ¬ queue = q := fun equal => same equal.symm
          simp [waiting, joined, before.waits, differs,
            Function.update_of_ne same]
  inOrder := by
    cases queue with
    | none =>
        rw [blocked.trace_none rfl]
        exact before.inOrder
    | some queue =>
        rw [blocked.trace_some queue rfl]
        exact before.inOrder.cons (by simp)

end Blocked

theorem markBlocked_blocked (s : Sched World) (queue : Option QueueRef)
    (timed : Bool) (deadline : Nat) (context : Context World) :
    Blocked s (markBlocked s queue timed deadline context) queue timed deadline
      context := by
  cases queue with
  | none =>
      refine ⟨?_, ?_, rfl, by simp, fun _ => rfl⟩
      · simp [markBlocked, Sched.modifyTask, Task.unlinked]
      · intro other different
        simp [markBlocked, Sched.modifyTask, different]
  | some q =>
      have links := queuePush_linksOnly s q s.current
      have sameTrace : (queuePush s q s.current).trace = s.trace :=
        (congrArg Sched.trace links.rest :)
      refine ⟨?_, ?_, ?_, ?_, by simp⟩
      · have same := links.task s.current
        simp only [Task.unlinked] at same ⊢
        simp only [markBlocked, Sched.modifyTask, Sched.emit,
          Function.update_self]
        injection same with state id queue deadline hasDeadline wakeResult context
        simp [*]
      · intro other different
        simpa [markBlocked, Sched.modifyTask, Sched.emit, different] using
          links.task other
      · simpa [markBlocked, Sched.modifyTask, Sched.emit, sameTrace] using
          links.rest
      · intro queue equal
        injection equal with same
        subst same
        simp [markBlocked, Sched.modifyTask, Sched.emit, sameTrace]

theorem markBlocked_stores (stores : Stores s members)
    (outside : ∀ q, s.current ∉ members q) (queue : Option QueueRef)
    (timed : Bool) (deadline : Nat) (context : Context World) :
    Stores (markBlocked s queue timed deadline context)
      (joined members queue s.current) := by
  have keeps : ∀ pushed : Sched World, ∀ lists, Stores pushed lists →
      Stores (pushed.modifyTask s.current fun task =>
        { task with
          queue := queue
          hasDeadline := timed
          deadline := deadline
          state := .blocked
          context := context }) lists := by
    intro pushed lists linked
    refine linked.congr ?_ rfl
    intro q t _
    by_cases equal : t = s.current
    · subst equal
      simp [nextOf, Sched.modifyTask]
    · simp [nextOf, Sched.modifyTask, equal]
  cases queue with
  | none => exact keeps s members stores
  | some q =>
      refine keeps _ _ ?_
      exact (queuePush_stores stores outside).congr (fun _ _ _ => rfl) rfl

/-- `block_current` returns at once when the deadline has passed, and otherwise
blocks the caller and switches. -/
theorem blockCurrent_cases {queue : Option QueueRef} {timed : Bool}
    {deadline : Nat} {context : Context World} {returned : Option WaitResult}
    (before : Consistent s members)
    (running : (s.tasks s.current).state = .running)
    (fits : context.Fits queue)
    (done : blockCurrent s queue timed deadline context = .ok (returned, s')) :
    (returned = some .timeout ∧ s' = s ∧ timed = true ∧
      timeReached s.ticks deadline = true) ∨
    (returned = none ∧ ∃ middle, Blocked s middle queue timed deadline context ∧
      Consistent middle (joined members queue s.current) ∧
      Switched middle s') := by
  unfold blockCurrent at done
  split at done
  · cases done
  rename_i started
  split at done
  · cases done
  rename_i notIdle
  split at done
  · rename_i expired
    injection done with pair
    injection pair with first second
    simp only [Bool.and_eq_true] at expired
    exact Or.inl ⟨first.symm, second.symm, expired.1, expired.2⟩
  right
  have outside : ∀ q, s.current ∉ members q := by
    intro q member
    have isBlocked := ((before.member_iff q s.current).mp member).1
    rw [running] at isBlocked
    cases isBlocked
  have blocked := markBlocked_blocked s queue timed deadline context
  have consistent := blocked.consistent before running notIdle fits
    (markBlocked_stores before.stores outside queue timed deadline context)
  have flag : (markBlocked s queue timed deadline context).runningFlag = true := by
    have same : (markBlocked s queue timed deadline context).runningFlag =
        s.runningFlag := (congrArg Sched.runningFlag blocked.rest :)
    rw [same]
    simpa using started
  injection done with pair
  injection pair with first second
  refine ⟨first.symm, _, blocked, consistent, ?_⟩
  rw [← second, schedulerSwitch, if_pos flag]
  exact schedule_switched consistent.slotCount_pos

end Katela.Scheduler
