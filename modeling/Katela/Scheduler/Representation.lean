import Katela.Scheduler.Step

/-! # Tasks and queues in every reachable state

The representation invariant read off for a maintainer: who runs, what the wait
queues look like and which tasks they hold. -/

namespace Katela.Scheduler

variable {World : Type}

/-- The queue `q` is a list without repetition that runs from its head to its
tail. -/
structure QueueShape (s : Sched World) (q : QueueRef) (list : List TaskRef) :
    Prop where
  linked : Linked (nextOf s) (s.queues q).head list
  nodup : list.Nodup
  tail : (s.queues q).tail = list.getLast?
  ends_together : (s.queues q).head = none ↔ (s.queues q).tail = none
  tail_next : ∀ t, (s.queues q).tail = some t → nextOf s t = none

theorem Stores.queueShape {s : Sched World} {members : Members}
    (stores : Stores s members) (q : QueueRef) :
    QueueShape s q (members q) where
  linked := stores.linked q
  nodup := stores.nodup q
  tail := stores.tail q
  ends_together := by
    rw [stores.head, stores.tail]
    simp
  tail_next t atTail := by
    rw [stores.tail] at atTail
    rcases List.getLast?_eq_some_iff.mp atTail with ⟨front, split⟩
    have linked := stores.linked q
    rw [split] at linked
    exact linked.next_last

/-- The condition on tasks and queues between two operations. -/
structure Representation (s : Sched World) : Prop where
  running_iff : ∀ t, (s.tasks t).state = .running ↔ t = s.current
  queues : ∃ members : Members,
    (∀ q, QueueShape s q (members q)) ∧
    (∀ q t, t ∈ members q ↔
      (s.tasks t).state = .blocked ∧ (s.tasks t).queue = some q) ∧
    (∀ q t, t ∈ members q → (members q).count t = 1) ∧
    (∀ q q' t, t ∈ members q → t ∈ members q' → q = q') ∧
    (∀ t, (s.tasks t).state = .ready ∨ (s.tasks t).state = .running ∨
      (s.tasks t).state = .terminated → ∀ q, t ∉ members q)
  idle_not_blocked : (s.tasks .idle).state ≠ .blocked

/-- In every state of every run in which the current task is not halfway
through `task_exit`, the tasks and queues are well represented. -/
theorem reachable_representation {count : Nat → Nat} {s : Sched World}
    (reachable : Reachable count s)
    (between : (s.tasks s.current).context ≠ .exiting) : Representation s := by
  have valid := reachable.valid
  refine ⟨?_, ⟨fun q => waiting q s.trace, valid.stores.queueShape,
    valid.member_iff, ?_, valid.stores.apart, ?_⟩, ?_⟩
  · intro t
    constructor
    · exact valid.running_only t
    · intro equal
      rw [equal]
      exact valid.running_of_code between
  · intro q t member
    exact List.count_eq_one_of_mem (valid.stores.nodup q) member
  · intro t states q member
    have blocked := ((valid.member_iff q t).mp member).1
    rcases states with state | state | state
    all_goals
      rw [state] at blocked
      cases blocked
  · intro blocked
    rcases valid.idle with state | state
    all_goals
      rw [state] at blocked
      cases blocked

/-- The main task waits for a semaphore without tokens and the idle task
runs. -/
theorem representation_of_waiting_main :
    ∃ s : Sched Unit, Reachable (fun _ => 0) s ∧
      (s.tasks (.slot 0)).queue = some (.semaphore 3) ∧
      s.current = .idle ∧ Representation s := by
  have started : Reachable (fun _ => 0) (schedulerStart (schedulerInit () _)) :=
    .step (.init ()) ⟨.schedulerStart, trivial, rfl⟩
  have waits : Reachable (fun _ => 0) _ :=
    .step started ⟨.semWaitTimeout 3 waitForever, trivial, rfl⟩
  refine ⟨_, waits, rfl, rfl, reachable_representation waits ?_⟩
  intro exiting
  cases exiting

end Katela.Scheduler
