import Katela.Foundation.LinkedList
import Katela.Scheduler.Model

/-! # Wait queues as lists

The linked lists of the scheduler store one list of tasks for every queue. Each
queue function changes that family of lists in the obvious way and no part of
the state besides the links. -/

namespace Katela.Scheduler

variable {World : Type} {s s' : Sched World} {q : QueueRef} {t : TaskRef}

/-- The members of every wait queue, from head to tail. -/
abbrev Members := QueueRef → List TaskRef

def nextOf (s : Sched World) (t : TaskRef) : Option TaskRef :=
  (s.tasks t).waitNext

/-- The linked structures of `s` store the lists `members`. -/
structure Stores (s : Sched World) (members : Members) : Prop where
  linked : ∀ q, Linked (nextOf s) (s.queues q).head (members q)
  tail : ∀ q, (s.queues q).tail = (members q).getLast?
  apart : ∀ q q' t, t ∈ members q → t ∈ members q' → q = q'

/-- A task without its link. -/
def Task.unlinked (task : Task World) : Task World :=
  { task with waitNext := none }

/-- Only links and queue ends differ between two states. -/
structure LinksOnly (s s' : Sched World) : Prop where
  task : ∀ t, (s'.tasks t).unlinked = (s.tasks t).unlinked
  rest : { s' with tasks := s.tasks, queues := s.queues } = s

namespace LinksOnly

theorem refl (s : Sched World) : LinksOnly s s :=
  ⟨fun _ => rfl, rfl⟩

theorem trans {s'' : Sched World} (first : LinksOnly s s')
    (second : LinksOnly s' s'') : LinksOnly s s'' := by
  refine ⟨fun t => (second.task t).trans (first.task t), ?_⟩
  have later := second.rest
  have earlier := first.rest
  cases s''
  cases s'
  cases s
  simp_all

theorem modifyTask (s : Sched World) (t : TaskRef) (link : Option TaskRef) :
    LinksOnly s (s.modifyTask t fun task => { task with waitNext := link }) := by
  refine ⟨fun other => ?_, rfl⟩
  by_cases equal : other = t
  · subst equal
    simp [Sched.modifyTask, Task.unlinked]
  · simp [Sched.modifyTask, equal]

theorem setQueue (s : Sched World) (q : QueueRef) (value : WaitQueue) :
    LinksOnly s (s.setQueue q value) :=
  ⟨fun _ => rfl, rfl⟩

end LinksOnly

namespace Stores

variable {members : Members}

theorem nodup (stores : Stores s members) (q : QueueRef) : (members q).Nodup :=
  (stores.linked q).nodup

theorem head (stores : Stores s members) (q : QueueRef) :
    (s.queues q).head = (members q).head? :=
  (stores.linked q).start_eq_head

/-- Links outside the queues and everything that is not a link may change. -/
theorem congr (stores : Stores s members)
    (links : ∀ q, ∀ t ∈ members q, nextOf s' t = nextOf s t)
    (queues : s'.queues = s.queues) : Stores s' members where
  linked q := by
    rw [queues]
    exact (stores.linked q).congr (links q)
  tail q := by rw [queues]; exact stores.tail q
  apart := stores.apart

/-- Replacing the list of one queue when the others keep their links. -/
theorem replace {list : List TaskRef} (stores : Stores s members)
    (links : ∀ q', q' ≠ q → ∀ t ∈ members q', nextOf s' t = nextOf s t)
    (queues : ∀ q', q' ≠ q → s'.queues q' = s.queues q')
    (linked : Linked (nextOf s') (s'.queues q).head list)
    (tail : (s'.queues q).tail = list.getLast?)
    (apart : ∀ q', q' ≠ q → ∀ t ∈ list, t ∉ members q') :
    Stores s' (Function.update members q list) where
  linked q' := by
    by_cases equal : q' = q
    · subst equal
      simpa using linked
    · rw [Function.update_of_ne equal, queues q' equal]
      exact (stores.linked q').congr (links q' equal)
  tail q' := by
    by_cases equal : q' = q
    · subst equal
      simpa using tail
    · rw [Function.update_of_ne equal, queues q' equal]
      exact stores.tail q'
  apart left right t inLeft inRight := by
    by_cases leftEqual : left = q <;> by_cases rightEqual : right = q
    · exact leftEqual.trans rightEqual.symm
    · subst leftEqual
      rw [Function.update_self] at inLeft
      rw [Function.update_of_ne rightEqual] at inRight
      exact absurd inRight (apart right rightEqual t inLeft)
    · subst rightEqual
      rw [Function.update_self] at inRight
      rw [Function.update_of_ne leftEqual] at inLeft
      exact absurd inLeft (apart left leftEqual t inRight)
    · rw [Function.update_of_ne leftEqual] at inLeft
      rw [Function.update_of_ne rightEqual] at inRight
      exact stores.apart left right t inLeft inRight

/-- A member of one queue is in no other. -/
theorem not_mem_other (stores : Stores s members) {q' : QueueRef}
    (member : t ∈ members q) (different : q' ≠ q) : t ∉ members q' :=
  fun other => different (stores.apart q' q t other member)

end Stores

/-! ## `queue_push` -/

theorem queuePush_linksOnly (s : Sched World) (q : QueueRef) (t : TaskRef) :
    LinksOnly s (queuePush s q t) := by
  have first := LinksOnly.modifyTask s t none
  unfold queuePush
  simp only
  split
  · exact first.trans ((LinksOnly.modifyTask _ _ _).trans
      (LinksOnly.setQueue _ _ _))
  · exact first.trans (LinksOnly.setQueue _ _ _)

theorem queuePush_stores {members : Members} (stores : Stores s members)
    (fresh : ∀ q, t ∉ members q) :
    Stores (queuePush s q t)
      (Function.update members q (members q ++ [t])) := by
  have differs : ∀ q', ∀ cell ∈ members q', cell ≠ t := by
    intro q' cell member equal
    exact fresh q' (equal ▸ member)
  have tailEq := stores.tail q
  rcases List.eq_nil_or_concat (members q) with empty | ⟨front, last, split⟩
  · have noTail : (s.queues q).tail = none := by rw [tailEq, empty]; rfl
    have pushed : queuePush s q t =
        (s.modifyTask t fun task => { task with waitNext := none }).setQueue q
          { head := some t, tail := some t } := by
      simp [queuePush, Sched.modifyTask, noTail]
    rw [pushed, empty]
    refine stores.replace ?_ ?_ ?_ ?_ ?_
    · intro q' _ cell member
      simp [nextOf, Sched.modifyTask, Sched.setQueue, differs q' cell member]
    · intro q' different
      simp [Sched.modifyTask, Sched.setQueue, different]
    · simp [nextOf, Sched.modifyTask, Sched.setQueue]
    · simp [Sched.modifyTask, Sched.setQueue]
    · intro q' _ cell member
      simp only [List.nil_append, List.mem_singleton] at member
      subst member
      exact fresh q'
  · have hasTail : (s.queues q).tail = some last := by
      rw [tailEq, split]; simp
    have lastMember : last ∈ members q := by simp [split]
    have lastDiffers := differs q last lastMember
    have pushed : queuePush s q t =
        (((s.modifyTask t fun task => { task with waitNext := none }).modifyTask
          last fun task => { task with waitNext := some t }).setQueue q
            { s.queues q with tail := some t }) := by
      simp [queuePush, Sched.modifyTask, hasTail]
    rw [pushed]
    refine stores.replace ?_ ?_ ?_ ?_ ?_
    · intro q' different cell member
      have notLast : cell ≠ last := by
        intro equal
        subst equal
        exact stores.not_mem_other lastMember different member
      simp [nextOf, Sched.modifyTask, Sched.setQueue, notLast,
        differs q' cell member]
    · intro q' different
      simp [Sched.modifyTask, Sched.setQueue, different]
    · have linked := stores.linked q
      have unique := stores.nodup q
      rw [split] at linked unique ⊢
      have headSame : (Function.update s.queues q
          { s.queues q with tail := some t } q).head = (s.queues q).head := by
        simp
      simp only [Sched.modifyTask, Sched.setQueue, headSame]
      rw [List.concat_eq_append] at linked ⊢
      refine Linked.snoc linked ?_ ?_ ?_
      · intro cell member
        have notLast : cell ≠ last := by
          intro equal
          subst equal
          rw [List.concat_eq_append] at unique
          exact (List.nodup_append.mp unique).2.2 cell member cell (by simp) rfl
        have notNew : cell ≠ t := differs q cell (by simp [split, member])
        simp [nextOf, notLast, notNew]
      · simp [nextOf]
      · simp [nextOf, lastDiffers.symm]
    · simp [Sched.modifyTask, Sched.setQueue]
    · intro q' different cell member
      rcases List.mem_append.mp member with old | new
      · exact stores.not_mem_other old different
      · simp only [List.mem_singleton] at new
        subst new
        exact fresh q'

/-! ## `queue_pop` -/

theorem queuePop_nil {members : Members} (stores : Stores s members)
    (empty : members q = []) : queuePop s q = (none, s) := by
  have noHead : (s.queues q).head = none := by rw [stores.head q, empty]; rfl
  simp [queuePop, noHead]

theorem queuePop_cons {members : Members} {rest : List TaskRef}
    (stores : Stores s members) (split : members q = t :: rest) :
    ∃ popped, queuePop s q = (some t, popped) ∧ LinksOnly s popped ∧
      Stores popped (Function.update members q rest) := by
  have hasHead : (s.queues q).head = some t := by rw [stores.head q, split]; rfl
  let next := (s.tasks t).waitNext
  let popped := (s.setQueue q
    { head := next, tail := if next = none then none else (s.queues q).tail }
    ).modifyTask t fun task => { task with waitNext := none }
  refine ⟨popped, by rw [queuePop, hasHead], ?_, ?_⟩
  · exact (LinksOnly.setQueue _ _ _).trans (LinksOnly.modifyTask _ _ _)
  · have member : t ∈ members q := by simp [split]
    have unique := stores.nodup q
    rw [split] at unique
    have notRest : ∀ cell ∈ rest, cell ≠ t := by
      intro cell inRest equal
      subst equal
      exact (List.nodup_cons.mp unique).1 inRest
    have linked := stores.linked q
    rw [split] at linked
    refine stores.replace ?_ ?_ ?_ ?_ ?_
    · intro q' different cell inOther
      have notHead : cell ≠ t := by
        intro equal
        subst equal
        exact stores.not_mem_other member different inOther
      simp [popped, nextOf, Sched.modifyTask, Sched.setQueue, notHead]
    · intro q' different
      simp [popped, Sched.modifyTask, Sched.setQueue, different]
    · have remaining : Linked (nextOf s) (nextOf s t) rest := linked.2
      simp only [popped, Sched.modifyTask, Sched.setQueue, Function.update_self]
      refine Segment.congr remaining ?_
      intro cell inRest
      simp [nextOf, notRest cell inRest]
    · have start : (s.tasks t).waitNext = rest.head? :=
        Linked.start_eq_head linked.2
      have last := stores.tail q
      rw [split] at last
      simp only [popped, next, Sched.modifyTask, Sched.setQueue,
        Function.update_self, start]
      cases rest with
      | nil => simp
      | cons next others => simpa using last
    · intro q' different cell inRest
      exact stores.not_mem_other (by simp [split, inRest]) different

/-! ## `queue_remove` -/

theorem queueFind_eq {next : TaskRef → Option TaskRef} {after : List TaskRef} :
    ∀ {before : List TaskRef} {fuel : Nat} {prev start : Option TaskRef},
      Linked next start (before ++ t :: after) → t ∉ before →
      before.length < fuel →
      queueFind next t fuel prev start =
        (before.getLast?.orElse fun _ => prev, some t)
  | _, 0, _, _, _, _, enough => by simp at enough
  | [], fuel + 1, prev, start, linked, _, _ => by
      have atStart : start = some t := linked.1
      subst atStart
      simp [queueFind]
  | first :: before, fuel + 1, prev, start, linked, notBefore, enough => by
      have atStart : start = some first := linked.1
      subst atStart
      have different : first ≠ t := fun equal => notBefore (by simp [equal])
      have remaining : t ∉ before := fun member => notBefore (by simp [member])
      rw [queueFind, if_neg different,
        queueFind_eq linked.2 remaining (by simpa using enough)]
      cases before with
      | nil => rfl
      | cons second others =>
          rcases List.eq_nil_or_concat (second :: others) with empty | ⟨_, last, split⟩
          · cases empty
          · simp [List.getLast?_cons, split]

theorem queueRemove_linksOnly (s : Sched World) (q : QueueRef) (t : TaskRef) :
    LinksOnly s (queueRemove s q t) := by
  unfold queueRemove
  split
  · exact LinksOnly.refl s
  · simp only
    refine LinksOnly.trans ?_ (LinksOnly.modifyTask _ _ _)
    split <;> split
    · exact (LinksOnly.modifyTask _ _ _).trans (LinksOnly.setQueue _ _ _)
    · exact LinksOnly.modifyTask _ _ _
    · exact (LinksOnly.setQueue _ _ _).trans (LinksOnly.setQueue _ _ _)
    · exact LinksOnly.setQueue _ _ _

/-- The links after `queue_remove` found `t` behind the cells `before`. -/
theorem nextOf_queueRemove {before after : List TaskRef}
    (linked : Linked (nextOf s) (s.queues q).head (before ++ t :: after))
    (notBefore : t ∉ before) (enough : before.length < queueFuel)
    (cell : TaskRef) (different : cell ≠ t) :
    nextOf (queueRemove s q t) cell =
      if before.getLast? = some cell then nextOf s t else nextOf s cell := by
  have found : queueFind (fun cell => (s.tasks cell).waitNext) t queueFuel none
      (s.queues q).head = _ := queueFind_eq linked notBefore enough
  rw [queueRemove, found]
  cases position : before.getLast? with
  | none =>
      by_cases atTail : (s.queues q).tail = some t <;>
        simp [nextOf, Sched.modifyTask, Sched.setQueue, different, atTail]
  | some previous =>
      by_cases equal : cell = previous
      · subst equal
        by_cases atTail : (s.queues q).tail = some t <;>
          simp [nextOf, Sched.modifyTask, Sched.setQueue, different, atTail]
      · have other : ¬ previous = cell := fun same => equal same.symm
        by_cases atTail : (s.queues q).tail = some t <;>
          simp [nextOf, Sched.modifyTask, Sched.setQueue, different, equal,
            other, atTail]

/-- The ends of a queue after `queue_remove`. -/
theorem queues_queueRemove {before after : List TaskRef}
    (linked : Linked (nextOf s) (s.queues q).head (before ++ t :: after))
    (notBefore : t ∉ before) (enough : before.length < queueFuel) :
    (queueRemove s q t).queues = Function.update s.queues q
      { head := if before = [] then nextOf s t else (s.queues q).head
        tail := if (s.queues q).tail = some t then before.getLast?
          else (s.queues q).tail } := by
  have found : queueFind (fun cell => (s.tasks cell).waitNext) t queueFuel none
      (s.queues q).head = _ := queueFind_eq linked notBefore enough
  rw [queueRemove, found]
  cases position : before.getLast? with
  | none =>
      have empty : before = [] := List.getLast?_eq_none_iff.mp position
      by_cases atTail : (s.queues q).tail = some t <;>
        simp [Sched.modifyTask, Sched.setQueue, empty, nextOf, atTail]
  | some previous =>
      have nonempty : before ≠ [] := by
        intro empty
        simp [empty] at position
      by_cases atTail : (s.queues q).tail = some t <;>
        simp [Sched.modifyTask, Sched.setQueue, nonempty, atTail]

theorem queueRemove_stores {members : Members} (stores : Stores s members)
    (member : t ∈ members q) (bounded : (members q).length ≤ queueFuel) :
    Stores (queueRemove s q t)
      (Function.update members q ((members q).erase t)) := by
  rcases List.append_of_mem member with ⟨before, after, split⟩
  have linked := stores.linked q
  have unique := stores.nodup q
  have tailEq := stores.tail q
  rw [split] at linked unique tailEq bounded
  have parts := List.nodup_append.mp unique
  have notBefore : t ∉ before := fun inBefore =>
    parts.2.2 t inBefore t (by simp) rfl
  have notAfter : t ∉ after := (List.nodup_cons.mp parts.2.1).1
  have enough : before.length < queueFuel := by
    simp only [List.length_append, List.length_cons] at bounded
    omega
  have links := nextOf_queueRemove linked notBefore enough
  have queues := queues_queueRemove linked notBefore enough
  have erased : (members q).erase t = before ++ after := by
    rw [split, List.erase_append_right _ notBefore, List.erase_cons_head]
  rw [erased]
  refine stores.replace ?_ ?_ ?_ ?_ ?_
  · intro q' different cell inOther
    have notRemoved : cell ≠ t := by
      intro equal
      subst equal
      exact stores.not_mem_other member different inOther
    have notLast : before.getLast? ≠ some cell := by
      intro last
      have inBefore := List.mem_of_getLast? last
      exact stores.not_mem_other (q := q) (by simp [split, inBefore]) different
        inOther
    rw [links cell notRemoved, if_neg notLast]
  · intro q' different
    rw [queues, Function.update_of_ne different]
  · rw [queues, Function.update_self]
    rcases List.eq_nil_or_concat before with empty | ⟨front, previous, concat⟩
    · subst empty
      simp only [if_true, List.nil_append]
      refine Segment.congr linked.2 ?_
      intro cell inAfter
      have notRemoved : cell ≠ t := fun equal => notAfter (equal ▸ inAfter)
      rw [links cell notRemoved]
      simp
    · rw [List.concat_eq_append] at concat
      subst concat
      have nonempty : front ++ [previous] ≠ [] := by simp
      simp only [if_neg nonempty]
      simp only [List.append_assoc, List.singleton_append] at linked ⊢
      refine Linked.unlink linked ?_ ?_
      · intro cell inRest
        have notRemoved : cell ≠ t := by
          intro equal
          subst equal
          rcases List.mem_append.mp inRest with inFront | inAfter
          · exact notBefore (by simp [inFront])
          · exact notAfter inAfter
        have notPrevious : previous ≠ cell := by
          intro equal
          subst equal
          rcases List.mem_append.mp inRest with inFront | inAfter
          · exact (List.nodup_append.mp parts.1).2.2 previous inFront previous
              (by simp) rfl
          · exact parts.2.2 previous (by simp) previous (by simp [inAfter]) rfl
        rw [links cell notRemoved]
        simp [notPrevious]
      · have notRemoved : previous ≠ t := fun equal =>
          notBefore (by simp [equal])
        rw [links previous notRemoved]
        simp
  · rw [queues, Function.update_self]
    simp only [tailEq]
    cases after with
    | nil => simp
    | cons next others =>
        have notTail : (before ++ t :: next :: others).getLast? ≠ some t := by
          intro last
          have reached : (next :: others).getLast? = some t := by
            simpa using last
          exact notAfter (List.mem_of_getLast? reached)
        rw [if_neg notTail]
        simp
  · intro q' different cell inRest
    have inQueue : cell ∈ members q := by
      rw [split]
      rcases List.mem_append.mp inRest with inBefore | inAfter
      · simp [inBefore]
      · simp [inAfter]
    exact stores.not_mem_other inQueue different

end Katela.Scheduler
