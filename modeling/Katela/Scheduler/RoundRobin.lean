import Mathlib.Logic.Relation
import Katela.Scheduler.Step

/-! # The order of selection

`schedule` searches the slots in a circle, from the one it selected last. As long as a
task is ready and waits for its turn, the slots are selected in a fixed order that begins
after its slot and ends before it, so that none is selected twice. A new slot joins that
order at the wrap, and an idle period leaves the place in it as it is. -/

namespace Katela.Scheduler

variable {World : Type} {s s' : Sched World}

/-! ## The search -/

section Search

variable {tasks : TaskRef → Task World} {slotCount : Nat}

/-- A search that finds nothing has seen every slot. -/
theorem nextReady_none {rounds : Nat} : ∀ {start : Nat},
    nextReady tasks slotCount rounds start = none → ∀ round, 0 < round → round ≤ rounds →
      (tasks (.slot ((start + round) % slotCount))).state ≠ .ready := by
  induction rounds with
  | zero =>
      intro start _ round positive inside
      omega
  | succ rounds ih =>
      intro start noSlot round positive inside
      rw [nextReady] at noSlot
      split at noSlot
      · cases noSlot
      · rename_i notReady
        cases round with
        | zero => omega
        | succ round =>
            by_cases isFirst : round = 0
            · subst isFirst
              exact notReady
            · have later := ih noSlot round (by omega) (by omega)
              rw [Nat.mod_add_mod] at later
              rw [show start + (round + 1) = start + 1 + round by omega]
              exact later

/-- A search finds a slot as long as there is one that is ready. -/
theorem nextReady_ne_none {i start : Nat} (inside : i < slotCount)
    (isReady : (tasks (.slot i)).state = .ready) :
    nextReady tasks slotCount slotCount start ≠ none := by
  intro noSlot
  have less := Nat.mod_lt start (Nat.zero_lt_of_lt inside)
  by_cases isBefore : start % slotCount < i
  · apply nextReady_none noSlot (i - start % slotCount) (by omega) (by omega)
    rw [← Nat.mod_add_mod, show start % slotCount + (i - start % slotCount) = i by omega,
      Nat.mod_eq_of_lt inside]
    exact isReady
  · apply nextReady_none noSlot (i + slotCount - start % slotCount) (by omega) (by omega)
    rw [← Nat.mod_add_mod, show start % slotCount + (i + slotCount - start % slotCount) =
      i + slotCount by omega, Nat.add_mod_right, Nat.mod_eq_of_lt inside]
    exact isReady

/-- A search finds the first ready slot. -/
theorem nextReady_some {rounds found : Nat} : ∀ {start : Nat},
    nextReady tasks slotCount rounds start = some found →
      ∃ round, 0 < round ∧ round ≤ rounds ∧ found = (start + round) % slotCount ∧
        ∀ earlier, 0 < earlier → earlier < round →
          (tasks (.slot ((start + earlier) % slotCount))).state ≠ .ready := by
  induction rounds with
  | zero =>
      intro start isFound
      cases isFound
  | succ rounds ih =>
      intro start isFound
      rw [nextReady] at isFound
      split at isFound
      · injection isFound with same
        exact ⟨1, by omega, by omega, same.symm, by omega⟩
      · rename_i notReady
        rcases ih isFound with ⟨round, positive, inside, isSlot, before⟩
        rw [Nat.mod_add_mod] at isSlot
        refine ⟨round + 1, by omega, by omega, ?_, ?_⟩
        · rw [isSlot, show start + 1 + round = start + (round + 1) by omega]
        · intro earlier some less
          by_cases isFirst : earlier = 1
          · subst isFirst
            exact notReady
          · have later := before (earlier - 1) (by omega) (by omega)
            rw [Nat.mod_add_mod, show start + 1 + (earlier - 1) = start + earlier by omega]
              at later
            exact later

/-- The place of a slot in the order that begins after slot `i` and ends before it. -/
def rank (i slot : Nat) : Nat := if i < slot then slot else slot + maxTasks

/-- While slot `i` is ready, the search goes forward in that order or finds the slot. -/
theorem nextReady_rank {i start found : Nat} (bounded : slotCount ≤ maxTasks)
    (inside : i < slotCount) (startInside : start < slotCount) (different : start ≠ i)
    (isReady : (tasks (.slot i)).state = .ready)
    (isFound : nextReady tasks slotCount slotCount start = some found)
    (isOther : found ≠ i) : rank i start < rank i found := by
  rcases nextReady_some isFound with ⟨round, positive, _, isSlot, before⟩
  unfold rank
  by_cases isBefore : start < i
  · have notPassed : ¬ i - start < round := by
      intro passed
      apply before (i - start) (by omega) passed
      rw [show start + (i - start) = i by omega, Nat.mod_eq_of_lt inside]
      exact isReady
    have isSum : found = start + round := by
      rw [isSlot]
      exact Nat.mod_eq_of_lt (by omega)
    rw [if_neg (by omega), if_neg (by omega)]
    omega
  · have notPassed : ¬ i + slotCount - start < round := by
      intro passed
      apply before (i + slotCount - start) (by omega) passed
      rw [show start + (i + slotCount - start) = i + slotCount by omega,
        Nat.add_mod_right, Nat.mod_eq_of_lt inside]
      exact isReady
    rw [if_pos (by omega)]
    by_cases wraps : start + round < slotCount
    · have isSum : found = start + round := by
        rw [isSlot]
        exact Nat.mod_eq_of_lt wraps
      rw [if_pos (by omega)]
      omega
    · have isSum : found = start + round - slotCount := by
        rw [isSlot, Nat.mod_eq_sub_mod (by omega)]
        exact Nat.mod_eq_of_lt (by omega)
      rw [if_neg (by omega)]
      omega

end Search

/-! ## The switch -/

/-- The state in which `schedule` searches: the task that runs is ready again. -/
def demoted (s : Sched World) : Sched World :=
  if (s.tasks s.current).state = .running then
    s.modifyTask s.current fun task => { task with state := .ready }
  else s

theorem demoted_ready {t : TaskRef} (isReady : (s.tasks t).state = .ready) :
    ((demoted s).tasks t).state = .ready := by
  unfold demoted
  split
  · by_cases same : t = s.current
    · subst same
      simp [Sched.modifyTask]
    · simp [Sched.modifyTask, same, isReady]
  · exact isReady

theorem demoted_rest (s : Sched World) :
    (demoted s).slotCount = s.slotCount ∧ (demoted s).lastSlot = s.lastSlot := by
  unfold demoted
  split
  · exact ⟨rfl, rfl⟩
  · exact ⟨rfl, rfl⟩

/-- What `schedule` selects, and where it leaves its place. -/
theorem schedule_cases (s : Sched World) :
    (∃ found, nextReady (demoted s).tasks s.slotCount s.slotCount s.lastSlot = some found ∧
      (schedule s).current = .slot found ∧ (schedule s).lastSlot = found) ∨
    (nextReady (demoted s).tasks s.slotCount s.slotCount s.lastSlot = none ∧
      (schedule s).current = .idle ∧ (schedule s).lastSlot = s.lastSlot ∧
      ∀ k, ((schedule s).tasks (.slot k)).state = ((demoted s).tasks (.slot k)).state) := by
  rcases demoted_rest s with ⟨slots, last⟩
  unfold schedule
  dsimp only
  rw [← demoted, slots, last]
  cases isFound : nextReady (demoted s).tasks s.slotCount s.slotCount s.lastSlot with
  | some found => exact Or.inl ⟨found, rfl, rfl, rfl⟩
  | none =>
      refine Or.inr ⟨rfl, rfl, last, ?_⟩
      intro k
      simp [Sched.modifyTask]

/-! ## Which actions call `schedule` -/

/-- The state in which `block_current` gives up the processor, if it does. -/
def blockFrom (s : Sched World) (q : Option QueueRef) (timed : Bool) (deadline : Nat)
    (context : Context World) : Option (Sched World) :=
  if s.runningFlag = false then none
  else if s.current = .idle then none
  else if timed && timeReached s.ticks deadline then none
  else some (markBlocked s q timed deadline context)

/-- The state in which `scheduler_switch` calls `schedule`, if it does. -/
def switchFrom (s : Sched World) : Option (Sched World) :=
  if s.runningFlag then some s else none

def waitRoundFrom (s : Sched World) (queue : Nat) (ready : World → Bool) (timed : Bool)
    (deadline due : Nat) : Option (Sched World) :=
  if ready s.world then none
  else blockFrom s (some (.events queue)) timed deadline
    (.waitUntil queue ready timed deadline due)

def resumeFrom (s : Sched World) : Option (Sched World) :=
  match (s.tasks s.current).context with
  | .waitUntil queue ready timed deadline due =>
      if (s.tasks s.current).wakeResult = .timeout then none
      else waitRoundFrom s queue ready timed deadline due
  | .exiting => switchFrom s
  | _ => none

/-- The state in which an action calls `schedule`, if it does. -/
def Action.scheduleFrom (s : Sched World) : Action World → Option (Sched World)
  | .taskYield => switchFrom s
  | .taskSleep ms =>
      if ms = 0 then switchFrom s
      else blockFrom s none true (deadlineAfter s.ticks ms) .sleeping
  | .waitUntil queue ready timeoutMs =>
      waitRoundFrom s queue ready (timeoutMs ≠ waitForever)
        (deadlineAfter s.ticks timeoutMs) (s.clock + waitTicks timeoutMs)
  | .semWaitTimeout semaphore timeoutMs =>
      if s.count semaphore > 0 then none
      else blockFrom s (some (.semaphore semaphore)) (timeoutMs ≠ waitForever)
        (deadlineAfter s.ticks timeoutMs) (.semWait semaphore)
  | .mutexLockTimeout mutex timeoutMs =>
      if s.owner mutex = none then none
      else blockFrom s (some (.mutex mutex)) (timeoutMs ≠ waitForever)
        (deadlineAfter s.ticks timeoutMs) (.mutexLock mutex)
  | .resume => resumeFrom s
  | .tick => if s.runningFlag then some (wakeExpired (advance s)) else none
  | _ => none

/-- The state in which `schedule` is called, as seen from the one before the action. -/
structure Prepared (s middle : Sched World) : Prop where
  lastSlot : middle.lastSlot = s.lastSlot
  slotCount : middle.slotCount = s.slotCount
  ready : ∀ t, (s.tasks t).state = .ready → (middle.tasks t).state = .ready

/-- An action that does not call `schedule`. -/
structure Quiet (s s' : Sched World) : Prop where
  lastSlot : s'.lastSlot = s.lastSlot
  current : s'.current = s.current
  slotCount : s.slotCount ≤ s'.slotCount

/-- The outcome of an action, and the state in which it calls `schedule`. -/
def Outcome (s : Sched World) (middle : Option (Sched World)) (s' : Sched World) : Prop :=
  (middle = none ∧ Quiet s s') ∨
    ∃ before, middle = some before ∧ Prepared s before ∧ s' = schedule before

theorem Quiet.refl (s : Sched World) : Quiet s s := ⟨rfl, rfl, Nat.le_refl _⟩

theorem Quiet.woke {t : TaskRef} {result : WaitResult} (woke : Woke s s' t result) :
    Quiet s s' :=
  ⟨(congrArg Sched.lastSlot woke.rest :), woke.current, Nat.le_of_eq woke.slotCount.symm⟩

theorem switchFrom_outcome (s : Sched World) :
    Outcome s (switchFrom s) (schedulerSwitch s) := by
  unfold switchFrom schedulerSwitch
  split
  · exact Or.inr ⟨s, rfl, ⟨rfl, rfl, fun _ isReady => isReady⟩, rfl⟩
  · exact Or.inl ⟨rfl, .refl s⟩

section Blocking

variable {queue : Option QueueRef} {timed : Bool} {deadline : Nat}
variable {context : Context World} {returned : Option WaitResult}

theorem markBlocked_prepared (notReady : (s.tasks s.current).state ≠ .ready) :
    Prepared s (markBlocked s queue timed deadline context) where
  lastSlot :=
    (congrArg Sched.lastSlot (markBlocked_blocked s queue timed deadline context).rest :)
  slotCount := (markBlocked_blocked s queue timed deadline context).slotCount
  ready t isReady := by
    rw [(markBlocked_blocked s queue timed deadline context).state_other ?_]
    · exact isReady
    · rintro rfl
      exact notReady isReady

/-- `block_current` returns at once or calls `schedule`. -/
theorem blockCurrent_outcome (notReady : (s.tasks s.current).state ≠ .ready)
    (done : blockCurrent s queue timed deadline context = .ok (returned, s')) :
    (returned ≠ none ∧ s' = s ∧ blockFrom s queue timed deadline context = none) ∨
    (returned = none ∧ Outcome s (blockFrom s queue timed deadline context) s') := by
  unfold blockCurrent at done
  unfold blockFrom
  split at done
  · cases done
  rename_i started
  split at done
  · cases done
  rename_i notIdle
  rw [if_neg started, if_neg notIdle]
  split at done
  · rename_i expired
    injection done with pair
    injection pair with first second
    exact Or.inl ⟨by simp [← first], second.symm, if_pos expired⟩
  · rename_i early
    have flag : (markBlocked s queue timed deadline context).runningFlag = true := by
      have same := (markBlocked_blocked s queue timed deadline context).rest
      rw [(congrArg Sched.runningFlag same :)]
      simpa using started
    injection done with pair
    injection pair with first second
    refine Or.inr ⟨first.symm, Or.inr ⟨_, if_neg early, markBlocked_prepared notReady, ?_⟩⟩
    rw [← second, schedulerSwitch, if_pos flag]

/-- A call that does nothing after `block_current` but return its result. -/
theorem blockCall_outcome
    {next : Option WaitResult × Sched World → Except Panic (Sched World)}
    (notReady : (s.tasks s.current).state ≠ .ready)
    (done : (blockCurrent s queue timed deadline context >>= next) = .ok s')
    (suspended : ∀ middle, next (none, middle) = .ok middle)
    (returns : ∀ result middle after, next (some result, middle) = .ok after →
      Quiet middle after) :
    Outcome s (blockFrom s queue timed deadline context) s' := by
  rcases ok_of_bind done with ⟨⟨returned, middle⟩, blocking, finished⟩
  rcases blockCurrent_outcome notReady blocking with
    ⟨isBack, rfl, noSwitch⟩ | ⟨rfl, outcome⟩
  · rcases Option.ne_none_iff_exists'.mp isBack with ⟨result, rfl⟩
    exact Or.inl ⟨noSwitch, returns result _ _ finished⟩
  · rw [suspended] at finished
    injection finished with same
    rw [← same]
    exact outcome

end Blocking

section Calls

/-- The end of a call only puts its task back into its own code. -/
theorem Quiet.return (s : Sched World) (event : Event World) : Quiet s
    ((s.modifyTask s.current fun task => { task with context := .code }).emit event) :=
  ⟨rfl, rfl, Nat.le_refl _⟩

theorem waitRound_outcome {queue : Nat} {ready : World → Bool} {timed : Bool}
    {deadline due : Nat} (notReady : (s.tasks s.current).state ≠ .ready)
    (done : waitRound s queue ready timed deadline due = .ok s') :
    Outcome s (waitRoundFrom s queue ready timed deadline due) s' := by
  unfold waitRound at done
  unfold waitRoundFrom
  split at done
  · rename_i holds
    injection done with same
    rw [← same, if_pos holds]
    exact Or.inl ⟨rfl, .return s _⟩
  · rename_i holdsNot
    rw [if_neg holdsNot]
    refine blockCall_outcome notReady done (fun _ => rfl) ?_
    intro result middle after finished
    cases result with
    | timeout =>
        injection finished with same
        rw [← same]
        exact .return middle _
    | ok =>
        injection finished with same
        rw [← same]
        exact .refl middle

theorem taskYield_outcome (s : Sched World) : Outcome s (switchFrom s) (taskYield s) := by
  unfold taskYield
  split
  · exact switchFrom_outcome s
  · rename_i notStarted
    exact Or.inl ⟨if_neg notStarted, .refl s⟩

theorem taskSleep_outcome {ms : Nat} (notReady : (s.tasks s.current).state ≠ .ready)
    (done : taskSleep s ms = .ok s') :
    Outcome s (Action.scheduleFrom s (.taskSleep ms)) s' := by
  unfold taskSleep at done
  simp only [Action.scheduleFrom]
  split at done
  · rename_i isZero
    injection done with same
    rw [← same, if_pos isZero]
    exact taskYield_outcome s
  · rename_i some
    rw [if_neg some]
    refine blockCall_outcome notReady done (fun _ => rfl) ?_
    intro result middle after finished
    injection finished with same
    rw [← same]
    exact .refl middle

theorem semWaitTimeout_outcome {semaphore timeoutMs : Nat}
    (notReady : (s.tasks s.current).state ≠ .ready)
    (done : semWaitTimeout s semaphore timeoutMs = .ok s') :
    Outcome s (Action.scheduleFrom s (.semWaitTimeout semaphore timeoutMs)) s' := by
  unfold semWaitTimeout at done
  simp only [Action.scheduleFrom]
  split at done
  · rename_i positive
    injection done with same
    rw [← same, if_pos positive]
    exact Or.inl ⟨rfl, rfl, rfl, Nat.le_refl _⟩
  · rename_i empty
    rw [if_neg empty]
    refine blockCall_outcome notReady done (fun _ => rfl) ?_
    intro result middle after finished
    injection finished with same
    rw [← same]
    exact .return middle _

theorem mutexLockTimeout_outcome {mutex timeoutMs : Nat}
    (notReady : (s.tasks s.current).state ≠ .ready)
    (done : mutexLockTimeout s mutex timeoutMs = .ok s') :
    Outcome s (Action.scheduleFrom s (.mutexLockTimeout mutex timeoutMs)) s' := by
  unfold mutexLockTimeout at done
  simp only [Action.scheduleFrom]
  split at done
  · cases done
  split at done
  · rename_i free
    injection done with same
    rw [← same, if_pos free]
    exact Or.inl ⟨rfl, rfl, rfl, Nat.le_refl _⟩
  · rename_i taken
    rw [if_neg taken]
    refine blockCall_outcome notReady done (fun _ => rfl) ?_
    intro result middle after finished
    injection finished with same
    rw [← same]
    exact .return middle _

theorem resume_outcome (notReady : (s.tasks s.current).state ≠ .ready)
    (done : resume s = .ok s') : Outcome s (resumeFrom s) s' := by
  unfold resume at done
  unfold resumeFrom
  cases context : (s.tasks s.current).context with
  | code =>
      rw [context] at done
      injection done with same
      rw [← same]
      exact Or.inl ⟨rfl, .refl s⟩
  | sleeping =>
      rw [context] at done
      injection done with same
      rw [← same]
      exact Or.inl ⟨rfl, rfl, rfl, Nat.le_refl _⟩
  | semWait semaphore =>
      rw [context] at done
      injection done with same
      rw [← same]
      exact Or.inl ⟨rfl, .return s _⟩
  | mutexLock mutex =>
      rw [context] at done
      injection done with same
      rw [← same]
      exact Or.inl ⟨rfl, .return s _⟩
  | waitUntil queue ready timed deadline due =>
      rw [context] at done
      dsimp only at done ⊢
      cases result : (s.tasks s.current).wakeResult with
      | ok =>
          rw [result] at done
          rw [if_neg (by simp)]
          exact waitRound_outcome notReady done
      | timeout =>
          rw [result] at done
          injection done with same
          rw [← same, if_pos rfl]
          exact Or.inl ⟨rfl, .return s _⟩
  | exiting =>
      rw [context] at done
      injection done with same
      rw [← same]
      exact switchFrom_outcome s

/-- A wake-up leaves the place of the search as it is. -/
theorem Valid.wakeFirst_quiet (valid : Valid s) (q : QueueRef) :
    Quiet s (wakeFirst s q).2 := by
  rcases valid.wakeFirst_cases q with ⟨_, nobody⟩ | ⟨t, after, woken, handed⟩
  · rw [nobody]
    exact .refl s
  · rw [woken]
    exact .woke handed.woke

theorem Quiet.congr {after : Sched World} (quiet : Quiet s s')
    (lastSlot : after.lastSlot = s'.lastSlot) (current : after.current = s'.current)
    (slotCount : after.slotCount = s'.slotCount) : Quiet s after where
  lastSlot := lastSlot.trans quiet.lastSlot
  current := current.trans quiet.current
  slotCount := slotCount ▸ quiet.slotCount

theorem Valid.semPost_quiet {semaphore : Nat} (valid : Valid s)
    (done : semPost s semaphore = .ok s') : Quiet s s' := by
  have quiet := valid.wakeFirst_quiet (.semaphore semaphore)
  unfold semPost at done
  split at done
  · rename_i woken
    rw [woken] at quiet
    injection done with same
    rw [← same]
    exact quiet.congr rfl rfl rfl
  · rename_i nobody
    rw [nobody] at quiet
    split at done
    · cases done
    · injection done with same
      rw [← same]
      exact quiet.congr rfl rfl rfl

theorem Valid.mutexUnlock_quiet {mutex : Nat} (valid : Valid s)
    (done : mutexUnlock s mutex = .ok s') : Quiet s s' := by
  unfold mutexUnlock at done
  split at done
  · cases done
  have unlocked : Valid (s.emit (.unlocked mutex s.current)) := valid.emit trivial
  have quiet := unlocked.wakeFirst_quiet (.mutex mutex)
  injection done with same
  rw [← same]
  exact ⟨quiet.lastSlot, quiet.current, quiet.slotCount⟩

theorem Valid.wakeAll_quiet (valid : Valid s) (queue : Nat) :
    Quiet s (waitQueueWakeAll s (.events queue)).2 := by
  rcases valid.wakeAll_spec (Quiet s) (.refl s) (.events queue)
    (fun middle after t _ holds handed => by
      have woken := Quiet.woke handed.woke
      exact ⟨woken.lastSlot.trans holds.lastSlot, woken.current.trans holds.current,
        Nat.le_trans holds.slotCount woken.slotCount⟩) with
    ⟨drained, _, holds, _, equal⟩
  rw [equal]
  exact holds.congr rfl rfl rfl

end Calls

theorem Valid.tick_prepared (valid : Valid s) :
    Prepared s (wakeExpired (advance s)) := by
  rcases @wakeExpired_induction _ (advance s) _ (fun after _ => Prepared s after)
    valid.toConsistent.advance
    ⟨rfl, rfl, fun _ isReady => isReady⟩
    (fun middle after members i _ holds expired => by
      refine ⟨?_, expired.woke.slotCount.trans holds.slotCount, ?_⟩
      · exact (congrArg Sched.lastSlot expired.woke.rest :).trans holds.lastSlot
      · intro t isReady
        by_cases same : t = .slot i
        · subst same
          exact expired.woke.state_self
        · rw [expired.woke.state_other same]
          exact holds.ready t isReady) with
    ⟨lists, _, prepared⟩
  exact prepared

theorem Valid.current_not_ready (valid : Valid s) : (s.tasks s.current).state ≠ .ready := by
  intro isReady
  rcases valid.runs with running | exiting
  · rw [running] at isReady
    cases isReady
  · rw [valid.exits _ exiting] at isReady
    cases isReady

/-- Every action calls `schedule` in the state that is said, or not at all. -/
theorem Valid.perform_outcome {action : Action World} (valid : Valid s)
    (done : action.perform s = .ok s') : Outcome s (action.scheduleFrom s) s' := by
  have notReady := valid.current_not_ready
  cases action with
  | taskYield =>
      injection done with same
      rw [← same]
      exact taskYield_outcome s
  | taskSleep ms => exact taskSleep_outcome notReady done
  | waitUntil queue ready timeoutMs => exact waitRound_outcome notReady done
  | semWaitTimeout semaphore timeoutMs => exact semWaitTimeout_outcome notReady done
  | mutexLockTimeout mutex timeoutMs => exact mutexLockTimeout_outcome notReady done
  | resume => exact resume_outcome notReady done
  | tick =>
      injection done with same
      rw [← same]
      by_cases flag : s.runningFlag = true
      · refine Or.inr ⟨_, if_pos flag, valid.tick_prepared, ?_⟩
        exact if_pos flag
      · refine Or.inl ⟨if_neg flag, ?_⟩
        rw [schedulerTick, if_neg flag]
        exact .refl s
  | taskCreate =>
      injection done with same
      rw [← same]
      refine Or.inl ⟨rfl, ?_⟩
      unfold taskCreate
      split
      · exact .refl s
      · exact ⟨rfl, rfl, Nat.le_succ _⟩
  | mutexTrylock mutex =>
      injection done with same
      rw [← same]
      refine Or.inl ⟨rfl, ?_⟩
      unfold mutexTrylock
      split
      · exact ⟨rfl, rfl, Nat.le_refl _⟩
      · exact .return s _
  | mutexUnlock mutex => exact Or.inl ⟨rfl, valid.mutexUnlock_quiet done⟩
  | semPost semaphore => exact Or.inl ⟨rfl, valid.semPost_quiet done⟩
  | wakeOne queue =>
      injection done with same
      rw [← same]
      have quiet := valid.wakeFirst_quiet (.events queue)
      refine Or.inl ⟨rfl, ?_⟩
      unfold waitQueueWakeOne
      split
      · rename_i woken
        rw [woken] at quiet
        exact quiet
      · rename_i nobody
        rw [nobody] at quiet
        exact quiet
  | wakeAll queue =>
      injection done with same
      rw [← same]
      exact Or.inl ⟨rfl, valid.wakeAll_quiet queue⟩
  | schedulerStart =>
      injection done with same
      rw [← same]
      exact Or.inl ⟨rfl, rfl, rfl, Nat.le_refl _⟩
  | taskExit =>
      injection done with same
      rw [← same]
      exact Or.inl ⟨rfl, rfl, rfl, Nat.le_refl _⟩
  | setWorld world =>
      injection done with same
      rw [← same]
      exact Or.inl ⟨rfl, rfl, rfl, Nat.le_refl _⟩

/-! ## Runs -/

/-- A step in which `schedule` selects a task. -/
def Selects (s s' : Sched World) (t : TaskRef) : Prop :=
  ∃ action : Action World, action.Enabled s ∧ action.perform s = .ok s' ∧
    action.scheduleFrom s ≠ none ∧ s'.current = t

/-- The runs in which the task of a slot is ready after every step. A task that is
selected runs, so it is not selected in them. -/
def StaysReady (i : Nat) : Sched World → Sched World → Prop :=
  Relation.ReflTransGen fun s s' => Step s s' ∧ (s'.tasks (.slot i)).state = .ready

/-- The search has come to slot `j` or past it, on its way to slot `i`. -/
structure Passed (s : Sched World) (i j : Nat) : Prop where
  inside : s.lastSlot < s.slotCount
  notReached : s.lastSlot ≠ i
  past : rank i j ≤ rank i s.lastSlot

theorem Selects.schedule {t : TaskRef} (selects : Selects s s' t) (valid : Valid s) :
    ∃ before, Prepared s before ∧ s' = Scheduler.schedule before ∧ s'.current = t := by
  rcases selects with ⟨action, _, done, switches, isSelected⟩
  rcases valid.perform_outcome done with ⟨none, _⟩ | ⟨before, _, prepared, isAfter⟩
  · exact absurd none switches
  · exact ⟨before, prepared, isAfter, isSelected⟩

theorem Selects.step {t : TaskRef} (selects : Selects s s' t) : Step s s' := by
  rcases selects with ⟨action, enabled, done, _⟩
  exact ⟨action, enabled, done⟩

theorem Valid.ready_inside {i : Nat} (valid : Valid s)
    (isReady : (s.tasks (.slot i)).state = .ready) : i < s.slotCount :=
  valid.allocated (.slot i) (by simp [isReady])

theorem Prepared.switched {before : Sched World} (prepared : Prepared s before)
    (valid : Valid s) : Switched before (schedule before) := by
  apply schedule_switched
  rw [prepared.slotCount]
  exact valid.slotCount_pos

/-- While a task is ready, `schedule` selects a slot further on the way to it. -/
theorem Prepared.selects {before : Sched World} {i j : Nat} (prepared : Prepared s before)
    (valid : Valid s) (isReady : (s.tasks (.slot i)).state = .ready)
    (passed : Passed s i j) :
    ∃ found, (schedule before).current = .slot found ∧
      (found ≠ i → Passed (schedule before) i j ∧ rank i j < rank i found) := by
  have inside := valid.ready_inside isReady
  have searched := demoted_ready (prepared.ready _ isReady)
  have slots := (prepared.switched valid).slotCount
  rcases schedule_cases before with ⟨found, isFound, current, last⟩ | ⟨noSlot, _⟩
  · refine ⟨found, current, ?_⟩
    intro isOther
    rw [prepared.slotCount, prepared.lastSlot] at isFound
    have further := nextReady_rank valid.slotCount_le inside passed.inside
      passed.notReached searched isFound isOther
    have foundInside := (nextReady_spec valid.slotCount_pos isFound).1
    have past := passed.past
    refine ⟨⟨?_, ?_, ?_⟩, by omega⟩
    · rw [last, slots, prepared.slotCount]
      exact foundInside
    · rw [last]
      exact isOther
    · rw [last]
      omega
  · rw [prepared.slotCount, prepared.lastSlot] at noSlot
    exact absurd noSlot (nextReady_ne_none inside searched)

/-- A step after which the task is still ready. -/
theorem Passed.step {i j : Nat} (before : Passed s i j) (valid : Valid s)
    (isReady : (s.tasks (.slot i)).state = .ready) (step : Step s s')
    (stillReady : (s'.tasks (.slot i)).state = .ready) : Passed s' i j := by
  rcases step with ⟨action, _, done⟩
  rcases valid.perform_outcome done with ⟨_, quiet⟩ | ⟨middle, _, prepared, rfl⟩
  · have inside := before.inside
    have more := quiet.slotCount
    refine ⟨?_, ?_, ?_⟩
    · rw [quiet.lastSlot]
      omega
    · rw [quiet.lastSlot]
      exact before.notReached
    · rw [quiet.lastSlot]
      exact before.past
  · rcases prepared.selects valid isReady before with ⟨found, isCurrent, further⟩
    by_cases same : found = i
    · have running := (prepared.switched valid).current
      rw [isCurrent, same, stillReady] at running
      cases running
    · exact (further same).1

/-- The way to the task of a slot while it stays ready. -/
theorem Passed.run {start last : Sched World} {i j : Nat} (before : Passed start i j)
    (valid : Valid start) (isReady : (start.tasks (.slot i)).state = .ready)
    (run : StaysReady i start last) :
    Valid last ∧ (last.tasks (.slot i)).state = .ready ∧ Passed last i j := by
  induction run with
  | refl => exact ⟨valid, isReady, before⟩
  | tail _ next ih =>
      rcases ih with ⟨validThere, readyThere, passed⟩
      exact ⟨(validThere.step_change next.1).valid validThere, next.2,
        passed.step validThere readyThere next.1 next.2⟩

/-- The idle task is selected only when no slot is ready. No task is selected twice while
another one is ready all the time, from the first selection on, and is not selected. -/
theorem roundRobin_passes_over_none {count : Nat → Nat} {s : Sched World}
    (reachable : Reachable count s) :
    (∀ s', Selects s s' .idle → ∀ k, (s'.tasks (.slot k)).state ≠ .ready) ∧
    ∀ i j first last second, i ≠ j → Selects s first (.slot j) →
      (first.tasks (.slot i)).state = .ready → StaysReady i first last →
      ¬ Selects last second (.slot j) := by
  have valid := reachable.valid
  constructor
  · intro s' selects k isReady
    rcases selects.schedule valid with ⟨before, prepared, rfl, isIdle⟩
    have validAfter := (valid.step_change selects.step).valid valid
    have inside := validAfter.ready_inside isReady
    rw [(prepared.switched valid).slotCount] at inside
    rcases schedule_cases before with ⟨found, _, current, _⟩ | ⟨noSlot, _, _, states⟩
    · rw [isIdle] at current
      cases current
    · rw [states] at isReady
      exact nextReady_ne_none inside isReady noSlot
  · intro i j first last second different selectsFirst isReady run selectsSecond
    rcases selectsFirst.schedule valid with ⟨before, prepared, rfl, isFirst⟩
    have validFirst := (valid.step_change selectsFirst.step).valid valid
    have passed : Passed (schedule before) i j := by
      rcases schedule_cases before with ⟨found, isFound, current, place⟩ | ⟨_, current, _⟩
      · rw [isFirst] at current
        injection current with same
        rw [← same] at isFound place
        rw [prepared.slotCount] at isFound
        have inside := (nextReady_spec valid.slotCount_pos isFound).1
        refine ⟨?_, ?_, ?_⟩
        · rw [place, (prepared.switched valid).slotCount, prepared.slotCount]
          exact inside
        · rw [place]
          exact different.symm
        · rw [place]
      · rw [isFirst] at current
        cases current
    rcases passed.run validFirst isReady run with ⟨validLast, readyLast, passedLast⟩
    rcases selectsSecond.schedule validLast with ⟨middle, preparedLast, rfl, isSecond⟩
    rcases preparedLast.selects validLast readyLast passedLast with
      ⟨found, current, further⟩
    rw [isSecond] at current
    injection current with same
    subst same
    exact Nat.lt_irrefl _ (further different.symm).2

/-- The main task has started and has created two more. -/
def threeTasks : Sched Unit :=
  (taskCreate (taskCreate (schedulerStart (schedulerInit () fun _ => 0))).2).2

theorem threeTasks_reachable : Reachable (fun _ => 0) threeTasks := by
  have started : Reachable (fun _ => 0) (schedulerStart (schedulerInit () _)) :=
    .step (.init ()) ⟨.schedulerStart, trivial, rfl⟩
  exact .step (.step started ⟨.taskCreate, trivial, rfl⟩) ⟨.taskCreate, trivial, rfl⟩

/-- Of three tasks, the second one runs after the first and cannot run again before the
third. -/
theorem third_task_before_second :
    Selects threeTasks (taskYield threeTasks) (.slot 1) ∧
      ((taskYield threeTasks).tasks (.slot 2)).state = .ready ∧
      ∀ second, ¬ Selects (taskYield threeTasks) second (.slot 1) := by
  have isFrom : Action.scheduleFrom threeTasks .taskYield = some threeTasks := rfl
  have isSecond : (taskYield threeTasks).current = .slot 1 := by decide +kernel
  have isReady : ((taskYield threeTasks).tasks (.slot 2)).state = .ready := by
    decide +kernel
  have selects : Selects threeTasks (taskYield threeTasks) (.slot 1) :=
    ⟨.taskYield, trivial, rfl, by simp [isFrom], isSecond⟩
  exact ⟨selects, isReady, fun second =>
    (roundRobin_passes_over_none threeTasks_reachable).2 2 1 _ _ second (by decide) selects
      isReady .refl⟩

end Katela.Scheduler
