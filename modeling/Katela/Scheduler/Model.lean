import Mathlib.Algebra.Ring.Nat
import Mathlib.Logic.Function.Basic

/-! # The scheduler

A model of `src/kernel/scheduler.c`. Pointers to tasks are `TaskRef`, a null
pointer is `none`, and the static variables of the file are the fields of
`Sched`. Every function runs with interrupts disabled, so it is one step up to
the point where it gives up the processor with `int $0x81`. -/

namespace Katela.Scheduler

def maxTasks : Nat := 16

def tickHz : Nat := 100

def msPerTick : Nat := 1000 / tickHz

def maxWaitTicks : Nat := 0x7FFFFFF0

/-- `WAIT_FOREVER`: the timeout that stands for no deadline. -/
def waitForever : Nat := 0xFFFFFFFF

/-- The values of an `unsigned int` repeat after this many. -/
def wordSize : Nat := 2 ^ 32

inductive WaitResult where
  | ok
  | timeout
  deriving DecidableEq, Repr

inductive TaskState where
  | unused
  | ready
  | running
  | blocked
  | terminated
  deriving DecidableEq, Repr

/-- A `struct task *` that is not null: an element of `tasks` or `idle_task`. -/
inductive TaskRef where
  | slot (index : Nat)
  | idle
  deriving DecidableEq, Repr

/-- A `struct wait_queue *` that is not null. Semaphores and mutexes embed the
queue of their waiters; the remaining queues are declared on their own. -/
inductive QueueRef where
  | events (index : Nat)
  | semaphore (index : Nat)
  | mutex (index : Nat)
  deriving DecidableEq, Repr

inductive Panic where
  | blockBeforeStart
  | idleBlock
  | countOverflow
  | recursiveLock
  | unlockByNonOwner
  deriving DecidableEq, Repr

def Panic.message : Panic → String
  | .blockBeforeStart => "scheduler: blocking call before scheduler_start"
  | .idleBlock => "scheduler: idle task must not block"
  | .countOverflow => "semaphore: count overflow"
  | .recursiveLock => "mutex: recursive lock"
  | .unlockByNonOwner => "mutex: unlock by non-owner"

/-- What the saved stack of a task still has to do when it is next given the
processor. `World` is the memory that the predicates of `wait_queue_wait_until`
read. -/
inductive Context (World : Type) where
  /-- Code of its own, outside every function of the scheduler. -/
  | code
  | sleeping
  | semWait (semaphore : Nat)
  | mutexLock (mutex : Nat)
  /-- Inside `wait_queue_wait_until`. `deadline` and `timed` are its local
  variables; `due` is the deadline on a clock that does not wrap. -/
  | waitUntil (queue : Nat) (ready : World → Bool) (timed : Bool)
      (deadline due : Nat)
  /-- Inside `task_exit`, marked terminated and about to switch. -/
  | exiting

structure Task (World : Type) where
  state : TaskState := .unused
  id : Nat := 0
  queue : Option QueueRef := none
  waitNext : Option TaskRef := none
  deadline : Nat := 0
  hasDeadline : Bool := false
  wakeResult : WaitResult := .ok
  /-- The stack that `esp` points to. -/
  context : Context World := .code

structure WaitQueue where
  head : Option TaskRef := none
  tail : Option TaskRef := none

/-- The two kinds of calls that take a mutex. -/
inductive LockCall where
  | lock
  | trylock
  deriving DecidableEq, Repr

/-- What an observer of the scheduler sees happen. -/
inductive Event (World : Type) where
  | enqueued (queue : QueueRef) (task : TaskRef)
  | woken (queue : QueueRef) (task : TaskRef)
  | timedOut (queue : QueueRef) (task : TaskRef)
  | wokeAll (queue : QueueRef)
  | lockReturned (call : LockCall) (mutex : Nat) (task : TaskRef)
      (result : WaitResult)
  | unlocked (mutex : Nat) (task : TaskRef)
  | semReturned (semaphore : Nat) (task : TaskRef) (result : WaitResult)
  | posted (semaphore : Nat)
  /-- A return of `wait_queue_wait_until` with the world and the time at that
  moment. -/
  | waitReturned (task : TaskRef) (ready : World → Bool) (timed : Bool)
      (due : Nat) (result : WaitResult) (world : World) (clock : Nat)

structure Sched (World : Type) where
  tasks : TaskRef → Task World
  current : TaskRef
  slotCount : Nat
  lastSlot : Nat
  nextId : Nat
  runningFlag : Bool
  ticks : Nat
  queues : QueueRef → WaitQueue
  /-- `count` of every semaphore. -/
  count : Nat → Nat
  /-- `owner` of every mutex. -/
  owner : Nat → Option TaskRef
  world : World
  /-- Timer ticks since boot; `ticks` is this number in 32 bits. -/
  clock : Nat
  /-- The events so far, the latest first. -/
  trace : List (Event World)

namespace Sched

variable {World : Type}

def modifyTask (s : Sched World) (task : TaskRef)
    (change : Task World → Task World) : Sched World :=
  { s with tasks := Function.update s.tasks task (change (s.tasks task)) }

def setQueue (s : Sched World) (queue : QueueRef) (value : WaitQueue) :
    Sched World :=
  { s with queues := Function.update s.queues queue value }

def emit (s : Sched World) (event : Event World) : Sched World :=
  { s with trace := event :: s.trace }

end Sched

/-! ## Time -/

def msToTicks (ms : Nat) : Nat :=
  let n := ms / msPerTick
  let n := if ms % msPerTick ≠ 0 then n + 1 else n
  if n > maxWaitTicks then maxWaitTicks else n

/-- The ticks that a wait of `ms` milliseconds lasts, counting the one that is
already running. -/
def waitTicks (ms : Nat) : Nat :=
  let n := msToTicks ms
  n + (if n ≠ 0 then 1 else 0)

def deadlineAfter (ticks ms : Nat) : Nat :=
  (ticks + waitTicks ms) % wordSize

/-- `(int)(now - deadline) >= 0`. -/
def timeReached (now deadline : Nat) : Bool :=
  (now + wordSize - deadline) % wordSize < 2 ^ 31

/-! ## Wait queues -/

section Queues

variable {World : Type}

def queuePush (s : Sched World) (q : QueueRef) (t : TaskRef) : Sched World :=
  let s := s.modifyTask t fun task => { task with waitNext := none }
  match (s.queues q).tail with
  | some last =>
      let s := s.modifyTask last fun task => { task with waitNext := some t }
      s.setQueue q { s.queues q with tail := some t }
  | none => s.setQueue q { head := some t, tail := some t }

def queuePop (s : Sched World) (q : QueueRef) : Option TaskRef × Sched World :=
  match (s.queues q).head with
  | none => (none, s)
  | some t =>
      let next := (s.tasks t).waitNext
      let s := s.setQueue q
        { head := next, tail := if next = none then none else (s.queues q).tail }
      (some t, s.modifyTask t fun task => { task with waitNext := none })

/-- The loop of `queue_remove`: the cell holding `t` and the one before it. -/
def queueFind (next : TaskRef → Option TaskRef) (t : TaskRef) :
    Nat → Option TaskRef → Option TaskRef → Option TaskRef × Option TaskRef
  | 0, prev, _ => (prev, none)
  | _ + 1, prev, none => (prev, none)
  | fuel + 1, prev, some it =>
      if it = t then (prev, some it)
      else queueFind next t fuel (some it) (next it)

/-- A queue holds every slot at most once, so no walk along it is longer. -/
def queueFuel : Nat := maxTasks + 1

def queueRemove (s : Sched World) (q : QueueRef) (t : TaskRef) : Sched World :=
  match queueFind (fun cell => (s.tasks cell).waitNext) t queueFuel none
      (s.queues q).head with
  | (_, none) => s
  | (prev, some it) =>
      let next := (s.tasks it).waitNext
      let s := match prev with
        | some before =>
            s.modifyTask before fun task => { task with waitNext := next }
        | none => s.setQueue q { s.queues q with head := next }
      let s :=
        if (s.queues q).tail = some it then
          s.setQueue q { s.queues q with tail := prev }
        else s
      s.modifyTask it fun task => { task with waitNext := none }

def makeReady (s : Sched World) (t : TaskRef) (result : WaitResult) :
    Sched World :=
  s.modifyTask t fun task =>
    { task with
      state := .ready
      queue := none
      waitNext := none
      hasDeadline := false
      wakeResult := result }

def wakeFirst (s : Sched World) (q : QueueRef) : Option TaskRef × Sched World :=
  match queuePop s q with
  | (none, s) => (none, s)
  | (some t, s) => (some t, (makeReady s t .ok).emit (.woken q t))

/-- One round of the loop of `wake_expired`. -/
def expireSlot (s : Sched World) (i : Nat) : Sched World :=
  let t := TaskRef.slot i
  if (s.tasks t).state ≠ .blocked ∨ (s.tasks t).hasDeadline = false then s
  else if timeReached s.ticks (s.tasks t).deadline = false then s
  else
    match (s.tasks t).queue with
    | some q => (makeReady (queueRemove s q t) t .timeout).emit (.timedOut q t)
    | none => makeReady s t .timeout

def wakeExpired (s : Sched World) : Sched World :=
  (List.range s.slotCount).foldl expireSlot s

end Queues

/-! ## Switching -/

section Switching

variable {World : Type}

/-- The search loop of `schedule`: the first ready slot after `probe`. -/
def nextReady (tasks : TaskRef → Task World) (slotCount : Nat) :
    Nat → Nat → Option Nat
  | 0, _ => none
  | rounds + 1, probe =>
      let probe := (probe + 1) % slotCount
      if (tasks (.slot probe)).state = .ready then some probe
      else nextReady tasks slotCount rounds probe

def schedule (s : Sched World) : Sched World :=
  let s :=
    if (s.tasks s.current).state = .running then
      s.modifyTask s.current fun task => { task with state := .ready }
    else s
  match nextReady s.tasks s.slotCount s.slotCount s.lastSlot with
  | some probe =>
      { s.modifyTask (.slot probe) (fun task => { task with state := .running })
        with current := .slot probe, lastSlot := probe }
  | none =>
      { s.modifyTask .idle (fun task => { task with state := .running })
        with current := .idle }

def schedulerSwitch (s : Sched World) : Sched World :=
  if s.runningFlag then schedule s else s

def schedulerTick (s : Sched World) : Sched World :=
  if s.runningFlag then
    schedule (wakeExpired
      { s with ticks := (s.ticks + 1) % wordSize, clock := s.clock + 1 })
  else s

/-- The part of `block_current` that puts the current task to sleep. -/
def markBlocked (s : Sched World) (q : Option QueueRef) (timed : Bool)
    (deadline : Nat) (context : Context World) : Sched World :=
  let t := s.current
  let s := match q with
    | some q => (queuePush s q t).emit (.enqueued q t)
    | none => s
  s.modifyTask t fun task =>
    { task with
      queue := q
      hasDeadline := timed
      deadline := deadline
      state := .blocked
      context := context }

/-- `block_current` up to its switch. `none` means that the caller is suspended
and returns its `wake_result` when it is resumed. -/
def blockCurrent (s : Sched World) (q : Option QueueRef) (timed : Bool)
    (deadline : Nat) (context : Context World) :
    Except Panic (Option WaitResult × Sched World) :=
  if s.runningFlag = false then .error .blockBeforeStart
  else if s.current = .idle then .error .idleBlock
  else if timed && timeReached s.ticks deadline then .ok (some .timeout, s)
  else .ok (none, schedulerSwitch (markBlocked s q timed deadline context))

end Switching

/-! ## Tasks -/

section Tasks

variable {World : Type}

/-- The state after `scheduler_init`. The static variables start out zero, and
every queue, semaphore and mutex has been initialised. -/
def schedulerInit (world : World) (count : Nat → Nat) : Sched World where
  tasks
    | .slot 0 => { state := .running, id := 1 }
    | .slot _ => {}
    | .idle => { state := .ready }
  current := .slot 0
  slotCount := 1
  lastSlot := 0
  nextId := 2
  runningFlag := false
  ticks := 0
  queues _ := {}
  count := count
  owner _ := none
  world := world
  clock := 0
  trace := []

def schedulerStart (s : Sched World) : Sched World :=
  { s with runningFlag := true }

/-- `task_create` with an entry point; the result is the slot, or `none` for
`-1`. -/
def taskCreate (s : Sched World) : Option Nat × Sched World :=
  if s.slotCount ≥ maxTasks then (none, s)
  else
    let slot := s.slotCount
    let s := s.modifyTask (.slot slot) fun task =>
      { task with
        state := .ready
        id := s.nextId
        queue := none
        waitNext := none
        hasDeadline := false
        wakeResult := .ok
        context := .code }
    (some slot,
      { s with nextId := (s.nextId + 1) % wordSize, slotCount := s.slotCount + 1 })

def taskYield (s : Sched World) : Sched World :=
  if s.runningFlag then schedulerSwitch s else s

def taskSleep (s : Sched World) (ms : Nat) : Except Panic (Sched World) :=
  if ms = 0 then .ok (taskYield s)
  else do
    let (_, s) ← blockCurrent s none true (deadlineAfter s.ticks ms) .sleeping
    return s

/-- `task_exit` up to its first switch: interrupts are still enabled here. -/
def taskExit (s : Sched World) : Sched World :=
  s.modifyTask s.current fun task =>
    { task with state := .terminated, context := .exiting }

end Tasks

/-! ## Waiting for a condition -/

section Conditions

variable {World : Type}

def waitReturn (s : Sched World) (ready : World → Bool) (timed : Bool)
    (due : Nat) (result : WaitResult) : Sched World :=
  (s.modifyTask s.current fun task => { task with context := .code }).emit
    (.waitReturned s.current ready timed due result s.world s.clock)

/-- What `wait_queue_wait_until` does with a timed out `block_current`. -/
def waitTimedOut (s : Sched World) (ready : World → Bool) (timed : Bool)
    (due : Nat) : Sched World :=
  waitReturn s ready timed due (if ready s.world then .ok else .timeout)

/-- One round of the loop of `wait_queue_wait_until`. -/
def waitRound (s : Sched World) (queue : Nat) (ready : World → Bool)
    (timed : Bool) (deadline due : Nat) : Except Panic (Sched World) :=
  if ready s.world then .ok (waitReturn s ready timed due .ok)
  else do
    let (returned, s) ← blockCurrent s (some (.events queue)) timed deadline
      (.waitUntil queue ready timed deadline due)
    match returned with
    | some .timeout => return waitTimedOut s ready timed due
    | some .ok => return s
    | none => return s

def waitQueueWaitUntil (s : Sched World) (queue : Nat) (ready : World → Bool)
    (timeoutMs : Nat) : Except Panic (Sched World) :=
  waitRound s queue ready (timeoutMs ≠ waitForever)
    (deadlineAfter s.ticks timeoutMs) (s.clock + waitTicks timeoutMs)

def waitQueueWakeOne (s : Sched World) (q : QueueRef) : Nat × Sched World :=
  match wakeFirst s q with
  | (some _, s) => (1, s)
  | (none, s) => (0, s)

/-- The loop of `wait_queue_wake_all`. -/
def wakeLoop (q : QueueRef) : Nat → Nat → Sched World → Nat × Sched World
  | 0, woken, s => (woken, s)
  | fuel + 1, woken, s =>
      match wakeFirst s q with
      | (some _, s) => wakeLoop q fuel (woken + 1) s
      | (none, s) => (woken, s)

def waitQueueWakeAll (s : Sched World) (q : QueueRef) : Nat × Sched World :=
  let (woken, s) := wakeLoop q queueFuel 0 s
  (woken, s.emit (.wokeAll q))

end Conditions

/-! ## Semaphores and mutexes -/

section Locks

variable {World : Type}

def semReturn (s : Sched World) (semaphore : Nat) (result : WaitResult) :
    Sched World :=
  (s.modifyTask s.current fun task => { task with context := .code }).emit
    (.semReturned semaphore s.current result)

def semWaitTimeout (s : Sched World) (semaphore timeoutMs : Nat) :
    Except Panic (Sched World) :=
  if s.count semaphore > 0 then
    let s := { s with
      count := Function.update s.count semaphore (s.count semaphore - 1) }
    .ok (semReturn s semaphore .ok)
  else do
    let (returned, s) ← blockCurrent s (some (.semaphore semaphore))
      (timeoutMs ≠ waitForever) (deadlineAfter s.ticks timeoutMs)
      (.semWait semaphore)
    match returned with
    | some result => return semReturn s semaphore result
    | none => return s

def semWait (s : Sched World) (semaphore : Nat) : Except Panic (Sched World) :=
  semWaitTimeout s semaphore waitForever

def semTrywait (s : Sched World) (semaphore : Nat) : Except Panic (Sched World) :=
  semWaitTimeout s semaphore 0

def semPost (s : Sched World) (semaphore : Nat) : Except Panic (Sched World) :=
  match wakeFirst s (.semaphore semaphore) with
  | (some _, s) => .ok (s.emit (.posted semaphore))
  | (none, s) =>
      if s.count semaphore = 0xFFFFFFFF then .error .countOverflow
      else
        let s := { s with
          count := Function.update s.count semaphore (s.count semaphore + 1) }
        .ok (s.emit (.posted semaphore))

def lockReturn (s : Sched World) (call : LockCall) (mutex : Nat)
    (result : WaitResult) : Sched World :=
  (s.modifyTask s.current fun task => { task with context := .code }).emit
    (.lockReturned call mutex s.current result)

def mutexLockTimeout (s : Sched World) (mutex timeoutMs : Nat) :
    Except Panic (Sched World) :=
  if s.owner mutex = some s.current then .error .recursiveLock
  else if s.owner mutex = none then
    let s := { s with owner := Function.update s.owner mutex (some s.current) }
    .ok (lockReturn s .lock mutex .ok)
  else do
    let (returned, s) ← blockCurrent s (some (.mutex mutex))
      (timeoutMs ≠ waitForever) (deadlineAfter s.ticks timeoutMs)
      (.mutexLock mutex)
    match returned with
    | some result => return lockReturn s .lock mutex result
    | none => return s

def mutexLock (s : Sched World) (mutex : Nat) : Except Panic (Sched World) :=
  mutexLockTimeout s mutex waitForever

def mutexTrylock (s : Sched World) (mutex : Nat) : Sched World :=
  if s.owner mutex = none then
    let s := { s with owner := Function.update s.owner mutex (some s.current) }
    lockReturn s .trylock mutex .ok
  else lockReturn s .trylock mutex .timeout

def mutexUnlock (s : Sched World) (mutex : Nat) : Except Panic (Sched World) :=
  if s.owner mutex ≠ some s.current then .error .unlockByNonOwner
  else
    -- The event comes before the hand-over, as the caller stops holding first.
    let (next, s) := wakeFirst (s.emit (.unlocked mutex s.current)) (.mutex mutex)
    .ok { s with owner := Function.update s.owner mutex next }

end Locks

/-! ## Runs -/

/-- The code after `int $0x81` in a call that blocked. -/
def resume {World : Type} (s : Sched World) : Except Panic (Sched World) :=
  let result := (s.tasks s.current).wakeResult
  match (s.tasks s.current).context with
  | .code => .ok s
  | .sleeping =>
      .ok (s.modifyTask s.current fun task => { task with context := .code })
  | .semWait semaphore => .ok (semReturn s semaphore result)
  | .mutexLock mutex => .ok (lockReturn s .lock mutex result)
  | .waitUntil queue ready timed deadline due =>
      match result with
      | .timeout => .ok (waitTimedOut s ready timed due)
      | .ok => waitRound s queue ready timed deadline due
  | .exiting => .ok (schedulerSwitch s)

/-- Everything that can happen next. -/
inductive Action (World : Type) where
  | schedulerStart
  | taskCreate
  | taskYield
  | taskSleep (ms : Nat)
  | taskExit
  | waitUntil (queue : Nat) (ready : World → Bool) (timeoutMs : Nat)
  | semWaitTimeout (semaphore timeoutMs : Nat)
  | mutexLockTimeout (mutex timeoutMs : Nat)
  | mutexTrylock (mutex : Nat)
  | mutexUnlock (mutex : Nat)
  /-- The current task goes on behind the switch it was suspended in. -/
  | resume
  | wakeOne (queue : Nat)
  | wakeAll (queue : Nat)
  | semPost (semaphore : Nat)
  /-- A task or an interrupt handler writes to memory. -/
  | setWorld (world : World)
  | tick

/-- The current task is in its own code, so that it can call a function. -/
def Context.InCode {World : Type} : Context World → Prop
  | .code => True
  | _ => False

/-- Interrupts are enabled in a task's own code and in `task_exit`; in every
other context the task continues with interrupts still disabled. -/
def Context.Interruptible {World : Type} : Context World → Prop
  | .code | .exiting => True
  | _ => False

/-- When an action can happen. The idle task calls no function itself, but
interrupt handlers run on top of it. -/
def Action.Enabled {World : Type} (s : Sched World) : Action World → Prop
  | .resume => ¬ (s.tasks s.current).context.InCode
  | .wakeOne _ | .wakeAll _ | .semPost _ | .setWorld _ | .tick =>
      (s.tasks s.current).context.Interruptible
  | .taskExit => (s.tasks s.current).context.InCode ∧ s.current ≠ .idle
  | _ => (s.tasks s.current).context.InCode

def Action.perform {World : Type} (s : Sched World) :
    Action World → Except Panic (Sched World)
  | .schedulerStart => .ok (Scheduler.schedulerStart s)
  | .taskCreate => .ok (Scheduler.taskCreate s).2
  | .taskYield => .ok (Scheduler.taskYield s)
  | .taskSleep ms => Scheduler.taskSleep s ms
  | .taskExit => .ok (Scheduler.taskExit s)
  | .waitUntil queue ready timeoutMs =>
      waitQueueWaitUntil s queue ready timeoutMs
  | .semWaitTimeout semaphore timeoutMs =>
      Scheduler.semWaitTimeout s semaphore timeoutMs
  | .mutexLockTimeout mutex timeoutMs =>
      Scheduler.mutexLockTimeout s mutex timeoutMs
  | .mutexTrylock mutex => .ok (Scheduler.mutexTrylock s mutex)
  | .mutexUnlock mutex => Scheduler.mutexUnlock s mutex
  | .resume => Scheduler.resume s
  | .wakeOne queue => .ok (waitQueueWakeOne s (.events queue)).2
  | .wakeAll queue => .ok (waitQueueWakeAll s (.events queue)).2
  | .semPost semaphore => Scheduler.semPost s semaphore
  | .setWorld world => .ok { s with world := world }
  | .tick => .ok (schedulerTick s)

/-- One step of a run in which no call panics. -/
def Step {World : Type} (s s' : Sched World) : Prop :=
  ∃ action : Action World, action.Enabled s ∧ action.perform s = .ok s'

/-- The states of the runs that start after `scheduler_init`. -/
inductive Reachable {World : Type} (count : Nat → Nat) : Sched World → Prop
  | init (world : World) : Reachable count (schedulerInit world count)
  | step {s s' : Sched World} :
      Reachable count s → Step s s' → Reachable count s'

end Katela.Scheduler
