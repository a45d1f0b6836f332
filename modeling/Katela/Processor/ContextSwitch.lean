import Katela.Processor.Frames
import Katela.Scheduler.Invariant

/-! # Switching between tasks

The entry code of `src/boot/interrupts.asm` together with `schedule` of
`src/kernel/scheduler.c`, which gives it the stack pointer of another task. The abstract
machine has registers and a stack for every task. -/

namespace Katela.Processor

open Katela.Scheduler

variable {World : Type}

/-! ## The tasks of the kernel -/

/-- The addresses of a stack. -/
structure Zone where
  bottom : Nat
  top : Nat

/-- The variables of the scheduler. The field `esp` of every task is apart from the others,
and `zone` is the memory behind its field `stack`, or the stack of `boot.asm`. -/
structure Os (World : Type) where
  sched : Sched World
  esp : TaskRef → UInt32
  zone : TaskRef → Zone

abbrev Kernel (World : Type) : Type := Machine (Os World)

namespace Os

variable (os : Os World)

def current : TaskRef := os.sched.current

def Live (t : TaskRef) : Prop := t.Allocated os.sched.slotCount

/-- `schedule`, called when the choice of the next task gives `after`: what it returns and
what it stores. -/
def scheduleEsp (after : Sched World) (oldEsp : UInt32) : UInt32 × Os World :=
  let esp := Function.update os.esp os.current oldEsp
  (esp after.current, { os with sched := after, esp := esp })

def schedulerTickEsp (oldEsp : UInt32) : UInt32 × Os World :=
  if os.sched.runningFlag then os.scheduleEsp (schedulerTick os.sched) oldEsp
  else (oldEsp, os)

def schedulerSwitchEsp (oldEsp : UInt32) : UInt32 × Os World :=
  if os.sched.runningFlag then os.scheduleEsp (schedulerSwitch os.sched) oldEsp
  else (oldEsp, os)

end Os

/-- The call of a function of the scheduler that takes and returns a stack pointer. In
memory it may change its argument and the part of the stack below. -/
structure EspCall (function : Os World → UInt32 → UInt32 × Os World) (m m' : Kernel World) :
    Prop where
  cdecl : Cdecl m m'
  ram : Ram.Same (fun place => place < (m.os.zone m.os.current).bottom ∨
    (m.get .esp).toNat + 4 ≤ place) m.ram m'.ram
  eax : m'.get .eax = (function m.os (m.top 0)).1
  os : m'.os = (function m.os (m.top 0)).2
  esp0 : m'.esp0 = m.esp0
  resumeEsp : m'.resumeEsp = m.resumeEsp

/-! ## Runs of the kernel -/

/-- The memory of another task's stack that it still needs. -/
def Machine.Parked (m : Kernel World) (place : Nat) : Prop :=
  ∃ t, t ≠ m.os.current ∧ m.os.Live t ∧ (m.os.esp t).toNat ≤ place ∧
    place < (m.os.zone t).top

/-- What an interrupt and the function that it calls take from a stack. -/
def reserve : Nat := 64

/-- The running code has not overrun its stack. -/
structure Machine.InZone (m : Kernel World) : Prop where
  room : (m.os.zone m.os.current).bottom + reserve ≤ m.floor
  inside : m.floor ≤ (m.os.zone m.os.current).top
  kernel : ring m.cpu.cs = 0 → m.cpu.ss = kernelDataSel

/-- Nothing of the other tasks changed. -/
structure Aside (m m' : Kernel World) : Prop where
  current : m'.os.current = m.os.current
  slotCount : m'.os.sched.slotCount = m.os.sched.slotCount
  esp : m'.os.esp = m.os.esp
  zone : m'.os.zone = m.os.zone
  ram : Ram.Same m.Parked m.ram m'.ram

/-- The running task executes code of its own. It keeps to its stack, and it sets the stack
of the task segment only while no other task is in ring 3. -/
structure Own (m m' : Kernel World) : Prop extends Aside m m' where
  inZone : m'.InZone
  segment : m'.esp0 = m.esp0 ∨ ∀ t, t ≠ m.os.current → m.os.Live t →
    ring (m.ram.load ((m.os.esp t).toNat + 4 * 9)) = 0

/-- `irq_dispatch`, with the handlers that it calls: they keep to the stack of the
interrupted task and do not switch. -/
structure DispatchCall (m m' : Kernel World) : Prop extends Aside m m' where
  cdecl : Cdecl m m'
  own : Ram.Same (fun place => (m.get .esp).toNat + 4 ≤ place ∧
    place < (m.os.zone m.os.current).top) m.ram m'.ram
  esp0 : m'.esp0 = m.esp0

def stackSize : Nat := 8192

/-- `build_stack`: the stack pointer and the memory. -/
def buildStack (ram : Ram) (base entry trampoline : UInt32) : UInt32 × Ram :=
  let sp := (base + UInt32.ofNat stackSize) &&& ~~~15
  let stack := Stack.pushAll ⟨sp, ram⟩
    [0x202, kernelCodeSel, trampoline, 0, 0, 0, 0, 0, 0, 0, entry]
  (stack.pointer, stack.ram)

/-- `task_create` with a slot that is free and a stack that `kmalloc` returned. -/
def createTask (m : Kernel World) (base entry trampoline : UInt32) : Kernel World :=
  let (esp, ram) := buildStack m.ram base entry trampoline
  let slot := TaskRef.slot m.os.sched.slotCount
  { m with
    ram := ram
    os :=
      { sched := (taskCreate m.os.sched).2
        esp := Function.update m.os.esp slot esp
        zone := Function.update m.os.zone slot ⟨base.toNat, base.toNat + stackSize⟩ } }

/-- A block of memory for a stack, apart from the stacks in use. -/
structure Fresh (m : Kernel World) (base : UInt32) : Prop where
  bounded : base.toNat + stackSize < 2 ^ 32
  apart : ∀ t, m.os.Live t → base.toNat + stackSize ≤ (m.os.zone t).bottom ∨
    (m.os.zone t).top ≤ base.toNat

/-- What the running task does not do by itself. -/
inductive SystemStep (m : Kernel World) : Kernel World → Prop
  /-- The timer interrupts. -/
  | tick {m' : Kernel World} (enabled : m.cpu.eflags &&& interruptFlag ≠ 0)
      (run : Executes (isrTimer (EspCall Os.schedulerTickEsp)) m.deliver m') :
      SystemStep m m'
  /-- The scheduler itself executes `int $0x81`. -/
  | yield {m' : Kernel World} (kernel : ring m.cpu.cs = 0)
      (run : Executes (isrYield (EspCall Os.schedulerSwitchEsp)) m.deliver m') :
      SystemStep m m'
  /-- A device interrupts. -/
  | irq {m' : Kernel World} (line : UInt32) (enabled : m.cpu.eflags &&& interruptFlag ≠ 0)
      (run : Executes (isrIrq line DispatchCall) m.deliver m') : SystemStep m m'
  | create (base entry trampoline : UInt32) (room : m.os.sched.slotCount < maxTasks)
      (fresh : Fresh m base) : SystemStep m (createTask m base entry trampoline)

/-- What the processor does next. -/
inductive KernelStep (m m' : Kernel World) : Prop
  | own (own : Own m m')
  | system (system : SystemStep m m')

/-- A step in which `t` does not compute. -/
inductive StepWithout (t : TaskRef) (m m' : Kernel World) : Prop
  | own (different : m.os.current ≠ t) (own : Own m m')
  | system (system : SystemStep m m')

/-- The state after `scheduler_init`, which is called on the stack of `boot.asm`. -/
def initScheduler (m : Kernel World) (world : World) (count : Nat → Nat) (boot : Zone)
    (base idleEntry trampoline : UInt32) : Kernel World :=
  let (esp, ram) := buildStack m.ram base idleEntry trampoline
  { m with
    ram := ram
    os :=
      { sched := schedulerInit world count
        esp
          | .idle => esp
          | .slot _ => 0
        zone
          | .idle => ⟨base.toNat, base.toNat + stackSize⟩
          | .slot _ => boot } }

/-- The kernel after `scheduler_init`. -/
inductive Started : Kernel World → Prop
  | init (m : Kernel World) (world : World) (count : Nat → Nat) (boot : Zone)
      (base idleEntry trampoline : UInt32) (bounded : base.toNat + stackSize < 2 ^ 32)
      (apart : base.toNat + stackSize ≤ boot.bottom ∨ boot.top ≤ base.toNat)
      (inZone : (initScheduler m world count boot base idleEntry trampoline).InZone) :
      Started (initScheduler m world count boot base idleEntry trampoline)

/-! ## A processor for every task -/

/-- Every task has registers of its own, and a stack that is in use from `floor` on. -/
structure Virtual (World : Type) where
  sched : Sched World
  cpu : TaskRef → Cpu
  floor : TaskRef → Nat
  stack : TaskRef → Ram
  zone : TaskRef → Zone

/-- A new task starts in `task_trampoline` and calls its entry point from there. -/
def newCpu (sp entry trampoline : UInt32) : Cpu where
  regs
    | .edi => entry
    | .esp => sp
    | _ => 0
  eip := trampoline
  cs := kernelCodeSel
  eflags := 0x202
  ss := kernelDataSel

/-- The registers and the stack of a task are the same. -/
structure SameTask (v v' : Virtual World) (t : TaskRef) : Prop where
  cpu : v'.cpu t = v.cpu t
  floor : v'.floor t = v.floor t
  stack : v'.stack t = v.stack t
  zone : v'.zone t = v.zone t

/-- The current task computes. -/
structure Computes (v v' : Virtual World) : Prop where
  current : v'.sched.current = v.sched.current
  slotCount : v'.sched.slotCount = v.sched.slotCount
  zone : v'.zone = v.zone
  others : ∀ t, t ≠ v.sched.current → SameTask v v' t

/-- The scheduler chooses another task, or a device writes to its data, or there is a new
task. None of it reaches the registers or the stack of a task that exists. -/
inductive Turn (v : Virtual World) : Virtual World → Prop
  | tick : Turn v { v with sched := schedulerTick v.sched }
  | yield : Turn v { v with sched := schedulerSwitch v.sched }
  | irq {sched : Sched World} (current : sched.current = v.sched.current)
      (slotCount : sched.slotCount = v.sched.slotCount) : Turn v { v with sched := sched }
  | create {v' : Virtual World} (sp entry trampoline : UInt32)
      (sched : v'.sched = (taskCreate v.sched).2)
      (cpu : v'.cpu (.slot v.sched.slotCount) = newCpu sp entry trampoline)
      (others : ∀ t, t ≠ .slot v.sched.slotCount → SameTask v v' t) : Turn v v'

def VirtualStep (v v' : Virtual World) : Prop := Computes v v' ∨ Turn v v'

/-- A task continues with its registers when the frame at `pointer` is taken. -/
structure HeldAt (pointer : UInt32) (m : Kernel World) (v : Virtual World) (t : TaskRef) :
    Prop where
  suspended : Suspended m.ram pointer (v.floor t) (v.cpu t)
  room : (m.os.zone t).bottom + reserve ≤ v.floor t
  inside : v.floor t ≤ (m.os.zone t).top
  stack : ∀ place, v.floor t ≤ place → place < (m.os.zone t).top →
    m.ram place = v.stack t place
  segment : ring (v.cpu t).cs ≠ 0 → m.esp0.toNat = v.floor t

/-- The processor has the registers of the current task, and memory those of the others. -/
structure Represents (m : Kernel World) (v : Virtual World) : Prop where
  sched : m.os.sched = v.sched
  zone : ∀ t, m.os.Live t → m.os.zone t = v.zone t
  live : m.os.Live m.os.current
  apart : ∀ t u, m.os.Live t → m.os.Live u → t ≠ u →
    (m.os.zone t).top ≤ (m.os.zone u).bottom ∨ (m.os.zone u).top ≤ (m.os.zone t).bottom
  slotCount_pos : 0 < m.os.sched.slotCount
  inZone : m.InZone
  cpu : m.cpu = v.cpu m.os.current
  floor : m.floor = v.floor m.os.current
  stack : ∀ place, m.floor ≤ place → place < (m.os.zone m.os.current).top →
    m.ram place = v.stack m.os.current place
  held : ∀ t, t ≠ m.os.current → m.os.Live t → HeldAt (m.os.esp t) m v t

end Katela.Processor
