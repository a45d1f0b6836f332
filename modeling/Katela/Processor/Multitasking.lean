import Katela.Foundation.Words
import Katela.Processor.ContextSwitch

/-! # Tasks keep their registers

One processor and one memory, with the entry code and the scheduler, behave like a machine
with a processor for every task. -/

namespace Katela.Processor

open Katela.Scheduler

variable {World : Type} {m m' : Kernel World} {v v' : Virtual World} {t : TaskRef}

/-! ## What the choice of the scheduler needs -/

theorem queueRemove_frame (s : Sched World) (q : QueueRef) (t : TaskRef) :
    (queueRemove s q t).slotCount = s.slotCount ∧ (queueRemove s q t).current = s.current := by
  have rest := (queueRemove_linksOnly s q t).rest
  exact ⟨(congrArg Sched.slotCount rest :), (congrArg Sched.current rest :)⟩

theorem expireSlot_frame (s : Sched World) (i : Nat) :
    (expireSlot s i).slotCount = s.slotCount ∧ (expireSlot s i).current = s.current := by
  unfold expireSlot
  dsimp only
  split
  · exact ⟨rfl, rfl⟩
  · split
    · exact ⟨rfl, rfl⟩
    · split
      · exact queueRemove_frame s _ _
      · exact ⟨rfl, rfl⟩

theorem wakeExpired_frame (s : Sched World) :
    (wakeExpired s).slotCount = s.slotCount ∧ (wakeExpired s).current = s.current := by
  unfold wakeExpired
  generalize List.range s.slotCount = slots
  induction slots generalizing s with
  | nil => exact ⟨rfl, rfl⟩
  | cons i rest ih =>
      rcases expireSlot_frame s i with ⟨slotCount, current⟩
      rw [List.foldl_cons, (ih _).1, (ih _).2]
      exact ⟨slotCount, current⟩

/-- The next task exists. -/
structure Chooses (s after : Sched World) : Prop where
  slotCount : after.slotCount = s.slotCount
  live : after.current.Allocated s.slotCount

theorem schedulerSwitch_chooses (s : Sched World) (positive : 0 < s.slotCount)
    (live : s.current.Allocated s.slotCount) : Chooses s (schedulerSwitch s) := by
  unfold schedulerSwitch
  split
  · have switched := schedule_switched positive
    exact ⟨switched.slotCount, switched.allocated⟩
  · exact ⟨rfl, live⟩

theorem schedulerTick_chooses (s : Sched World) (positive : 0 < s.slotCount)
    (live : s.current.Allocated s.slotCount) : Chooses s (schedulerTick s) := by
  unfold schedulerTick
  split
  · generalize isLater : { s with ticks := _, clock := _ } = later
    rcases wakeExpired_frame later with ⟨slotCount, _⟩
    have same : (wakeExpired later).slotCount = s.slotCount := by
      rw [slotCount, ← isLater]
    have switched := schedule_switched (s := wakeExpired later) (by rw [same]; exact positive)
    exact ⟨switched.slotCount.trans same, same ▸ switched.allocated⟩
  · exact ⟨rfl, live⟩

/-- What the scheduler returns for the stack pointer of the interrupted task. -/
structure Picks (os os' : Os World) (after : Sched World) (pointer result : UInt32) :
    Prop where
  sched : os'.sched = after
  zone : os'.zone = os.zone
  others : ∀ t, t ≠ os.current → os'.esp t = os.esp t
  stays : after.current = os.current → result = pointer
  leaves : after.current ≠ os.current →
    result = os.esp after.current ∧ os'.esp os.current = pointer

theorem Os.scheduleEsp_picks (os : Os World) (after : Sched World) (pointer : UInt32) :
    Picks os (os.scheduleEsp after pointer).2 after pointer
      (os.scheduleEsp after pointer).1 where
  sched := rfl
  zone := rfl
  others _ different := Function.update_of_ne different ..
  stays same := by
    unfold scheduleEsp
    simp only [same, Function.update_self]
  leaves different :=
    ⟨Function.update_of_ne different .., Function.update_self ..⟩

theorem Picks.same (os : Os World) (pointer : UInt32) :
    Picks os os os.sched pointer pointer where
  sched := rfl
  zone := rfl
  others _ _ := rfl
  stays _ := rfl
  leaves different := absurd rfl different

theorem Os.schedulerTickEsp_picks (os : Os World) (pointer : UInt32) :
    Picks os (os.schedulerTickEsp pointer).2 (schedulerTick os.sched) pointer
      (os.schedulerTickEsp pointer).1 := by
  unfold schedulerTickEsp
  split
  · exact os.scheduleEsp_picks _ _
  · rename_i stopped
    have same : schedulerTick os.sched = os.sched := if_neg stopped
    rw [same]
    exact .same os pointer

theorem Os.schedulerSwitchEsp_picks (os : Os World) (pointer : UInt32) :
    Picks os (os.schedulerSwitchEsp pointer).2 (schedulerSwitch os.sched) pointer
      (os.schedulerSwitchEsp pointer).1 := by
  unfold schedulerSwitchEsp
  split
  · exact os.scheduleEsp_picks _ _
  · rename_i stopped
    have same : schedulerSwitch os.sched = os.sched := if_neg stopped
    rw [same]
    exact .same os pointer

/-! ## Tasks that do not run -/

theorem HeldAt.keep {pointer : UInt32} (held : HeldAt pointer m v t)
    (zone : m'.os.zone t = m.os.zone t)
    (ram : ∀ place, pointer.toNat ≤ place → place < (m.os.zone t).top →
      m'.ram place = m.ram place)
    (segment : m'.esp0 = m.esp0 ∨ ring (v.cpu t).cs = 0) (same : SameTask v v' t) :
    HeldAt pointer m' v' t := by
  have size := held.suspended.size
  have inside := held.inside
  constructor
  case suspended =>
    rw [same.cpu, same.floor]
    have same : Ram.Same (fun place => pointer.toNat ≤ place ∧ place < (m.os.zone t).top) m.ram
        m'.ram := fun place here => ram place here.1 here.2
    refine held.suspended.mono same ?_
    intro place atLeast below
    exact ⟨atLeast, by omega⟩
  case room =>
    rw [zone, same.floor]
    exact held.room
  case inside =>
    rw [zone, same.floor]
    exact inside
  case stack =>
    intro place atLeast below
    rw [same.floor] at atLeast
    rw [zone] at below
    rw [same.stack, ram place (by omega) below]
    exact held.stack place atLeast below
  case segment =>
    intro isUser
    rw [same.cpu] at isUser
    rw [same.floor]
    rcases segment with isSame | isKernel
    · rw [isSame]
      exact held.segment isUser
    · exact absurd isKernel isUser

/-- The code selector in the frame of a task. -/
theorem HeldAt.savedCs {pointer : UInt32} (held : HeldAt pointer m v t) :
    m.ram.load (pointer.toNat + 4 * 9) = (v.cpu t).cs := by
  rcases held.suspended.frame with ⟨skipped, holds⟩
  exact holds.load (i := 9) rfl

theorem Aside.live (aside : Aside m m') : m'.os.Live t ↔ m.os.Live t := by
  unfold Os.Live
  rw [aside.slotCount]

/-! ## Steps of the running task -/

/-- The abstract machine after the current task has computed. -/
def Virtual.computed (v : Virtual World) (m' : Kernel World) : Virtual World where
  sched := m'.os.sched
  cpu := Function.update v.cpu m'.os.current m'.cpu
  floor := Function.update v.floor m'.os.current m'.floor
  stack := Function.update v.stack m'.os.current m'.ram
  zone := v.zone

theorem Virtual.computed_other (v : Virtual World) (different : t ≠ m'.os.current) :
    SameTask v (v.computed m') t :=
  ⟨Function.update_of_ne different .., Function.update_of_ne different ..,
    Function.update_of_ne different .., rfl⟩

theorem Represents.own (represents : Represents m v) (own : Own m m') :
    Computes v (v.computed m') ∧ Represents m' (v.computed m') := by
  have current : m.os.current = v.sched.current := congrArg Sched.current represents.sched
  constructor
  · refine ⟨own.current.trans current, ?_, rfl, fun t different => ?_⟩
    · rw [← represents.sched]
      exact own.slotCount
    · apply v.computed_other
      rw [own.current, current]
      exact different
  · constructor
    case sched => rfl
    case zone =>
      intro t live
      rw [own.zone]
      exact represents.zone t (own.toAside.live.mp live)
    case live =>
      rw [own.toAside.live, own.current]
      exact represents.live
    case apart =>
      intro t u liveT liveU different
      rw [own.zone]
      exact represents.apart t u (own.toAside.live.mp liveT) (own.toAside.live.mp liveU)
        different
    case slotCount_pos =>
      rw [own.slotCount]
      exact represents.slotCount_pos
    case inZone => exact own.inZone
    case cpu => simp only [Virtual.computed, Function.update_self]
    case floor => simp only [Virtual.computed, Function.update_self]
    case stack =>
      intro place _ _
      simp only [Virtual.computed, Function.update_self]
    case held =>
      intro t different live
      have live := own.toAside.live.mp live
      have apart : t ≠ m.os.current := own.current ▸ different
      have held := represents.held t apart live
      rw [own.esp]
      refine held.keep (congrFun own.zone t) ?_ ?_ (v.computed_other different)
      · intro place atLeast below
        exact own.ram place ⟨t, apart, live, atLeast, below⟩
      · rcases own.segment with same | kernel
        · exact Or.inl same
        · right
          rw [← held.savedCs]
          exact kernel t apart live

/-! ## Interrupts -/

theorem frameSize_le (cpu : Cpu) : frameSize cpu ≤ 52 := by
  unfold frameSize
  split <;> decide

/-- The interrupted task is suspended at `pointer`, and the processor has the stack pointer
that the scheduler returned. -/
structure Chosen (function : Os World → UInt32 → UInt32 × Os World) (pointer : UInt32)
    (m m' : Kernel World) : Prop where
  suspended : Suspended m'.ram pointer m.floor m.cpu
  same : Ram.Same (fun place => place < (m.os.zone m.os.current).bottom ∨ m.floor ≤ place)
    m.ram m'.ram
  esp : m'.get .esp = (function m.os pointer).1
  os : m'.os = (function m.os pointer).2
  ss : m'.cpu.ss = kernelDataSel
  esp0 : m'.esp0 = m.esp0

/-- The entry code up to the change of the stack. -/
theorem chosen_of_run {function : Os World → UInt32 → UInt32 × Os World}
    {rest : List (Instr (Os World))} (inZone : m.InZone)
    (run : Executes (.pushad :: .push (.reg .esp) :: .call (EspCall function) :: .addEsp 4 ::
      .mov .esp .eax :: rest) m.deliver m') :
    ∃ pointer middle, Chosen function pointer m middle ∧ Executes rest middle m' := by
  rcases run with ⟨m1, isPushad, m2, rfl, m3, call, m4, rfl, m5, rfl, rest⟩
  have room := inZone.room
  have small := frameSize_le m.cpu
  simp only [reserve] at room
  have entered := deliver_pushad m (by omega) inZone.kernel
  rw [← show m1 = m.deliver.pushad from isPushad] at entered
  have size := entered.suspended.size
  have argued := pushAll_argued (m := m1) (m1.get .esp) (by omega)
  have argument := argued.argument
  have pushedAt := argued.esp
  have os := argued.os.trans entered.os
  change EspCall function (m1.pushAll [m1.get .esp]) m3 at call
  generalize m1.pushAll [m1.get .esp] = m2 at *
  -- The function leaves everything from the frame on alone.
  have above : Ram.Same (fun place => place < (m.os.zone m.os.current).bottom ∨
      (m1.get .esp).toNat ≤ place) m1.ram m3.ram := by
    refine (argued.same.mono ?_).trans (call.ram.mono ?_)
    · intro place outside
      omega
    · intro place outside
      rw [os]
      omega
  refine ⟨m1.get .esp, _, ?_, rest⟩
  constructor
  case suspended =>
    exact entered.suspended.mono above fun place atLeast _ => Or.inr atLeast
  case same =>
    refine (entered.same.mono ?_).trans (above.mono ?_)
    · intro place outside
      omega
    · intro place outside
      omega
  case esp =>
    rw [← argument, ← os, ← call.eax]
    exact (Machine.get_set_self).trans (Machine.get_set_other (by decide))
  case os =>
    rw [← argument, ← os]
    exact call.os
  case ss => exact call.cdecl.ss.trans (argued.ss.trans entered.ss)
  case esp0 => exact call.esp0.trans (argued.esp0.trans entered.esp0)

/-- The processor went on with a frame. -/
structure Resumed (cpu : Cpu) (m m' : Kernel World) : Prop where
  cpu : m'.cpu = cpu
  ram : m'.ram = m.ram
  esp0 : m'.esp0 = m.esp0
  os : m'.os = m.os

theorem resumed_of_run {floor : Nat} {cpu : Cpu}
    (suspended : Suspended m.ram (m.get .esp) floor cpu) (ss : m.cpu.ss = kernelDataSel)
    (run : Executes [.popad, .iretd] m m') : Resumed cpu m m' := by
  rcases run with ⟨_, rfl, _, isLast, rfl⟩
  have isLast : m' = { m with cpu := cpu } := isLast.trans (popad_iretd suspended ss)
  subst isLast
  exact ⟨rfl, rfl, rfl, rfl⟩

/-- The end of `isr_timer` acknowledges the interrupt first. -/
theorem resumed_of_timer_run {floor : Nat} {cpu : Cpu}
    (suspended : Suspended m.ram (m.get .esp) floor cpu) (ss : m.cpu.ss = kernelDataSel)
    (run : Executes [.movAl 0x20, .outAl 0x20, .popad, .iretd] m m') : Resumed cpu m m' := by
  rcases run with ⟨m1, isFirst, m2, isSecond, rest⟩
  have esp : m2.get .esp = m.get .esp := by
    rw [isSecond, isFirst]
    exact Machine.get_set_other (by decide)
  have ram : m2.ram = m.ram := by
    rw [isSecond, isFirst]
    rfl
  have sameSs : m2.cpu.ss = m.cpu.ss := by
    rw [isSecond, isFirst]
    rfl
  have others : m2.esp0 = m.esp0 ∧ m2.os = m.os := by
    rw [isSecond, isFirst]
    exact ⟨rfl, rfl⟩
  rw [← esp, ← ram] at suspended
  rcases resumed_of_run suspended (sameSs.trans ss) rest with ⟨isCpu, sameRam, esp0, os⟩
  exact ⟨isCpu, sameRam.trans ram, esp0.trans others.1, os.trans others.2⟩

theorem Machine.floor_congr (cpu : m'.cpu = m.cpu) (esp0 : m'.esp0 = m.esp0) :
    m'.floor = m.floor := by
  unfold floor get
  rw [cpu, esp0]

/-- The interrupted task is held where its frame is. -/
theorem Represents.suspends {pointer : UInt32} (represents : Represents m v)
    (suspended : Suspended m'.ram pointer m.floor m.cpu)
    (same : Ram.Same (fun place => m.floor ≤ place ∧ place < (m.os.zone m.os.current).top)
      m.ram m'.ram)
    (zone : m'.os.zone = m.os.zone) (esp0 : m'.esp0 = m.esp0) :
    HeldAt pointer m' v m.os.current := by
  have floor := represents.floor
  have cpu := represents.cpu
  constructor
  case suspended =>
    rw [← floor, ← cpu]
    exact suspended
  case room =>
    rw [zone, ← floor]
    exact represents.inZone.room
  case inside =>
    rw [zone, ← floor]
    exact represents.inZone.inside
  case stack =>
    intro place atLeast below
    rw [← floor] at atLeast
    rw [zone] at below
    rw [same place ⟨atLeast, below⟩]
    exact represents.stack place atLeast below
  case segment =>
    intro isUser
    rw [← cpu] at isUser
    rw [esp0, ← floor]
    exact (if_neg isUser).symm

/-- The frame of another task is apart from the part of the stack that was in use. -/
theorem Represents.place_apart (represents : Represents m v) (different : t ≠ m.os.current)
    (live : m.os.Live t) {place : Nat} (atLeast : (m.os.esp t).toNat ≤ place)
    (below : place < (m.os.zone t).top) :
    place < (m.os.zone m.os.current).bottom ∨ m.floor ≤ place := by
  have held := represents.held t different live
  have room := held.room
  have size := held.suspended.size
  have small := frameSize_le (v.cpu t)
  have inside := represents.inZone.inside
  simp only [reserve] at room
  rcases represents.apart t _ live represents.live different with before | after
  · omega
  · omega

/-- The processor goes on with the frame of a task, and the others are held. -/
theorem Represents.resumes (represents : Represents m v) {middle : Kernel World}
    {after : Sched World} (chooses : Chooses m.os.sched after)
    (sched : middle.os.sched = after) (zone : middle.os.zone = m.os.zone)
    (held : HeldAt (middle.get .esp) middle v after.current)
    (others : ∀ t, t ≠ after.current → m.os.Live t → HeldAt (middle.os.esp t) middle v t)
    (resumed : Resumed (v.cpu after.current) middle m') :
    Represents m' { v with sched := after } := by
  have isSched : m'.os.sched = after := (congrArg Os.sched resumed.os).trans sched
  have isZone : m'.os.zone = m.os.zone := (congrArg Os.zone resumed.os).trans zone
  have current : m'.os.current = after.current := congrArg Sched.current isSched
  have isLive : ∀ t, m'.os.Live t ↔ m.os.Live t := by
    intro t
    unfold Os.Live
    rw [isSched, chooses.slotCount]
  have keeps : ∀ t pointer, HeldAt pointer middle v t →
      HeldAt pointer m' { v with sched := after } t := by
    intro t pointer held
    refine held.keep (by rw [resumed.os]) ?_ (Or.inl resumed.esp0) ⟨rfl, rfl, rfl, rfl⟩
    intro place _ _
    rw [resumed.ram]
  have held' := keeps _ _ held
  have floor : m'.floor = v.floor after.current := by
    unfold Machine.floor Machine.get
    rw [resumed.cpu]
    split
    · exact (held.suspended.kernel ‹_›).1
    · exact held'.segment ‹_›
  constructor
  case sched => exact isSched
  case zone =>
    intro t live
    rw [isZone]
    exact represents.zone t ((isLive t).mp live)
  case live =>
    rw [isLive, current]
    exact chooses.live
  case apart =>
    intro t u liveT liveU different
    rw [isZone]
    exact represents.apart t u ((isLive t).mp liveT) ((isLive u).mp liveU) different
  case slotCount_pos =>
    rw [isSched, chooses.slotCount]
    exact represents.slotCount_pos
  case inZone =>
    refine ⟨?_, ?_, ?_⟩
    · rw [current, floor]
      exact held'.room
    · rw [current, floor]
      exact held'.inside
    · rw [resumed.cpu]
      exact fun isKernel => (held.suspended.kernel isKernel).2
  case cpu => exact resumed.cpu.trans (congrArg v.cpu current.symm)
  case floor => exact floor.trans (congrArg v.floor current.symm)
  case stack =>
    intro place atLeast below
    rw [floor] at atLeast
    rw [current] at below ⊢
    exact held'.stack place atLeast below
  case held =>
    intro t different live
    rw [current] at different
    have sameEsp : m'.os.esp t = middle.os.esp t := by rw [resumed.os]
    rw [sameEsp]
    exact keeps t _ (others t different ((isLive t).mp live))

/-- The interrupt took the processor from the current task and gave it to the one that the
scheduler chose. -/
theorem Represents.switched {function : Os World → UInt32 → UInt32 × Os World}
    {pointer : UInt32} {middle : Kernel World} {after : Sched World}
    (represents : Represents m v) (chosen : Chosen function pointer m middle)
    (picks : Picks m.os (function m.os pointer).2 after pointer (function m.os pointer).1)
    (chooses : Chooses m.os.sched after)
    (resumes : ∀ floor cpu, Suspended middle.ram (middle.get .esp) floor cpu →
      Resumed cpu middle m') : Represents m' { v with sched := after } := by
  rw [← chosen.os, ← chosen.esp] at picks
  have own := represents.suspends chosen.suspended
    (chosen.same.mono fun place inside => Or.inr inside.1) picks.zone chosen.esp0
  have others : ∀ t, t ≠ m.os.current → m.os.Live t →
      HeldAt (m.os.esp t) middle v t := by
    intro t different live
    refine (represents.held t different live).keep (congrFun picks.zone t) ?_
      (Or.inl chosen.esp0) ⟨rfl, rfl, rfl, rfl⟩
    intro place atLeast below
    exact chosen.same place (represents.place_apart different live atLeast below)
  have held : HeldAt (middle.get .esp) middle v after.current := by
    by_cases stays : after.current = m.os.current
    · rw [picks.stays stays, stays]
      exact own
    · rw [(picks.leaves stays).1]
      exact others _ stays chooses.live
  refine represents.resumes chooses picks.sched picks.zone held ?_
    (resumes _ _ held.suspended)
  intro t different live
  by_cases isOld : t = m.os.current
  · subst isOld
    rw [(picks.leaves fun same => different same.symm).2]
    exact own
  · rw [picks.others t isOld]
    exact others t isOld live

theorem Represents.tick (represents : Represents m v)
    (run : Executes (isrTimer (EspCall Os.schedulerTickEsp)) m.deliver m') :
    Represents m' { v with sched := schedulerTick v.sched } := by
  rcases chosen_of_run represents.inZone run with ⟨pointer, middle, chosen, rest⟩
  rw [← represents.sched]
  exact represents.switched chosen (m.os.schedulerTickEsp_picks pointer)
    (schedulerTick_chooses _ represents.slotCount_pos represents.live)
    fun _ _ suspended => resumed_of_timer_run suspended chosen.ss rest

theorem Represents.yield (represents : Represents m v)
    (run : Executes (isrYield (EspCall Os.schedulerSwitchEsp)) m.deliver m') :
    Represents m' { v with sched := schedulerSwitch v.sched } := by
  rcases chosen_of_run represents.inZone run with ⟨pointer, middle, chosen, rest⟩
  rw [← represents.sched]
  exact represents.switched chosen (m.os.schedulerSwitchEsp_picks pointer)
    (schedulerSwitch_chooses _ represents.slotCount_pos represents.live)
    fun _ _ suspended => resumed_of_run suspended chosen.ss rest

/-- The handlers of a device leave the frame of the interrupted task alone. -/
theorem Represents.irq {line : UInt32} (represents : Represents m v)
    (run : Executes (isrIrq line DispatchCall) m.deliver m') :
    ∃ sched : Sched World, sched.current = v.sched.current ∧
      sched.slotCount = v.sched.slotCount ∧ Represents m' { v with sched := sched } := by
  rcases run with ⟨m1, isPushad, m2, isCld, m3, isPush, m4, call, m5, rfl, rest⟩
  have room := represents.inZone.room
  have inside := represents.inZone.inside
  have small := frameSize_le m.cpu
  simp only [reserve] at room
  have entered := deliver_pushad m (by omega) represents.inZone.kernel
  rw [← show m1 = m.deliver.pushad from isPushad] at entered
  have size := entered.suspended.size
  have argued : Argued line m1 m3 := by
    have atEsp : m2.get .esp = m1.get .esp := by
      rw [show m2 = _ from isCld]
      rfl
    have pushed := pushAll_argued (m := m2) line (by rw [atEsp]; omega)
    rw [← show m3 = m2.pushAll [line] from isPush, show m2 = _ from isCld] at pushed
    exact ⟨pushed.esp, pushed.argument, pushed.same, pushed.os, pushed.ss, pushed.esp0⟩
  have pushedAt := argued.esp
  have os := argued.os.trans entered.os
  have esp0 := call.esp0.trans (argued.esp0.trans entered.esp0)
  have popped : m4.get .esp + 4 = m1.get .esp := by
    rw [← UInt32.toNat_inj, call.cdecl.esp, UInt32.toNat_add, pushedAt]
    have isFour : (4 : UInt32).toNat = 4 := rfl
    have bound := (m1.get .esp).toNat_lt
    omega
  -- The frame of the interrupted task, and its stack above.
  have frame : Ram.Same (fun place => (m1.get .esp).toNat ≤ place ∧
      place < (m.os.zone m.os.current).top) m1.ram m4.ram := by
    refine (argued.same.mono fun place here => Or.inr here.1).trans (call.own.mono ?_)
    intro place here
    rw [os]
    omega
  have own : HeldAt (m1.get .esp) m4 v m.os.current := by
    refine represents.suspends (entered.suspended.mono frame ?_) ?_ ?_ esp0
    · intro place atLeast below
      omega
    · refine (entered.same.mono fun place here => Or.inr here.1).trans (frame.mono ?_)
      intro place here
      omega
    · rw [call.zone, os]
  have others : ∀ t, t ≠ m.os.current → m.os.Live t → HeldAt (m.os.esp t) m4 v t := by
    intro t different live
    refine (represents.held t different live).keep (by rw [call.zone, os]) ?_
      (Or.inl esp0) ⟨rfl, rfl, rfl, rfl⟩
    intro place atLeast below
    have apart := represents.place_apart different live atLeast below
    rw [call.ram place (by rw [Machine.Parked, os]; exact ⟨t, different, live, atLeast, below⟩),
      argued.same place (by omega), entered.same place (by omega)]
  have current : m4.os.current = m.os.current := by rw [call.current, os]
  have slotCount : m4.os.sched.slotCount = m.os.sched.slotCount := by rw [call.slotCount, os]
  have chooses : Chooses m.os.sched m4.os.sched :=
    ⟨slotCount, (show m4.os.sched.current = _ from current) ▸ represents.live⟩
  refine ⟨m4.os.sched, ?_, ?_, ?_⟩
  · rw [← represents.sched]
    exact current
  · rw [← represents.sched]
    exact slotCount
  · have moved : ∀ pointer t, HeldAt pointer m4 v t →
        HeldAt pointer (m4.set .esp (m4.get .esp + 4)) v t := fun pointer t held =>
      held.keep rfl (fun _ _ _ => rfl) (Or.inl rfl) ⟨rfl, rfl, rfl, rfl⟩
    have esp : (m4.set .esp (m4.get .esp + 4)).get .esp = m1.get .esp :=
      Machine.get_set_self.trans popped
    have held : HeldAt ((m4.set .esp (m4.get .esp + 4)).get .esp)
        (m4.set .esp (m4.get .esp + 4)) v m4.os.sched.current := by
      rw [esp, show m4.os.sched.current = _ from current]
      exact moved _ _ own
    refine @Represents.resumes _ _ _ _ represents (m4.set .esp (m4.get .esp + 4)) _ chooses rfl
      (by rw [Machine.set_os, call.zone, os]) held ?_ (resumed_of_run held.suspended ?_ rest)
    · intro t different live
      rw [show m4.os.sched.current = _ from current] at different
      rw [Machine.set_os, call.esp, os]
      exact moved _ _ (others t different live)
    · exact call.cdecl.ss.trans (argued.ss.trans entered.ss)

/-! ## New tasks -/

/-- The aligned end of a new stack. -/
theorem alignedTop_bounds {base : UInt32} (bounded : base.toNat + stackSize < 2 ^ 32) :
    base.toNat + stackSize - 15 ≤ ((base + UInt32.ofNat stackSize) &&& ~~~15).toNat ∧
      ((base + UInt32.ofNat stackSize) &&& ~~~15).toNat ≤ base.toNat + stackSize := by
  have sum : (base + UInt32.ofNat stackSize).toNat = base.toNat + stackSize := by
    rw [UInt32.toNat_add]
    exact Nat.mod_eq_of_lt bounded
  rw [toNat_and_not (show (15 : UInt32).toNat = 2 ^ 4 - 1 from rfl), sum]
  omega

/-- The stack that `build_stack` makes continues in `task_trampoline`. -/
theorem buildStack_suspended (ram : Ram) {base : UInt32} (entry trampoline : UInt32)
    (bounded : base.toNat + stackSize < 2 ^ 32) :
    ∃ sp : UInt32, base.toNat + reserve ≤ sp.toNat ∧ sp.toNat ≤ base.toNat + stackSize ∧
      Suspended (buildStack ram base entry trampoline).2
        (buildStack ram base entry trampoline).1 sp.toNat (newCpu sp entry trampoline) ∧
      Ram.Same (fun place => place < base.toNat ∨ base.toNat + stackSize ≤ place) ram
        (buildStack ram base entry trampoline).2 := by
  rcases alignedTop_bounds bounded with ⟨lower, upper⟩
  unfold buildStack
  generalize (base + UInt32.ofNat stackSize) &&& ~~~15 = sp at lower upper
  simp only [stackSize] at lower upper bounded ⊢
  rcases @Stack.pushAll_spec [0x202, kernelCodeSel, trampoline, 0, 0, 0, 0, 0, 0, 0, entry]
    ⟨sp, ram⟩ (by simp only [List.length_cons, List.length_nil]; omega) with
    ⟨pointer, holds, same⟩
  generalize Stack.pushAll ⟨sp, ram⟩ _ = built at pointer holds same
  simp only [List.length_cons, List.length_nil] at pointer
  have isKernel : ring kernelCodeSel = 0 := by decide
  have isSize : frameSize (newCpu sp entry trampoline) = 44 := if_pos isKernel
  have isFrame : frameOf (newCpu sp entry trampoline) 0 =
      [0x202, kernelCodeSel, trampoline, 0, 0, 0, 0, 0, 0, 0, entry].reverse := by
    unfold frameOf
    rw [if_pos (show ring (newCpu sp entry trampoline).cs = 0 from isKernel)]
    rfl
  rw [← isFrame] at holds
  refine ⟨sp, ?_, upper, ⟨⟨0, holds⟩, ?_, sp.toNat_lt, fun _ => ⟨rfl, rfl⟩⟩, ?_⟩
  · simp only [reserve]
    omega
  · rw [isSize]
    omega
  · refine same.mono ?_
    intro place outside
    change place < built.pointer.toNat ∨ sp.toNat ≤ place
    omega

/-- The abstract machine with a new task. -/
def Virtual.created (v : Virtual World) (ram : Ram) (base sp entry trampoline : UInt32) :
    Virtual World where
  sched := (taskCreate v.sched).2
  cpu := Function.update v.cpu (.slot v.sched.slotCount) (newCpu sp entry trampoline)
  floor := Function.update v.floor (.slot v.sched.slotCount) sp.toNat
  stack := Function.update v.stack (.slot v.sched.slotCount) ram
  zone := Function.update v.zone (.slot v.sched.slotCount)
    ⟨base.toNat, base.toNat + stackSize⟩

theorem Virtual.created_other (v : Virtual World) (ram : Ram)
    (base sp entry trampoline : UInt32) (different : t ≠ .slot v.sched.slotCount) :
    SameTask v (v.created ram base sp entry trampoline) t :=
  ⟨Function.update_of_ne different .., Function.update_of_ne different ..,
    Function.update_of_ne different .., Function.update_of_ne different ..⟩

/-- There is one more task, and the others have what they had. -/
structure Added (m : Kernel World) (base : UInt32) (m' : Kernel World) : Prop where
  cpu : m'.cpu = m.cpu
  esp0 : m'.esp0 = m.esp0
  sched : m'.os.sched = (taskCreate m.os.sched).2
  current : m'.os.current = m.os.current
  live : ∀ t, m'.os.Live t ↔ t = .slot m.os.sched.slotCount ∨ m.os.Live t
  zone : m'.os.zone (.slot m.os.sched.slotCount) = ⟨base.toNat, base.toNat + stackSize⟩
  zones : ∀ t, m.os.Live t → m'.os.zone t = m.os.zone t
  esps : ∀ t, m.os.Live t → m'.os.esp t = m.os.esp t
  ram : Ram.Same (fun place => place < base.toNat ∨ base.toNat + stackSize ≤ place) m.ram m'.ram

theorem Os.Live.isOld (live : m.os.Live t) : t ≠ .slot m.os.sched.slotCount := by
  rintro rfl
  exact Nat.lt_irrefl _ live

theorem taskCreate_frame {s : Sched World} (room : s.slotCount < maxTasks) :
    (taskCreate s).2.slotCount = s.slotCount + 1 ∧ (taskCreate s).2.current = s.current := by
  unfold taskCreate
  rw [if_neg (by omega)]
  exact ⟨rfl, rfl⟩

theorem createTask_added {base : UInt32} (entry trampoline : UInt32)
    (room : m.os.sched.slotCount < maxTasks)
    (same : Ram.Same (fun place => place < base.toNat ∨ base.toNat + stackSize ≤ place) m.ram
      (buildStack m.ram base entry trampoline).2) :
    Added m base (createTask m base entry trampoline) := by
  unfold createTask
  generalize buildStack m.ram base entry trampoline = built at same ⊢
  constructor
  case cpu => rfl
  case esp0 => rfl
  case sched => rfl
  case current => exact (taskCreate_frame room).2
  case live =>
    intro t
    change t.Allocated (taskCreate m.os.sched).2.slotCount ↔ _
    rw [(taskCreate_frame room).1]
    cases t with
    | idle => exact iff_of_true trivial (Or.inr trivial)
    | slot i =>
        simp only [TaskRef.Allocated, TaskRef.slot.injEq, Os.Live]
        omega
  case zone => exact Function.update_self ..
  case zones => exact fun _ live => Function.update_of_ne live.isOld ..
  case esps => exact fun _ live => Function.update_of_ne live.isOld ..
  case ram => exact same

/-- The stacks in use do not change. -/
theorem Added.keeps {base : UInt32} (added : Added m base m') (fresh : Fresh m base)
    (live : m.os.Live t) {place : Nat} (atLeast : (m.os.zone t).bottom ≤ place)
    (below : place < (m.os.zone t).top) : m'.ram place = m.ram place := by
  apply added.ram
  rcases fresh.apart t live with before | after
  · omega
  · omega

theorem Added.apart {base : UInt32} (added : Added m base m') (fresh : Fresh m base)
    (represents : Represents m v) (t u : TaskRef) (liveT : m'.os.Live t)
    (liveU : m'.os.Live u) (different : t ≠ u) :
    (m'.os.zone t).top ≤ (m'.os.zone u).bottom ∨
      (m'.os.zone u).top ≤ (m'.os.zone t).bottom := by
  rcases (added.live t).mp liveT with rfl | liveT
  · rcases (added.live u).mp liveU with rfl | liveU
    · exact absurd rfl different
    · rw [added.zone, added.zones u liveU]
      exact fresh.apart u liveU
  · rcases (added.live u).mp liveU with rfl | liveU
    · rw [added.zone, added.zones t liveT]
      exact (fresh.apart t liveT).symm
    · rw [added.zones t liveT, added.zones u liveU]
      exact represents.apart t u liveT liveU different

/-- The new task has the registers and the stack that were given to it. -/
structure New (m' : Kernel World) (v' : Virtual World) (slot : TaskRef) : Prop where
  held : HeldAt (m'.os.esp slot) m' v' slot
  zone : m'.os.zone slot = v'.zone slot

theorem Represents.added {base : UInt32} (represents : Represents m v) (fresh : Fresh m base)
    (room : m.os.sched.slotCount < maxTasks) (added : Added m base m')
    (sched : v'.sched = (taskCreate v.sched).2) (others : ∀ t, m.os.Live t → SameTask v v' t)
    (new : New m' v' (.slot m.os.sched.slotCount)) : Represents m' v' := by
  have running := others _ represents.live
  have zone := added.zones _ represents.live
  have floor := Machine.floor_congr added.cpu added.esp0
  constructor
  case sched => rw [added.sched, sched, represents.sched]
  case zone =>
    intro t live
    rcases (added.live t).mp live with rfl | live
    · exact new.zone
    · rw [added.zones t live, (others t live).zone]
      exact represents.zone t live
  case live =>
    rw [added.current, added.live]
    exact Or.inr represents.live
  case apart => exact added.apart fresh represents
  case slotCount_pos =>
    rw [added.sched, (taskCreate_frame room).1]
    omega
  case inZone =>
    refine ⟨?_, ?_, ?_⟩
    · rw [added.current, zone, floor]
      exact represents.inZone.room
    · rw [added.current, zone, floor]
      exact represents.inZone.inside
    · rw [added.cpu]
      exact represents.inZone.kernel
  case cpu =>
    rw [added.cpu, added.current, running.cpu]
    exact represents.cpu
  case floor =>
    rw [floor, added.current, running.floor]
    exact represents.floor
  case stack =>
    intro place atLeast below
    have roomy := represents.inZone.room
    rw [added.current, zone] at below
    rw [floor] at atLeast
    rw [added.current, running.stack,
      added.keeps fresh represents.live (by omega) below]
    exact represents.stack place atLeast below
  case held =>
    intro t different live
    rw [added.current] at different
    rcases (added.live t).mp live with rfl | live
    · exact new.held
    · have held := represents.held t different live
      have roomy := held.room
      have size := held.suspended.size
      have small := frameSize_le (v.cpu t)
      simp only [reserve] at roomy
      rw [added.esps t live]
      refine held.keep (added.zones t live) ?_ (Or.inl added.esp0) (others t live)
      intro place atLeast below
      exact added.keeps fresh live (by omega) below

/-- A task that continues in `task_trampoline` on the stack that was built for it. -/
theorem built_held {base sp entry trampoline : UInt32}
    (suspended : Suspended m.ram (m.os.esp t) sp.toNat (newCpu sp entry trampoline))
    (zone : m.os.zone t = ⟨base.toNat, base.toNat + stackSize⟩)
    (lower : base.toNat + reserve ≤ sp.toNat) (upper : sp.toNat ≤ base.toNat + stackSize)
    (cpu : v.cpu t = newCpu sp entry trampoline) (floor : v.floor t = sp.toNat)
    (stack : v.stack t = m.ram) : HeldAt (m.os.esp t) m v t := by
  constructor
  case suspended =>
    rw [cpu, floor]
    exact suspended
  case room =>
    rw [zone, floor]
    exact lower
  case inside =>
    rw [zone, floor]
    exact upper
  case stack =>
    intro place _ _
    rw [stack]
  case segment =>
    intro isUser
    rw [cpu] at isUser
    exact absurd (show ring kernelCodeSel = 0 by decide) isUser

theorem Represents.create {base : UInt32} (entry trampoline : UInt32)
    (represents : Represents m v) (room : m.os.sched.slotCount < maxTasks)
    (fresh : Fresh m base) :
    ∃ v', Turn v v' ∧ Represents (createTask m base entry trampoline) v' := by
  rcases buildStack_suspended m.ram entry trampoline fresh.bounded with
    ⟨sp, lower, upper, suspended, same⟩
  have added := createTask_added entry trampoline room same
  have isEsp : (createTask m base entry trampoline).os.esp (.slot m.os.sched.slotCount) =
      (buildStack m.ram base entry trampoline).1 := Function.update_self ..
  rw [← isEsp] at suspended
  change Suspended (createTask m base entry trampoline).ram _ _ _ at suspended
  have slot : m.os.sched.slotCount = v.sched.slotCount := by rw [represents.sched]
  generalize createTask m base entry trampoline = m' at added suspended
  have zone := added.zone
  rw [slot] at suspended zone
  refine ⟨v.created m'.ram base sp entry trampoline,
    .create sp entry trampoline rfl (Function.update_self ..)
      (fun t different => v.created_other _ _ _ _ _ different),
    represents.added fresh room added rfl
      (fun t live => v.created_other _ _ _ _ _ (slot ▸ live.isOld)) ?_⟩
  rw [slot]
  refine ⟨built_held suspended zone lower upper (Function.update_self ..)
    (Function.update_self ..) (Function.update_self ..), ?_⟩
  simp only [zone, Virtual.created, Function.update_self]

/-! ## Runs -/

theorem Started.represents (started : Started m) : ∃ v, Represents m v := by
  cases started with
  | init m world count boot base idleEntry trampoline bounded apart inZone =>
      rcases buildStack_suspended m.ram idleEntry trampoline bounded with
        ⟨sp, lower, upper, suspended, -⟩
      have isEsp : (initScheduler m world count boot base idleEntry trampoline).os.esp .idle =
        (buildStack m.ram base idleEntry trampoline).1 := rfl
      have isRam : (initScheduler m world count boot base idleEntry trampoline).ram =
        (buildStack m.ram base idleEntry trampoline).2 := rfl
      have current : (initScheduler m world count boot base idleEntry trampoline).os.current =
        .slot 0 := rfl
      have idle : (initScheduler m world count boot base idleEntry trampoline).os.zone .idle =
        ⟨base.toNat, base.toNat + stackSize⟩ := rfl
      have main : ∀ i, (initScheduler m world count boot base idleEntry
        trampoline).os.zone (.slot i) = boot := fun _ => rfl
      have isLive : ∀ t, (initScheduler m world count boot base idleEntry
          trampoline).os.Live t → t = .slot 0 ∨ t = .idle := by
        intro t live
        cases t with
        | idle => exact Or.inr rfl
        | slot i =>
            left
            have small : i < 1 := live
            rw [show i = 0 by omega]
      have slotCount : 0 < (initScheduler m world count boot base idleEntry
        trampoline).os.sched.slotCount := Nat.zero_lt_one
      rw [← isEsp, ← isRam] at suspended
      generalize initScheduler m world count boot base idleEntry trampoline = m' at *
      refine ⟨{
        sched := m'.os.sched
        cpu := Function.update (fun _ => newCpu sp idleEntry trampoline) (.slot 0) m'.cpu
        floor := Function.update (fun _ => sp.toNat) (.slot 0) m'.floor
        stack := fun _ => m'.ram
        zone := m'.os.zone }, ?_⟩
      constructor
      case sched => rfl
      case zone => exact fun _ _ => rfl
      case live =>
        rw [current]
        exact slotCount
      case apart =>
        intro t u liveT liveU different
        rcases isLive t liveT with rfl | rfl
        · rcases isLive u liveU with rfl | rfl
          · exact absurd rfl different
          · rw [main, idle]
            exact apart.symm
        · rcases isLive u liveU with rfl | rfl
          · rw [main, idle]
            exact apart
          · exact absurd rfl different
      case slotCount_pos => exact slotCount
      case inZone => exact inZone
      case cpu => simp only [current, Function.update_self]
      case floor => simp only [current, Function.update_self]
      case stack => exact fun _ _ _ => rfl
      case held =>
        intro t different live
        rcases isLive t live with rfl | rfl
        · exact absurd current.symm different
        · exact built_held suspended idle lower upper rfl rfl rfl

theorem turn_simulated (represents : Represents m v) (step : SystemStep m m') :
    ∃ v', Turn v v' ∧ Represents m' v' := by
  cases step with
  | tick _ run => exact ⟨_, .tick, represents.tick run⟩
  | yield _ run => exact ⟨_, .yield, represents.yield run⟩
  | irq line _ run =>
      rcases represents.irq run with ⟨sched, current, slotCount, represents⟩
      exact ⟨_, .irq current slotCount, represents⟩
  | create base entry trampoline room fresh =>
      exact represents.create entry trampoline room fresh

/-- A step of the processor is a step of the abstract machine. -/
theorem step_simulated (represents : Represents m v) (step : KernelStep m m') :
    ∃ v', VirtualStep v v' ∧ Represents m' v' := by
  cases step with
  | own own =>
      rcases represents.own own with ⟨computes, represents⟩
      exact ⟨_, Or.inl computes, represents⟩
  | system system =>
      rcases turn_simulated represents system with ⟨v', turn, represents⟩
      exact ⟨v', Or.inr turn, represents⟩

/-- The kernel refines the machine with a processor for every task. -/
theorem run_simulated (represents : Represents m v)
    (run : Relation.ReflTransGen KernelStep m m') :
    ∃ v', Relation.ReflTransGen VirtualStep v v' ∧ Represents m' v' := by
  induction run with
  | refl => exact ⟨v, .refl, represents⟩
  | tail _ step ih =>
      rcases ih with ⟨middle, run, represents⟩
      rcases step_simulated represents step with ⟨v', step, represents⟩
      exact ⟨v', run.tail step, represents⟩

theorem Turn.sameTask (turn : Turn v v') (live : t.Allocated v.sched.slotCount) :
    SameTask v v' t := by
  cases turn with
  | tick => exact ⟨rfl, rfl, rfl, rfl⟩
  | yield => exact ⟨rfl, rfl, rfl, rfl⟩
  | irq => exact ⟨rfl, rfl, rfl, rfl⟩
  | create sp entry trampoline sched cpu others =>
      refine others t ?_
      rintro rfl
      exact Nat.lt_irrefl _ live

theorem SameTask.trans {v'' : Virtual World} (first : SameTask v v' t)
    (second : SameTask v' v'' t) : SameTask v v'' t :=
  ⟨second.cpu.trans first.cpu, second.floor.trans first.floor, second.stack.trans first.stack,
    second.zone.trans first.zone⟩

theorem Turn.live (turn : Turn v v') (positive : 0 < v.sched.slotCount)
    (running : v.sched.current.Allocated v.sched.slotCount)
    (live : t.Allocated v.sched.slotCount) : t.Allocated v'.sched.slotCount := by
  cases turn with
  | tick =>
      change t.Allocated (schedulerTick v.sched).slotCount
      rw [(schedulerTick_chooses _ positive running).slotCount]
      exact live
  | yield =>
      change t.Allocated (schedulerSwitch v.sched).slotCount
      rw [(schedulerSwitch_chooses _ positive running).slotCount]
      exact live
  | irq current slotCount =>
      rw [slotCount]
      exact live
  | create sp entry trampoline sched cpu others =>
      rw [sched]
      unfold taskCreate
      split
      · exact live
      · cases t with
        | idle => trivial
        | slot i => exact Nat.lt_succ_of_lt live

/-- What a step in which `t` does not compute leaves of `t`. -/
theorem stepWithout_simulated (represents : Represents m v) (live : m.os.Live t)
    (step : StepWithout t m m') :
    ∃ v', SameTask v v' t ∧ Represents m' v' ∧ m'.os.Live t := by
  have sched := represents.sched
  cases step with
  | own different own =>
      rcases represents.own own with ⟨computes, after⟩
      refine ⟨_, computes.others t ?_, after, own.toAside.live.mpr live⟩
      rw [← sched]
      exact fun same => different same.symm
  | system system =>
      rcases turn_simulated represents system with ⟨v', turn, after⟩
      have running := represents.live
      have positive := represents.slotCount_pos
      unfold Os.Live Os.current at *
      rw [sched] at live running positive
      refine ⟨v', turn.sameTask live, after, ?_⟩
      rw [after.sched]
      exact turn.live positive running live

theorem runWithout_simulated (represents : Represents m v) (live : m.os.Live t)
    (run : Relation.ReflTransGen (StepWithout t) m m') :
    ∃ v', SameTask v v' t ∧ Represents m' v' ∧ m'.os.Live t := by
  induction run with
  | refl => exact ⟨v, ⟨rfl, rfl, rfl, rfl⟩, represents, live⟩
  | tail _ step ih =>
      rcases ih with ⟨middle, first, represents, live⟩
      rcases stepWithout_simulated represents live step with ⟨v', second, represents, live⟩
      exact ⟨v', first.trans second, represents, live⟩

def atBoot : Kernel Unit where
  cpu :=
    { regs := Function.update (fun _ => 7) .esp 0x13000
      eip := 0x5000
      cs := kernelCodeSel
      eflags := 0x202
      ss := kernelDataSel }
  ram _ := 0
  esp0 := 0
  resumeEsp := 0
  ports := []
  os :=
    { sched := schedulerInit () fun _ => 0
      esp := fun _ => 0
      zone := fun _ => ⟨0, 0⟩ }

/-- The kernel in `main` after `scheduler_init`. -/
def mainStarted : Kernel Unit :=
  initScheduler atBoot () (fun _ => 0) ⟨0x10000, 0x14000⟩ 0x20000 0x1000 0x2000

/-- `scheduler_start`. -/
def mainRunning : Kernel Unit :=
  { mainStarted with os := { mainStarted.os with sched := schedulerStart mainStarted.os.sched } }

/-- A call that only returns its result. -/
def espCalled (function : Os World → UInt32 → UInt32 × Os World) (m : Kernel World) :
    Kernel World :=
  { m.set .eax (function m.os (m.top 0)).1 with os := (function m.os (m.top 0)).2 }

def yielded (m : Kernel World) : Kernel World :=
  let m := m.deliver.pushad
  let m := espCalled Os.schedulerSwitchEsp (m.pushAll [m.get .esp])
  let m := m.set .esp (m.get .esp + 4)
  (m.set .esp (m.get .eax)).popad.iretd

theorem espCalled_call (function : Os World → UInt32 → UInt32 × Os World)
    (m : Kernel World) : EspCall function m (espCalled function m) where
  cdecl := by
    constructor
    case cs => rfl
    case ss => rfl
    all_goals exact Machine.get_set_other (by decide)
  ram := .refl _
  eax := Machine.get_set_self
  os := rfl
  esp0 := rfl
  resumeEsp := rfl

theorem yielded_step (kernel : ring m.cpu.cs = 0) : SystemStep m (yielded m) :=
  .yield kernel ⟨_, rfl, _, rfl, _, espCalled_call _ _, _, rfl, _, rfl, _, rfl, _, rfl, rfl⟩

theorem yielded_sched (m : Kernel World) :
    (yielded m).os.sched = schedulerSwitch m.os.sched := by
  rw [yielded, Machine.iretd_os, ← m.deliver_os]
  exact (Os.schedulerSwitchEsp_picks m.deliver.os _).sched

theorem mainStarted_inZone : mainStarted.InZone where
  room := by decide
  inside := by decide
  kernel _ := rfl

theorem mainStarted_started : Started mainStarted :=
  .init atBoot () (fun _ => 0) ⟨0x10000, 0x14000⟩ 0x20000 0x1000 0x2000 (by decide)
    (Or.inr (by decide)) mainStarted_inZone

theorem mainRunning_own : Own mainStarted mainRunning where
  current := rfl
  slotCount := rfl
  esp := rfl
  zone := rfl
  ram := .refl _
  inZone := ⟨mainStarted_inZone.room, mainStarted_inZone.inside, mainStarted_inZone.kernel⟩
  segment := Or.inl rfl

end Katela.Processor
