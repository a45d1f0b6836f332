import Katela.Processor.Frames
import Mathlib.Logic.Relation

/-! # Programs in ring 3

`enter_usermode` of `src/kernel/usermode.asm`, the system calls of the program that it
starts, and `SYS_EXIT`, which returns to the caller of `enter_usermode`. -/

namespace Katela.Processor

variable {Os : Type} {m m' start : Machine Os} {top : Nat}

/-- `SYS_EXIT`. -/
def sysExit : UInt32 := 2

/-- The code selector of ring 3. -/
def userCodeSel : UInt32 := 0x1B

def userDataSel : UInt32 := 0x23

/-- A call of `set_kernel_stack`. -/
structure SetKernelStack (m m' : Machine Os) : Prop where
  cdecl : Cdecl m m'
  ram : Ram.Same (fun place => (m.get .esp).toNat + 4 ≤ place) m.ram m'.ram
  esp0 : m'.esp0 = m.top 0
  resumeEsp : m'.resumeEsp = m.top 0

/-- A call of `syscall_dispatch` on a stack that ends at `top`. Of the registers in the frame
it changes `eax`. -/
structure SyscallDispatch (top : Nat) (m m' : Machine Os) : Prop where
  cdecl : Cdecl m m'
  ram : Ram.Same (fun place => (m.get .esp).toNat + 4 ≤ place ∧ place < top ∧
    (place < (m.get .esp).toNat + 32 ∨ (m.get .esp).toNat + 36 ≤ place)) m.ram m'.ram
  esp0 : m'.esp0 = m.esp0
  resumeEsp : m'.resumeEsp = m.resumeEsp

/-- The program computes. It cannot change the flag that enables interrupts, and it leaves
the stack of the kernel alone. -/
structure UserOwn (top : Nat) (m m' : Machine Os) : Prop where
  cs : m'.cpu.cs = m.cpu.cs
  flag : m'.cpu.eflags &&& interruptFlag = m.cpu.eflags &&& interruptFlag
  esp0 : m'.esp0 = m.esp0
  resumeEsp : m'.resumeEsp = m.resumeEsp
  ram : Ram.Same (fun place => m.esp0.toNat ≤ place ∧ place < top) m.ram m'.ram

/-- What happens next while a program runs. An interrupt that is enabled may do anything. -/
inductive UserStep (top : Nat) (m : Machine Os) : Machine Os → Prop
  | own {m' : Machine Os} (own : UserOwn top m m') : UserStep top m m'
  | syscall {m' : Machine Os} (other : m.get .eax ≠ sysExit)
      (run : Executes (isrSyscall (SyscallDispatch top)) m.deliver m') : UserStep top m m'
  | interrupt {m' : Machine Os} (enabled : m.cpu.eflags &&& interruptFlag ≠ 0) :
      UserStep top m m'

/-- The words that `enter_usermode` leaves on the stack of the kernel. -/
def savedOf (start : Machine Os) (skipped : UInt32) : List UInt32 :=
  [start.get .edi, start.get .esi, start.get .esp - 4, skipped, start.get .ebx,
    start.get .edx, start.get .ecx, start.get .eax, start.get .ebp]

def savedSize : Nat := 36

/-- What the kernel needs below the frame of its caller. -/
def userReserve : Nat := 128

/-- A program runs that was started by a call of `enter_usermode` in the state `start`. -/
structure InUser (top : Nat) (start m : Machine Os) : Prop where
  cs : m.cpu.cs = userCodeSel
  masked : m.cpu.eflags &&& interruptFlag = 0
  esp0 : m.esp0.toNat + savedSize = (start.get .esp).toNat
  resumeEsp : m.resumeEsp = m.esp0
  saved : ∃ skipped, m.ram.Holds m.esp0.toNat (savedOf start skipped)
  same : Ram.Same (fun place => (start.get .esp).toNat ≤ place ∧ place < top) start.ram m.ram

/-! ## Entering -/

/-- The state behind `pushad` in `enter_usermode`. -/
structure Saving (start m : Machine Os) : Prop where
  esp : (m.get .esp).toNat + savedSize = (start.get .esp).toNat
  ebp : m.get .ebp = start.get .esp - 4
  saved : ∃ skipped, m.ram.Holds (m.get .esp).toNat (savedOf start skipped)
  same : Ram.Same (fun place => (start.get .esp).toNat ≤ place) start.ram m.ram

theorem pushAll_one_esp (value : UInt32) :
    (start.pushAll [value]).get .esp = start.get .esp - 4 :=
  Machine.get_set_self

theorem saving_of_pushes (room : userReserve ≤ (start.get .esp).toNat) :
    Saving start (((start.pushAll [start.get .ebp]).set .ebp
      ((start.pushAll [start.get .ebp]).get .esp)).pushad) := by
  rw [pushAll_one_esp]
  generalize isFramed : (start.pushAll [start.get .ebp]).set .ebp (start.get .esp - 4) = framed
  have ebp : framed.get .ebp = start.get .esp - 4 := by
    rw [← isFramed]
    exact Machine.get_set_self
  have esp : framed.get .esp = start.get .esp - 4 := by
    rw [← isFramed, Machine.get_set_other (by decide), pushAll_one_esp]
  have others : ∀ r : Reg, r ≠ .ebp → r ≠ .esp → framed.get r = start.get r := by
    intro r notEbp notEsp
    rw [← isFramed, Machine.get_set_other notEbp, Machine.pushAll_get notEsp]
  have isStack : framed.pushad.stack = start.stack.pushAll ([start.get .ebp] ++
      [start.get .eax, start.get .ecx, start.get .edx, start.get .ebx, start.get .esp - 4,
        start.get .esp - 4, start.get .esi, start.get .edi]) := by
    rw [Stack.pushAll_append, ← Machine.pushAll_stack, Machine.pushad, Machine.pushAll_stack,
      ebp, esp, others .eax (by decide) (by decide), others .ecx (by decide) (by decide),
      others .edx (by decide) (by decide), others .ebx (by decide) (by decide),
      others .esi (by decide) (by decide), others .edi (by decide) (by decide), ← isFramed,
      Machine.stack_set (by decide)]
  generalize isValues : [start.get .ebp] ++ _ = values at isStack
  have isSaved : savedOf start (start.get .esp - 4) = values.reverse := by
    rw [← isValues]
    rfl
  have length : values.length = 9 := by
    rw [← isValues]
    rfl
  simp only [userReserve] at room
  have pushed := @Stack.pushAll_spec values start.stack
    (by rw [Machine.stack_pointer]; omega)
  rw [← isStack] at pushed
  have keeps : framed.pushad.get .ebp = framed.get .ebp := Machine.pushAll_get (by decide)
  generalize framed.pushad = m at *
  rcases pushed with ⟨pointer, holds, same⟩
  rw [Machine.stack_pointer, Machine.stack_pointer] at pointer
  rw [← isSaved] at holds
  refine ⟨?_, keeps.trans ebp, ⟨start.get .esp - 4, holds⟩,
    same.mono fun place atLeast => Or.inr atLeast⟩
  simp only [savedSize]
  omega

/-- The state in which `enter_usermode` loads its arguments, with the stack pointer behind
the saved registers. -/
structure Installed (start m : Machine Os) : Prop extends Saving start m where
  esp0 : m.esp0 = m.get .esp
  resumeEsp : m.resumeEsp = m.get .esp

/-- `iretd` with the five words that `enter_usermode` pushes. -/
theorem launched {entry stackTop ax : UInt32} (room : 20 ≤ (m.get .esp).toNat)
    (launch : m' = ((m.pushAll [userDataSel, stackTop, 0x2, userCodeSel, entry]).set .eax
      ax).iretd) :
    m'.cpu.eip = entry ∧ m'.cpu.cs = userCodeSel ∧ m'.cpu.eflags = 0x2 ∧
      m'.get .esp = stackTop ∧ m'.esp0 = m.esp0 ∧ m'.resumeEsp = m.resumeEsp ∧
      Ram.Same (fun place => (m.get .esp).toNat ≤ place) m.ram m'.ram := by
  have pushed : Stack.Pushed [userDataSel, stackTop, 0x2, userCodeSel, entry] m.stack _ :=
    Machine.pushAll_pushed room
  generalize isPushed : m.pushAll [userDataSel, stackTop, 0x2, userCodeSel, entry] = last at *
  have esp0 : last.esp0 = m.esp0 := by rw [← isPushed]; rfl
  have resumeEsp : last.resumeEsp = m.resumeEsp := by rw [← isPushed]; rfl
  rcases pushed with ⟨-, ⟨eip, cs, eflags, esp, -⟩, same⟩
  have atTop : ∀ index, (last.set .eax ax).top index = last.top index := by
    intro index
    unfold Machine.top
    rw [Machine.get_set_other (by decide), Machine.set_ram]
  have isUser : ring ((last.set .eax ax).top 1) ≠ 0 := by
    rw [atTop, show last.top 1 = userCodeSel from cs]
    decide
  rw [iretd_user isUser, atTop, atTop, atTop, atTop, atTop] at launch
  subst launch
  refine ⟨eip, cs, eflags, ?_, esp0, resumeEsp, same.mono fun place atLeast => Or.inr atLeast⟩
  rw [← show last.top 3 = stackTop from esp]
  exact Function.update_self Reg.esp (last.top 3) (last.set .eax ax).cpu.regs

/-- `enter_usermode` starts the program at its first argument with its second one as the
stack pointer. -/
theorem enterUsermode_enters (room : userReserve ≤ (start.get .esp).toNat)
    (run : Executes (enterUsermode SetKernelStack) start m) :
    InUser top start m ∧ m.cpu.eip = start.top 1 ∧ m.get .esp = start.top 2 := by
  rcases run with ⟨_, rfl, _, rfl, m3, isPushad, m4, isPush, m5, call, m6, isPop, m7, isEntry,
    m8, isTop, m9, first, m10, second, m11, third, m12, fourth, m13, fifth, _, isAx, _, rfl,
    _, rfl, _, rfl, m14, rfl, _, isLast, rfl⟩
  have saving := saving_of_pushes room
  rw [← show m3 = ((start.pushAll [start.get .ebp]).set .ebp
    ((start.pushAll [start.get .ebp]).get .esp)).pushad from isPushad] at saving
  have esp := saving.esp
  simp only [userReserve, savedSize] at room esp
  have argued := pushAll_argued (m := m3) (m3.get .esp) (by omega)
  rw [← show m4 = m3.pushAll [m3.get .esp] from isPush] at argued
  have pushedAt := argued.esp
  change SetKernelStack m4 m5 at call
  have bound := (m3.get .esp).toNat_lt
  -- Behind the call the stack pointer is where the registers are.
  have m6esp : m6.get .esp = m3.get .esp := by
    rw [show m6 = m5.set .esp (m5.get .esp + 4) from isPop, Machine.get_set_self,
      ← UInt32.toNat_inj, call.cdecl.esp, UInt32.toNat_add, pushedAt]
    have isFour : (4 : UInt32).toNat = 4 := rfl
    omega
  have m6ebp : m6.get .ebp = start.get .esp - 4 := by
    rw [show m6 = m5.set .esp (m5.get .esp + 4) from isPop, Machine.get_set_other (by decide),
      call.cdecl.ebp, show m4 = m3.pushAll [m3.get .esp] from isPush,
      Machine.pushAll_get (by decide), saving.ebp]
  have m6ram : Ram.Same (fun place => (m3.get .esp).toNat ≤ place) m3.ram m6.ram := by
    rw [show m6 = m5.set .esp (m5.get .esp + 4) from isPop]
    refine (argued.same.mono fun place atLeast => Or.inr atLeast).trans (call.ram.mono ?_)
    intro place atLeast
    omega
  have above : Ram.Same (fun place => (start.get .esp).toNat ≤ place) start.ram m6.ram := by
    refine saving.same.trans (m6ram.mono ?_)
    intro place atLeast
    omega
  have argument : ∀ index offset, 4 * index + 4 = offset →
      m6.ram.load ((m6.get .ebp).toNat + offset) = start.top index := by
    intro index offset isOffset
    rw [m6ebp, Stack.toNat_sub_four (by omega), Machine.top, ← isOffset]
    have place : (start.get .esp).toNat - 4 + (4 * index + 4) =
        (start.get .esp).toNat + 4 * index := by omega
    rw [place]
    exact above.load_eq fun i _ => by omega
  have m8eax : m8.get .eax = start.top 1 := by
    rw [← argument 1 8 rfl, show m8 = _ from isTop, Machine.get_set_other (by decide),
      show m7 = _ from isEntry, Machine.get_set_self]
  have m8ecx : m8.get .ecx = start.top 2 := by
    rw [← argument 2 12 rfl, show m8 = _ from isTop, Machine.get_set_self,
      show m7 = _ from isEntry, Machine.get_set_other (by decide), Machine.set_ram]
  have m8esp : m8.get .esp = m3.get .esp := by
    rw [show m8 = _ from isTop, Machine.get_set_other (by decide), show m7 = _ from isEntry,
      Machine.get_set_other (by decide), m6esp]
  have m8same : m8.ram = m6.ram ∧ m8.esp0 = m6.esp0 ∧ m8.resumeEsp = m6.resumeEsp := by
    rw [show m8 = _ from isTop, show m7 = _ from isEntry]
    exact ⟨rfl, rfl, rfl⟩
  have pushes : m13 =
      m8.pushAll [userDataSel, start.top 2, 0x2, userCodeSel, start.top 1] := by
    rw [show m13 = _ from fifth, show m12 = _ from fourth, show m11 = _ from third,
      show m10 = _ from second, show m9 = _ from first]
    simp only [Source.value, ne_eq, reduceCtorEq, not_false_eq_true, Machine.pushAll_get, m8ecx,
      m8eax, ← Machine.pushAll_append, List.cons_append, List.nil_append]
    rfl
  rw [show m14 = _ from isAx, pushes] at isLast
  rcases launched (by rw [m8esp]; omega) isLast with
    ⟨eip, cs, eflags, atStack, esp0, resumeEsp, same⟩
  rw [m8esp, m8same.1] at same
  have isEsp0 : m.esp0 = m3.get .esp := by
    rw [esp0, m8same.2.1, show m6 = _ from isPop, Machine.set_esp0, call.esp0, argued.argument]
  have isResume : m.resumeEsp = m3.get .esp := by
    rw [resumeEsp, m8same.2.2, show m6 = _ from isPop, Machine.set_resumeEsp, call.resumeEsp,
      argued.argument]
  refine ⟨⟨cs, ?_, ?_, isResume.trans isEsp0.symm, ?_, ?_⟩, eip, atStack⟩
  · rw [eflags]
    decide
  · rw [isEsp0]
    exact saving.esp
  · rcases saving.saved with ⟨skipped, holds⟩
    rw [isEsp0]
    exact ⟨skipped, holds.mono (m6ram.trans same) fun _ atLeast _ => atLeast⟩
  · refine (above.mono fun place inside => inside.1).trans (same.mono ?_)
    intro place inside
    omega

/-! ## Running -/

theorem InUser.user (inUser : InUser top start m) : ring m.cpu.cs ≠ 0 := by
  rw [inUser.cs]
  decide

theorem InUser.floor (inUser : InUser top start m) : m.floor = m.esp0.toNat :=
  if_neg inUser.user

/-- The memory that the kernel keeps while the program runs. -/
theorem InUser.keep (inUser : InUser top start m) (inside : (start.get .esp).toNat ≤ top)
    (cs : m'.cpu.cs = m.cpu.cs)
    (flag : m'.cpu.eflags &&& interruptFlag = m.cpu.eflags &&& interruptFlag)
    (esp0 : m'.esp0 = m.esp0) (resumeEsp : m'.resumeEsp = m.resumeEsp)
    (ram : Ram.Same (fun place => m.esp0.toNat ≤ place ∧ place < top) m.ram m'.ram) :
    InUser top start m' := by
  have size := inUser.esp0
  simp only [savedSize] at size
  refine ⟨cs.trans inUser.cs, flag.trans inUser.masked, ?_, ?_, ?_, ?_⟩
  · rw [esp0]
    exact size
  · rw [resumeEsp, esp0]
    exact inUser.resumeEsp
  · rcases inUser.saved with ⟨skipped, holds⟩
    rw [esp0]
    refine ⟨skipped, holds.mono ram ?_⟩
    intro place atLeast below
    simp only [savedOf, List.length_cons, List.length_nil] at below
    omega
  · refine inUser.same.trans (ram.mono ?_)
    intro place inside
    omega

theorem InUser.syscall (inUser : InUser top start m) (inside : (start.get .esp).toNat ≤ top)
    (room : userReserve ≤ (start.get .esp).toNat)
    (run : Executes (isrSyscall (SyscallDispatch top)) m.deliver m') : InUser top start m' := by
  rcases run with ⟨m1, isPushad, m2, isPush, m3, call, m4, isPop, _, rfl, _, isLast, rfl⟩
  have size := inUser.esp0
  have isFloor := inUser.floor
  simp only [savedSize, userReserve] at size room
  have isSize : frameSize m.cpu = 52 := if_neg inUser.user
  have entered := deliver_pushad m (by omega) fun isKernel => absurd isKernel inUser.user
  rw [← show m1 = m.deliver.pushad from isPushad] at entered
  have frame := entered.suspended.size
  have argued := pushAll_argued (m := m1) (m1.get .esp) (by omega)
  rw [← show m2 = m1.pushAll [m1.get .esp] from isPush] at argued
  have pushedAt := argued.esp
  change SyscallDispatch top m2 m3 at call
  have bound := (m1.get .esp).toNat_lt
  have esp : m4.get .esp = m1.get .esp := by
    rw [show m4 = m3.set .esp (m3.get .esp + 4) from isPop, Machine.get_set_self,
      ← UInt32.toNat_inj, call.cdecl.esp, UInt32.toNat_add, pushedAt]
    have isFour : (4 : UInt32).toNat = 4 := rfl
    omega
  have ram : m4.ram = m3.ram := by rw [show m4 = _ from isPop, Machine.set_ram]
  have others : m4.esp0 = m.esp0 ∧ m4.resumeEsp = m.resumeEsp := by
    rw [show m4 = _ from isPop, Machine.set_esp0, Machine.set_resumeEsp, call.esp0,
      call.resumeEsp, show m2 = _ from isPush]
    exact ⟨entered.esp0, entered.resumeEsp⟩
  -- The frame, and the stack of the kernel behind it.
  have pushed : Ram.Same (fun place => (m1.get .esp).toNat ≤ place ∧ place < top ∧
      (place < (m1.get .esp).toNat + 28 ∨ (m1.get .esp).toNat + 32 ≤ place)) m1.ram m4.ram := by
    rw [ram]
    refine (argued.same.mono fun place inside => Or.inr inside.1).trans (call.ram.mono ?_)
    intro place inside
    omega
  have suspended := entered.suspended.set_eax (pushed.mono fun place inside => by omega)
  rw [← esp] at suspended
  have ss : m4.cpu.ss = kernelDataSel := by
    rw [show m4 = _ from isPop, Machine.set_ss, call.cdecl.ss, argued.ss, entered.ss]
  have isLast := isLast.trans (popad_iretd suspended ss)
  rw [isLast]
  refine inUser.keep inside rfl rfl others.1 others.2 ?_
  refine (entered.same.mono ?_).trans (pushed.mono ?_)
  · intro place inside
    omega
  · intro place inside
    omega

/-- The program runs with interrupts disabled, and the kernel can return from it. -/
theorem InUser.step (inUser : InUser top start m) (inside : (start.get .esp).toNat ≤ top)
    (room : userReserve ≤ (start.get .esp).toNat) (step : UserStep top m m') :
    InUser top start m' := by
  cases step with
  | own own => exact inUser.keep inside own.cs own.flag own.esp0 own.resumeEsp own.ram
  | syscall other run => exact inUser.syscall inside room run
  | interrupt enabled => exact absurd inUser.masked enabled

theorem InUser.run (inUser : InUser top start m) (inside : (start.get .esp).toNat ≤ top)
    (room : userReserve ≤ (start.get .esp).toNat)
    (run : Relation.ReflTransGen (UserStep top) m m') : InUser top start m' := by
  induction run with
  | refl => exact inUser
  | tail _ step ih => exact ih.step inside room step

/-! ## Leaving -/

/-- The call of `enter_usermode` in the state `start` has returned. -/
structure Returned (top : Nat) (start m : Machine Os) : Prop where
  regs : ∀ r : Reg, r ≠ .esp → m.get r = start.get r
  esp : m.get .esp = start.get .esp + 4
  eip : m.cpu.eip = start.top 0
  cs : m.cpu.cs = kernelCodeSel
  ss : m.cpu.ss = kernelDataSel
  masked : m.cpu.eflags &&& interruptFlag = 0
  stack : Ram.Same (fun place => (start.get .esp).toNat ≤ place ∧ place < top) start.ram m.ram

/-- The interrupt of a system call. -/
structure Trapped (m m' : Machine Os) : Prop where
  ram : Ram.Same (fun place => m.esp0.toNat ≤ place) m.ram m'.ram
  cs : m'.cpu.cs = kernelCodeSel
  ss : m'.cpu.ss = kernelDataSel
  eflags : m'.cpu.eflags = m.cpu.eflags &&& ~~~interruptFlag
  resumeEsp : m'.resumeEsp = m.resumeEsp

theorem deliver_trapped (user : ring m.cpu.cs ≠ 0) (room : 20 ≤ m.esp0.toNat) :
    Trapped m m.deliver := by
  have isStack : m.deliver.stack = m.entryStack.pushAll m.cpu.delivered := m.deliver_stack
  have pointer : m.entryStack.pointer = m.esp0 := if_neg user
  have length : 4 * m.cpu.delivered.length = 20 := by
    unfold Cpu.delivered
    rw [if_neg user]
    rfl
  have pushed := @Stack.pushAll_spec m.cpu.delivered m.entryStack
    (by rw [length, pointer]; exact room)
  rw [← isStack] at pushed
  have same := pushed.same
  rw [pointer] at same
  refine ⟨same.mono fun place atLeast => Or.inr atLeast, ?_, ?_, ?_, ?_⟩
  all_goals
    unfold Machine.deliver
    simp only [if_neg user, Machine.pushAll_ss, Machine.pushAll_resumeEsp, Machine.set_resumeEsp]

/-- `do_exit` takes the registers that `enter_usermode` left. -/
theorem InUser.exit (inUser : InUser top start m) (inside : (start.get .esp).toNat + 4 ≤ top)
    (room : userReserve ≤ (start.get .esp).toNat) (run : Executes doExit m.deliver m') :
    Returned top start m' := by
  have size := inUser.esp0
  simp only [savedSize, userReserve] at size room
  have trapped := deliver_trapped inUser.user (by omega)
  have masked : m.deliver.cpu.eflags &&& interruptFlag = 0 := by
    rw [trapped.eflags, UInt32.and_assoc, UInt32.and_comm (~~~interruptFlag),
      ← UInt32.and_assoc, inUser.masked, UInt32.zero_and]
  have holds : ∃ skipped, m.deliver.ram.Holds m.esp0.toNat (savedOf start skipped) := by
    rcases inUser.saved with ⟨skipped, holds⟩
    exact ⟨skipped, holds.mono trapped.ram fun _ atLeast _ => atLeast⟩
  have stack : Ram.Same (fun place => (start.get .esp).toNat ≤ place ∧ place < top) start.ram
      m.deliver.ram := by
    refine inUser.same.trans (trapped.ram.mono ?_)
    intro place inside
    omega
  have resumeEsp := trapped.resumeEsp.trans inUser.resumeEsp
  have cs := trapped.cs
  have ss := trapped.ss
  generalize m.deliver = m1 at *
  rcases holds with ⟨skipped, holds⟩
  rcases run with ⟨m2, isLoad, m3, isPopad, m4, isPop, _, isRet, rfl⟩
  have atSaved : m2.get .esp = m.esp0 := by
    rw [show m2 = _ from isLoad, Machine.get_set_self, resumeEsp]
  have sameRam : m2.ram = m1.ram := by rw [show m2 = _ from isLoad, Machine.set_ram]
  have word : ∀ (index : Nat) (value : UInt32), (savedOf start skipped)[index]? = some value →
      m2.top index = value := by
    intro index value isValue
    rw [Machine.top, atSaved, sameRam]
    exact holds.load isValue
  have plus : ∀ bytes : UInt32, bytes.toNat ≤ 36 →
      (m.esp0 + bytes).toNat = m.esp0.toNat + bytes.toNat := by
    intro bytes small
    have bound := (start.get .esp).toNat_lt
    rw [UInt32.toNat_add, Nat.mod_eq_of_lt (by omega)]
  -- Behind `popad` there is the old `ebp`, and behind that the return address.
  have popadEsp : m3.get .esp = m.esp0 + 32 := by
    rw [show m3 = m2.popad from isPopad, ← atSaved]
    rfl
  have popadTop : m3.top 0 = start.get .ebp := by
    rw [← word 8 _ rfl, Machine.top, Machine.top, popadEsp, plus 32 (by decide), atSaved,
      show m3 = m2.popad from isPopad]
    rfl
  have callEsp : m4.get .esp = start.get .esp := by
    rw [show m4 = _ from isPop, Machine.get_set_other (by decide), Machine.get_set_self,
      popadEsp, UInt32.add_assoc, ← UInt32.toNat_inj, plus (32 + 4) (by decide)]
    exact size
  have callRam : m4.ram = m1.ram := by
    rw [show m4 = _ from isPop, Machine.set_ram, Machine.set_ram, ← sameRam,
      show m3 = m2.popad from isPopad]
    rfl
  have popped : ∀ r : Reg, r ≠ .esp → m4.get r = start.get r := by
    intro r different
    by_cases isEbp : r = .ebp
    · rw [isEbp, show m4 = _ from isPop, Machine.get_set_self, popadTop]
    · rw [show m4 = _ from isPop, Machine.get_set_other isEbp, Machine.get_set_other different,
        show m3 = m2.popad from isPopad]
      cases r with
      | edi => exact word 0 _ rfl
      | esi => exact word 1 _ rfl
      | ebp => exact absurd rfl isEbp
      | ebx => exact word 4 _ rfl
      | edx => exact word 5 _ rfl
      | ecx => exact word 6 _ rfl
      | eax => exact word 7 _ rfl
      | esp => exact absurd rfl different
  have others : m4.cpu.cs = kernelCodeSel ∧ m4.cpu.ss = kernelDataSel ∧
      m4.cpu.eflags &&& interruptFlag = 0 := by
    rw [show m4 = _ from isPop, show m3 = m2.popad from isPopad, show m2 = _ from isLoad]
    exact ⟨cs, ss, masked⟩
  have last : m' = { m4 with cpu := { m4.cpu with eip := m4.top 0 } }.set .esp
      (m4.get .esp + 4) := isRet
  rw [last]
  refine ⟨?_, ?_, ?_, others.1, others.2.1, others.2.2, ?_⟩
  · intro r different
    rw [Machine.get_set_other different]
    exact popped r different
  · rw [Machine.get_set_self, callEsp]
  · change m4.ram.load ((m4.get .esp).toNat + 0) = start.ram.load ((start.get .esp).toNat + 0)
    rw [callEsp, callRam]
    exact stack.load_eq fun i small => by omega
  · rw [Machine.set_ram]
    exact callRam ▸ stack

def atExec : Machine Unit where
  cpu :=
    { regs := Function.update (fun _ => 7) .esp 0x13000
      eip := 0x5000
      cs := kernelCodeSel
      eflags := 0x202
      ss := kernelDataSel }
  ram _ := 1
  esp0 := 0
  resumeEsp := 0
  ports := []
  os := ()

def kernelStackSet (m : Machine Unit) : Machine Unit :=
  { m with esp0 := m.top 0, resumeEsp := m.top 0 }

/-- `enter_usermode`. -/
def userEntered (m : Machine Unit) : Machine Unit :=
  let m := m.pushAll [m.get .ebp]
  let m := (m.set .ebp (m.get .esp)).pushad
  let m := kernelStackSet (m.pushAll [m.get .esp])
  let m := m.set .esp (m.get .esp + 4)
  let m := m.set .eax (m.ram.load ((m.get .ebp).toNat + 8))
  let m := m.set .ecx (m.ram.load ((m.get .ebp).toNat + 12))
  let m := m.pushAll [0x23]
  let m := m.pushAll [m.get .ecx]
  let m := (m.pushAll [0x2]).pushAll [0x1B]
  let m := m.pushAll [m.get .eax]
  (m.set .eax (m.get .eax &&& 0xFFFF0000 ||| (0x23 : UInt16).toUInt32)).iretd

/-- The program puts the number of `SYS_EXIT` into `eax`. -/
def exiting (m : Machine Unit) : Machine Unit := m.set .eax sysExit

def exited (m : Machine Unit) : Machine Unit :=
  let m := (m.set .esp m.resumeEsp).popad
  ((m.set .esp (m.get .esp + 4)).set .ebp (m.top 0)).ret

theorem kernelStackSet_call (m : Machine Unit) : SetKernelStack m (kernelStackSet m) where
  cdecl := ⟨rfl, rfl, rfl, rfl, rfl, rfl, rfl⟩
  ram := .refl _
  esp0 := rfl
  resumeEsp := rfl

theorem userEntered_run (m : Machine Unit) :
    Executes (enterUsermode SetKernelStack) m (userEntered m) :=
  ⟨_, rfl, _, rfl, _, rfl, _, rfl, _, kernelStackSet_call _, _, rfl, _, rfl, _, rfl, _, rfl, _,
    rfl, _, rfl, _, rfl, _, rfl, _, rfl, _, rfl, _, rfl, _, rfl, _, rfl, _, rfl, rfl⟩

theorem exiting_own (m : Machine Unit) : UserOwn top m (exiting m) :=
  ⟨rfl, rfl, rfl, rfl, .refl _⟩

theorem exited_run (m : Machine Unit) : Executes doExit m (exited m) :=
  ⟨_, rfl, _, rfl, _, rfl, _, rfl, rfl⟩

end Katela.Processor
