import Katela.Processor.Model

/-! # Saved registers

What an interrupt and `pushad` leave on a stack, and what `popad` and `iretd` take from
it. -/

namespace Katela.Processor

variable {Os : Type}

namespace Machine

variable {m : Machine Os} {r r' : Reg} {value : UInt32}

@[simp] theorem get_set_self : (m.set r value).get r = value := Function.update_self ..

@[simp] theorem get_set_other (different : r' ≠ r) : (m.set r value).get r' = m.get r' :=
  Function.update_of_ne different ..

@[simp] theorem set_ram : (m.set r value).ram = m.ram := rfl

@[simp] theorem set_esp0 : (m.set r value).esp0 = m.esp0 := rfl

@[simp] theorem set_resumeEsp : (m.set r value).resumeEsp = m.resumeEsp := rfl

@[simp] theorem set_ports : (m.set r value).ports = m.ports := rfl

@[simp] theorem set_os : (m.set r value).os = m.os := rfl

@[simp] theorem set_cs : (m.set r value).cpu.cs = m.cpu.cs := rfl

@[simp] theorem set_ss : (m.set r value).cpu.ss = m.cpu.ss := rfl

@[simp] theorem set_eip : (m.set r value).cpu.eip = m.cpu.eip := rfl

@[simp] theorem set_eflags : (m.set r value).cpu.eflags = m.cpu.eflags := rfl

/-! ## The stack of the running code -/

def stack (m : Machine Os) : Stack := ⟨m.get .esp, m.ram⟩

theorem stack_pointer : m.stack.pointer = m.get .esp := rfl

theorem stack_ram : m.stack.ram = m.ram := rfl

variable {values : List UInt32}

@[simp] theorem pushAll_stack : (m.pushAll values).stack = m.stack.pushAll values := by
  simp [pushAll, stack, get, set]

@[simp] theorem pushAll_get (different : r ≠ .esp) : (m.pushAll values).get r = m.get r :=
  get_set_other different

@[simp] theorem pushAll_esp0 : (m.pushAll values).esp0 = m.esp0 := rfl

@[simp] theorem pushAll_resumeEsp : (m.pushAll values).resumeEsp = m.resumeEsp := rfl

@[simp] theorem pushAll_ports : (m.pushAll values).ports = m.ports := rfl

@[simp] theorem pushAll_os : (m.pushAll values).os = m.os := rfl

@[simp] theorem pushAll_cs : (m.pushAll values).cpu.cs = m.cpu.cs := rfl

@[simp] theorem pushAll_ss : (m.pushAll values).cpu.ss = m.cpu.ss := rfl

@[simp] theorem pushAll_eip : (m.pushAll values).cpu.eip = m.cpu.eip := rfl

@[simp] theorem pushAll_eflags : (m.pushAll values).cpu.eflags = m.cpu.eflags := rfl

/-- Pushing some values on a stack that has room for them. -/
theorem pushAll_pushed (room : 4 * values.length ≤ (m.get .esp).toNat) :
    Stack.Pushed values m.stack (m.pushAll values).stack := by
  rw [pushAll_stack]
  exact Stack.pushAll_spec values room

theorem pushAll_append (m : Machine Os) (values more : List UInt32) :
    m.pushAll (values ++ more) = (m.pushAll values).pushAll more := by
  unfold pushAll
  simp only [Stack.pushAll_append, set, Function.update_idem, get, Function.update_self]

theorem stack_set (different : r ≠ .esp) : (m.set r value).stack = m.stack := by
  unfold stack
  rw [get_set_other different.symm, set_ram]

end Machine

/-- The argument of a C function was pushed. -/
structure Argued (value : UInt32) (m m' : Machine Os) : Prop where
  esp : (m'.get .esp).toNat = (m.get .esp).toNat - 4
  argument : m'.top 0 = value
  same : Ram.Same (fun place => place < (m'.get .esp).toNat ∨ (m.get .esp).toNat ≤ place)
    m.ram m'.ram
  os : m'.os = m.os
  ss : m'.cpu.ss = m.cpu.ss
  esp0 : m'.esp0 = m.esp0

theorem pushAll_argued {m : Machine Os} (value : UInt32) (room : 4 ≤ (m.get .esp).toNat) :
    Argued value m (m.pushAll [value]) := by
  have pushed : Stack.Pushed [value] m.stack _ := Machine.pushAll_pushed room
  rcases pushed with ⟨pointer, isArgument, same⟩
  exact ⟨pointer, isArgument.1, same, rfl, rfl, rfl⟩

/-! ## Frames -/

/-- The words that a task leaves on its kernel stack, from the lowest one up. -/
def frameOf (cpu : Cpu) (skipped : UInt32) : List UInt32 :=
  [cpu.regs .edi, cpu.regs .esi, cpu.regs .ebp, skipped, cpu.regs .ebx, cpu.regs .edx,
    cpu.regs .ecx, cpu.regs .eax, cpu.eip, cpu.cs, cpu.eflags] ++
    if ring cpu.cs = 0 then [] else [cpu.regs .esp, cpu.ss]

def frameSize (cpu : Cpu) : Nat := if ring cpu.cs = 0 then 44 else 52

theorem frameOf_length (cpu : Cpu) (skipped : UInt32) :
    4 * (frameOf cpu skipped).length = frameSize cpu := by
  unfold frameOf frameSize
  split <;> rfl

/-- The lowest address of its kernel stack that the running code still needs. -/
def Machine.floor (m : Machine Os) : Nat :=
  if ring m.cpu.cs = 0 then (m.get .esp).toNat else m.esp0.toNat

/-- A frame below `floor` that continues with `cpu`. -/
structure Suspended (ram : Ram) (pointer : UInt32) (floor : Nat) (cpu : Cpu) : Prop where
  frame : ∃ skipped, ram.Holds pointer.toNat (frameOf cpu skipped)
  size : pointer.toNat + frameSize cpu = floor
  bounded : floor < 2 ^ 32
  kernel : ring cpu.cs = 0 → (cpu.regs .esp).toNat = floor ∧ cpu.ss = kernelDataSel

/-- The frame of a task whose `eax` was changed there. -/
theorem Suspended.set_eax {ram ram' : Ram} {pointer : UInt32} {floor : Nat} {cpu : Cpu}
    (suspended : Suspended ram pointer floor cpu)
    (same : Ram.Same (fun place => pointer.toNat ≤ place ∧ place < floor ∧
      (place < pointer.toNat + 28 ∨ pointer.toNat + 32 ≤ place)) ram ram') :
    Suspended ram' pointer floor { cpu with
      regs := Function.update cpu.regs .eax (ram'.load (pointer.toNat + 28)) } := by
  rcases suspended with ⟨⟨skipped, holds⟩, size, bounded, kernel⟩
  have length := frameOf_length cpu skipped
  refine ⟨⟨skipped, ?_⟩, size, bounded, kernel⟩
  have split : ∀ cpu : Cpu, frameOf cpu skipped =
      [cpu.regs .edi, cpu.regs .esi, cpu.regs .ebp, skipped, cpu.regs .ebx, cpu.regs .edx,
        cpu.regs .ecx] ++ cpu.regs .eax :: (frameOf cpu skipped).drop 8 := fun _ => rfl
  rw [split] at holds ⊢
  rw [Ram.holds_append] at holds ⊢
  rcases holds with ⟨front, eax, back⟩
  refine ⟨front.mono same ?_, ?_, back.mono same ?_⟩
  · intro place atLeast below
    simp only [List.length_cons, List.length_nil] at below
    unfold frameSize at size
    split at size <;> omega
  · exact (Function.update_self Reg.eax (ram'.load (pointer.toNat + 28)) cpu.regs).symm
  · intro place atLeast below
    simp only [List.length_cons, List.length_nil, List.length_drop] at atLeast below
    omega

theorem Suspended.mono {ram ram' : Ram} {pointer : UInt32} {floor : Nat} {cpu : Cpu}
    {Here : Nat → Prop} (suspended : Suspended ram pointer floor cpu)
    (same : Ram.Same Here ram ram')
    (inside : ∀ place, pointer.toNat ≤ place → place < floor → Here place) :
    Suspended ram' pointer floor cpu := by
  rcases suspended with ⟨⟨skipped, holds⟩, size, bounded, kernel⟩
  refine ⟨⟨skipped, holds.mono same ?_⟩, size, bounded, kernel⟩
  intro place atLeast below
  rw [frameOf_length, size] at below
  exact inside place atLeast below

/-! ## Taking an interrupt -/

/-- The values that `deliver` pushes. -/
def Cpu.delivered (cpu : Cpu) : List UInt32 :=
  if ring cpu.cs = 0 then [cpu.eflags, cpu.cs, cpu.eip]
  else [cpu.ss, cpu.regs .esp, cpu.eflags, cpu.cs, cpu.eip]

namespace Machine

variable {m : Machine Os}

/-- The stack that an interrupt finds. -/
def entryStack (m : Machine Os) : Stack where
  pointer := if ring m.cpu.cs = 0 then m.get .esp else m.esp0
  ram := m.ram

theorem entryStack_pointer : m.entryStack.pointer.toNat = m.floor := by
  unfold entryStack floor
  split <;> rfl

theorem deliver_stack : m.deliver.stack = m.entryStack.pushAll m.cpu.delivered := by
  unfold deliver entryStack Cpu.delivered
  by_cases isKernel : ring m.cpu.cs = 0
  · simp only [if_pos isKernel]
    exact pushAll_stack
  · simp only [if_neg isKernel]
    refine pushAll_stack.trans ?_
    simp [stack, get, set]

theorem deliver_get {r : Reg} (different : r ≠ .esp) : m.deliver.get r = m.get r := by
  unfold deliver
  by_cases isKernel : ring m.cpu.cs = 0
  · simp only [if_pos isKernel]
    exact pushAll_get different
  · simp only [if_neg isKernel]
    refine (pushAll_get different).trans ?_
    exact get_set_other different

theorem deliver_os : m.deliver.os = m.os := by
  unfold deliver
  dsimp only
  split <;> rfl

theorem iretd_os : m.iretd.os = m.os := by
  unfold iretd
  dsimp only
  split <;> rfl

end Machine

/-- What an interrupt followed by `pushad` does. -/
structure Entered (m m' : Machine Os) : Prop where
  suspended : Suspended m'.ram (m'.get .esp) m.floor m.cpu
  same : Ram.Same (fun place => place < (m'.get .esp).toNat ∨ m.floor ≤ place) m.ram m'.ram
  cs : m'.cpu.cs = kernelCodeSel
  ss : m'.cpu.ss = kernelDataSel
  esp0 : m'.esp0 = m.esp0
  resumeEsp : m'.resumeEsp = m.resumeEsp
  ports : m'.ports = m.ports
  os : m'.os = m.os

theorem deliver_pushad (m : Machine Os) (room : frameSize m.cpu ≤ m.floor)
    (kernel : ring m.cpu.cs = 0 → m.cpu.ss = kernelDataSel) : Entered m m.deliver.pushad := by
  -- The values in the order in which they are pushed.
  have values : ∃ skipped pushed, frameOf m.cpu skipped = pushed.reverse ∧
      m.deliver.pushad.stack = m.entryStack.pushAll pushed := by
    refine ⟨m.deliver.get .esp, m.cpu.delivered ++ [m.get .eax, m.get .ecx, m.get .edx,
      m.get .ebx, m.deliver.get .esp, m.get .ebp, m.get .esi, m.get .edi], ?_, ?_⟩
    · unfold frameOf Cpu.delivered
      split <;> rfl
    · rw [Stack.pushAll_append, ← Machine.deliver_stack, Machine.pushad,
        Machine.pushAll_stack]
      simp only [Machine.deliver_get, ne_eq, reduceCtorEq, not_false_eq_true]
  rcases values with ⟨skipped, pushed, isFrame, isStack⟩
  have size : 4 * pushed.length = frameSize m.cpu := by
    rw [← frameOf_length m.cpu skipped, isFrame, List.length_reverse]
  have isFloor := m.entryStack_pointer
  have spec := @Stack.pushAll_spec pushed m.entryStack (by omega)
  rw [← isStack] at spec
  rcases spec with ⟨pointer, holds, same⟩
  rw [Machine.stack_pointer] at pointer holds same
  rw [Machine.stack_ram] at holds same
  have bounded : m.floor < 2 ^ 32 := isFloor ▸ UInt32.toNat_lt _
  refine ⟨⟨⟨skipped, ?_⟩, by omega, bounded, ?_⟩, ?_, ?_, ?_, ?_, ?_, ?_, ?_⟩
  · rw [isFrame]
    exact holds
  · intro isKernel
    refine ⟨?_, kernel isKernel⟩
    unfold Machine.floor
    rw [if_pos isKernel]
    rfl
  · rw [isFloor] at same
    exact same
  all_goals
    unfold Machine.pushad Machine.deliver
    by_cases isKernel : ring m.cpu.cs = 0
    · simp [isKernel, kernel]
    · simp [isKernel]

/-! ## Going on behind a frame -/

section Resume

variable {m : Machine Os} {floor : Nat} {cpu : Cpu}

theorem Suspended.toNat_add (suspended : Suspended m.ram (m.get .esp) floor cpu) {size : UInt32}
    (less : size.toNat ≤ frameSize cpu) :
    (m.get .esp + size).toNat = (m.get .esp).toNat + size.toNat := by
  have isSize := suspended.size
  have bounded := suspended.bounded
  rw [UInt32.toNat_add, Nat.mod_eq_of_lt]
  omega

theorem Suspended.popad_get (suspended : Suspended m.ram (m.get .esp) floor cpu) {r : Reg}
    (different : r ≠ .esp) : m.popad.get r = cpu.regs r := by
  rcases suspended.frame with ⟨skipped, holds⟩
  cases r with
  | edi => exact holds.load (i := 0) rfl
  | esi => exact holds.load (i := 1) rfl
  | ebp => exact holds.load (i := 2) rfl
  | ebx => exact holds.load (i := 4) rfl
  | edx => exact holds.load (i := 5) rfl
  | ecx => exact holds.load (i := 6) rfl
  | eax => exact holds.load (i := 7) rfl
  | esp => exact absurd rfl different

/-- The words behind the registers. -/
theorem Suspended.popad_top (suspended : Suspended m.ram (m.get .esp) floor cpu) {index : Nat}
    {value : UInt32} (isValue : ∀ skipped, (frameOf cpu skipped)[8 + index]? = some value) :
    m.popad.top index = value := by
  rcases suspended.frame with ⟨skipped, holds⟩
  have room : (32 : UInt32).toNat ≤ frameSize cpu := by
    unfold frameSize
    split <;> decide
  rw [← holds.load (isValue skipped)]
  change m.ram.load ((m.get .esp + 32).toNat + 4 * index) = _
  rw [suspended.toNat_add room]
  congr 1
  have isSize : (32 : UInt32).toNat = 32 := rfl
  omega

theorem iretd_kernel (isKernel : ring (m.top 1) = 0) :
    m.iretd = { m with
      cpu := ⟨Function.update m.cpu.regs .esp (m.get .esp + 12), m.top 0, m.top 1, m.top 2,
        m.cpu.ss⟩ } :=
  if_pos isKernel

theorem iretd_user (isUser : ring (m.top 1) ≠ 0) :
    m.iretd = { m with
      cpu := ⟨Function.update m.cpu.regs .esp (m.top 3), m.top 0, m.top 1, m.top 2,
        m.top 4⟩ } :=
  if_neg isUser

theorem popad_iretd (suspended : Suspended m.ram (m.get .esp) floor cpu)
    (ss : m.cpu.ss = kernelDataSel) : m.popad.iretd = { m with cpu := cpu } := by
  have eip : m.popad.top 0 = cpu.eip := suspended.popad_top fun _ => rfl
  have cs : m.popad.top 1 = cpu.cs := suspended.popad_top fun _ => rfl
  have eflags : m.popad.top 2 = cpu.eflags := suspended.popad_top fun _ => rfl
  by_cases isKernel : ring cpu.cs = 0
  · have isSize : frameSize cpu = 44 := if_pos isKernel
    have size := suspended.size
    rcases suspended.kernel isKernel with ⟨atFloor, isData⟩
    have esp : m.popad.get .esp + 12 = cpu.regs .esp := by
      change m.get .esp + 32 + 12 = cpu.regs .esp
      rw [← UInt32.toNat_inj, UInt32.add_assoc, suspended.toNat_add (by rw [isSize]; decide)]
      have isSum : (32 + 12 : UInt32).toNat = 44 := rfl
      omega
    have regs : Function.update m.popad.cpu.regs .esp (m.popad.get .esp + 12) = cpu.regs :=
      Function.update_eq_iff.mpr ⟨esp, fun r different => suspended.popad_get different⟩
    rw [iretd_kernel (by rw [cs]; exact isKernel), regs, eip, cs, eflags]
    change { m with cpu := ⟨cpu.regs, cpu.eip, cpu.cs, cpu.eflags, m.cpu.ss⟩ } = _
    rw [ss, ← isData]
  · have user : ∀ skipped, frameOf cpu skipped =
        [cpu.regs .edi, cpu.regs .esi, cpu.regs .ebp, skipped, cpu.regs .ebx, cpu.regs .edx,
          cpu.regs .ecx, cpu.regs .eax, cpu.eip, cpu.cs, cpu.eflags] ++
          [cpu.regs .esp, cpu.ss] := by
      intro skipped
      unfold frameOf
      rw [if_neg isKernel]
    have esp : m.popad.top 3 = cpu.regs .esp :=
      suspended.popad_top fun skipped => by rw [user]; rfl
    have isData : m.popad.top 4 = cpu.ss :=
      suspended.popad_top fun skipped => by rw [user]; rfl
    have regs : Function.update m.popad.cpu.regs .esp (m.popad.top 3) = cpu.regs :=
      Function.update_eq_iff.mpr ⟨esp, fun r different => suspended.popad_get different⟩
    rw [iretd_user (by rw [cs]; exact isKernel), regs, eip, cs, eflags, isData]
    rfl

end Resume

end Katela.Processor
