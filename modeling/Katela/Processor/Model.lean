import Katela.Foundation.Stack
import Mathlib.Logic.Function.Basic

/-! # The processor

The part of an i386 that `src/boot/interrupts.asm` and `src/kernel/usermode.asm` use, and
the listings of these files. The position in a listing stands for `eip` while it runs, and a
call of a C function is one step. -/

namespace Katela.Processor

inductive Reg where
  | eax
  | ecx
  | edx
  | ebx
  | esp
  | ebp
  | esi
  | edi
  deriving DecidableEq, Repr

structure Cpu where
  regs : Reg → UInt32
  eip : UInt32
  cs : UInt32
  eflags : UInt32
  ss : UInt32

/-- The processor with its memory and the variables of the operating system that are not
in `ram`. -/
structure Machine (Os : Type) where
  cpu : Cpu
  ram : Ram
  /-- `tss.esp0`. -/
  esp0 : UInt32
  /-- `g_kernel_resume_esp`. -/
  resumeEsp : UInt32
  /-- The bytes sent to ports, the latest first. -/
  ports : List (Nat × UInt8)
  os : Os

def kernelCodeSel : UInt32 := 0x08

def kernelDataSel : UInt32 := 0x10

/-- The bit of `eflags` that enables interrupts. -/
def interruptFlag : UInt32 := 0x200

/-- The privilege level that a code selector stands for. -/
def ring (cs : UInt32) : UInt32 := cs &&& 3

namespace Machine

variable {Os : Type}

def get (m : Machine Os) (r : Reg) : UInt32 := m.cpu.regs r

def set (m : Machine Os) (r : Reg) (value : UInt32) : Machine Os :=
  { m with cpu := { m.cpu with regs := Function.update m.cpu.regs r value } }

/-- A word of the stack, counted from its top. -/
def top (m : Machine Os) (index : Nat) : UInt32 :=
  m.ram.load ((m.get .esp).toNat + 4 * index)

/-- Pushes the values from the first one to the last one. -/
def pushAll (m : Machine Os) (values : List UInt32) : Machine Os :=
  let stack := Stack.pushAll ⟨m.get .esp, m.ram⟩ values
  { m.set .esp stack.pointer with ram := stack.ram }

/-- The processor takes an interrupt through a gate that disables further ones. On the way
out of ring 3 it changes to the stack of the task segment. -/
def deliver (m : Machine Os) : Machine Os :=
  let cpu := m.cpu
  let m :=
    if ring cpu.cs = 0 then m.pushAll [cpu.eflags, cpu.cs, cpu.eip]
    else
      let m := m.set .esp m.esp0
      { m with cpu := { m.cpu with ss := kernelDataSel } }.pushAll
        [cpu.ss, cpu.regs .esp, cpu.eflags, cpu.cs, cpu.eip]
  { m with
    cpu := { m.cpu with cs := kernelCodeSel, eflags := cpu.eflags &&& ~~~interruptFlag } }

/-! ## Instructions -/

def pushad (m : Machine Os) : Machine Os :=
  m.pushAll [m.get .eax, m.get .ecx, m.get .edx, m.get .ebx, m.get .esp, m.get .ebp,
    m.get .esi, m.get .edi]

/-- The stored `esp` is skipped. -/
def popad (m : Machine Os) : Machine Os :=
  let regs : Reg → UInt32
    | .edi => m.top 0
    | .esi => m.top 1
    | .ebp => m.top 2
    | .ebx => m.top 4
    | .edx => m.top 5
    | .ecx => m.top 6
    | .eax => m.top 7
    | .esp => m.get .esp + 32
  { m with cpu := { m.cpu with regs := regs } }

/-- A return to ring 3 also takes the stack of the interrupted code. -/
def iretd (m : Machine Os) : Machine Os :=
  let cpu := { m.cpu with eip := m.top 0, cs := m.top 1, eflags := m.top 2 }
  if ring cpu.cs = 0 then { m with cpu }.set .esp (m.get .esp + 12)
  else { m with cpu := { cpu with ss := m.top 4 } }.set .esp (m.top 3)

def ret (m : Machine Os) : Machine Os :=
  { m with cpu := { m.cpu with eip := m.top 0 } }.set .esp (m.get .esp + 4)

end Machine

/-- What is pushed. -/
inductive Source where
  | reg (r : Reg)
  | imm (value : UInt32)

def Source.value {Os : Type} (m : Machine Os) : Source → UInt32
  | .reg r => m.get r
  | .imm value => value

/-- The instructions of the listings. A C function is what a call of it may do, from the
state in which its arguments have been pushed. -/
inductive Instr (Os : Type) where
  | pushad
  | popad
  | iretd
  | ret
  | cld
  | push (source : Source)
  | pop (r : Reg)
  | mov (dest source : Reg)
  | movAl (value : UInt8)
  | movAx (value : UInt16)
  | movData
  | load (dest base : Reg) (offset : Nat)
  | loadResumeEsp
  | addEsp (bytes : UInt32)
  | outAl (port : Nat)
  | call (function : Machine Os → Machine Os → Prop)

/-- The direction flag. -/
def directionFlag : UInt32 := 0x400

variable {Os : Type}

/-- What an instruction does. `movData` loads the data segment registers, which nothing
here reads. -/
def Instr.Does : Instr Os → Machine Os → Machine Os → Prop
  | .pushad, m, m' => m' = m.pushad
  | .popad, m, m' => m' = m.popad
  | .iretd, m, m' => m' = m.iretd
  | .ret, m, m' => m' = m.ret
  | .cld, m, m' =>
      m' = { m with cpu := { m.cpu with eflags := m.cpu.eflags &&& ~~~directionFlag } }
  | .push source, m, m' => m' = m.pushAll [source.value m]
  | .pop r, m, m' => m' = (m.set .esp (m.get .esp + 4)).set r (m.top 0)
  | .mov dest source, m, m' => m' = m.set dest (m.get source)
  | .movAl value, m, m' =>
      m' = m.set .eax (m.get .eax &&& 0xFFFFFF00 ||| value.toUInt32)
  | .movAx value, m, m' =>
      m' = m.set .eax (m.get .eax &&& 0xFFFF0000 ||| value.toUInt32)
  | .movData, m, m' => m' = m
  | .load dest base offset, m, m' =>
      m' = m.set dest (m.ram.load ((m.get base).toNat + offset))
  | .loadResumeEsp, m, m' => m' = m.set .esp m.resumeEsp
  | .addEsp bytes, m, m' => m' = m.set .esp (m.get .esp + bytes)
  | .outAl port, m, m' => m' = { m with ports := (port, (m.get .eax).toUInt8) :: m.ports }
  | .call function, m, m' => function m m'

/-- The instructions of a listing one after the other. -/
def Executes : List (Instr Os) → Machine Os → Machine Os → Prop
  | [], m, m' => m' = m
  | instr :: rest, m, m' => ∃ middle, instr.Does m middle ∧ Executes rest middle m'

/-! ## The listings -/

/-- `isr_timer`. -/
def isrTimer (schedulerTick : Machine Os → Machine Os → Prop) : List (Instr Os) :=
  [.pushad, .push (.reg .esp), .call schedulerTick, .addEsp 4, .mov .esp .eax, .movAl 0x20,
    .outAl 0x20, .popad, .iretd]

/-- `isr_yield`. -/
def isrYield (schedulerSwitch : Machine Os → Machine Os → Prop) : List (Instr Os) :=
  [.pushad, .push (.reg .esp), .call schedulerSwitch, .addEsp 4, .mov .esp .eax, .popad,
    .iretd]

/-- The macro `irq_entry`. -/
def isrIrq (line : UInt32) (irqDispatch : Machine Os → Machine Os → Prop) :
    List (Instr Os) :=
  [.pushad, .cld, .push (.imm line), .call irqDispatch, .addEsp 4, .popad, .iretd]

/-- The part of `isr_syscall` that is taken unless `eax` is 2. -/
def isrSyscall (syscallDispatch : Machine Os → Machine Os → Prop) : List (Instr Os) :=
  [.pushad, .push (.reg .esp), .call syscallDispatch, .addEsp 4, .popad, .iretd]

/-- The part of `isr_syscall` from `.do_exit` on. -/
def doExit : List (Instr Os) := [.loadResumeEsp, .popad, .pop .ebp, .ret]

/-- `enter_usermode`. -/
def enterUsermode (setKernelStack : Machine Os → Machine Os → Prop) : List (Instr Os) :=
  [.push (.reg .ebp), .mov .ebp .esp, .pushad, .push (.reg .esp), .call setKernelStack,
    .addEsp 4, .load .eax .ebp 8, .load .ecx .ebp 12, .push (.imm 0x23), .push (.reg .ecx),
    .push (.imm 0x2), .push (.imm 0x1B), .push (.reg .eax), .movAx 0x23, .movData, .movData,
    .movData, .movData, .iretd]

/-! ## Calls of C functions -/

/-- The registers that the calling convention makes a C function keep. -/
structure Cdecl (m m' : Machine Os) : Prop where
  cs : m'.cpu.cs = m.cpu.cs
  ss : m'.cpu.ss = m.cpu.ss
  ebx : m'.get .ebx = m.get .ebx
  esp : m'.get .esp = m.get .esp
  ebp : m'.get .ebp = m.get .ebp
  esi : m'.get .esi = m.get .esi
  edi : m'.get .edi = m.get .edi

end Katela.Processor
