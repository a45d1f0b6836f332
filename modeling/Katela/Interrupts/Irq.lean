import Katela.Foundation.Words
import Katela.Interrupts.Pic
import Mathlib.Data.List.FinRange
import Mathlib.Data.List.Induction

/-! # Interrupt lines

`src/boot/irq.c`, which shares an interrupt line between several handlers, with the gates of
`src/boot/idt.c`, through which the processor gets there. -/

namespace Katela.Interrupts

/-! ## Handlers -/

/-- `struct irq_slot`, which is free if the handler is 0. -/
structure Slot where
  handler : Nat := 0
  context : Nat := 0
  deriving DecidableEq, Repr

abbrev Row : Type := Fin 4 → Slot

structure Irqs where
  pics : Pics
  slots : Nat → Row
  /-- The handlers that were called, in order. -/
  calls : List Slot

def irqCount : Nat := 16

/-- The loop of `irq_register`. It stops at a slot that has the handler already, and else
gives the first slot that is free. -/
def scan (row : Row) (wanted : Slot) :
    List (Fin 4) → Option (Fin 4) → Option (Option (Fin 4))
  | [], free => some free
  | i :: rest, free =>
      if row i = wanted then none
      else scan row wanted rest (if (row i).handler = 0 ∧ free = none then some i else free)

def irqRegister (irq handler context : Nat) (s : Irqs) : Int × Irqs :=
  if irq = 0 ∨ irq = 2 ∨ irqCount ≤ irq ∨ handler = 0 then (-1, s)
  else
    match scan (s.slots irq) ⟨handler, context⟩ (List.finRange 4) none with
    | some (some i) =>
        (0, { s with
          slots := Function.update s.slots irq
            (Function.update (s.slots irq) i ⟨handler, context⟩)
          pics := picUnmask irq s.pics })
    | _ => (-1, s)

/-- The loop of `irq_unregister`. -/
def dropped (row : Row) (unwanted : Slot) : Row := fun i =>
  if row i = unwanted then {} else row i

def irqUnregister (irq handler context : Nat) (s : Irqs) : Irqs :=
  if irq = 0 ∨ irq = 2 ∨ irqCount ≤ irq then s
  else
    let row := dropped (s.slots irq) ⟨handler, context⟩
    let remaining := (List.finRange 4).any fun i => (row i).handler ≠ 0
    { s with
      slots := Function.update s.slots irq row
      pics := if remaining then s.pics else picMask irq s.pics }

/-- The slots of a line that are in use. -/
def registered (row : Row) : List Slot :=
  ((List.finRange 4).map row).filter fun slot => slot.handler ≠ 0

def irqDispatch (irq : Nat) (s : Irqs) : Irqs :=
  if irqCount ≤ irq then s
  else
    let (spurious, pics) := picSpurious irq s.pics
    if spurious then { s with pics }
    else
      { s with
        pics := picEoi irq pics
        calls := s.calls ++ registered (s.slots irq) }

/-! ## Gates -/

/-- The code that gates lead to. -/
inductive Stub where
  | timer
  | yield
  | ignore
  | syscall
  | gpf
  /-- `isr_irq1` to `isr_irq15`. -/
  | irq (number : Fin 15)
  deriving DecidableEq, Repr

/-- `struct idt_entry`. -/
structure IdtEntry where
  baseLow : UInt16
  selector : UInt16
  flags : UInt8
  baseHigh : UInt16

def gate (handler : UInt32) (selector : UInt16) (flags : UInt8) : IdtEntry where
  baseLow := (handler &&& 0xFFFF).toUInt16
  baseHigh := ((handler >>> 16) &&& 0xFFFF).toUInt16
  selector := selector
  flags := flags

def setGate (index : Nat) (handler : UInt32) (selector : UInt16) (flags : UInt8)
    (entries : Nat → IdtEntry) : Nat → IdtEntry :=
  Function.update entries index (gate handler selector flags)

def idtInit (address : Stub → UInt32) (selector : UInt16) (entries : Nat → IdtEntry) :
    Nat → IdtEntry :=
  let entries := (List.range 256).foldl
    (fun entries i => setGate i (address .ignore) selector 0x8E entries) entries
  let entries := (List.finRange 15).foldl
    (fun entries (i : Fin 15) => setGate (0x21 + i.val) (address (.irq i)) selector 0x8E entries)
    entries
  let entries := setGate 0x20 (address .timer) selector 0x8E entries
  let entries := setGate 0x81 (address .yield) selector 0x8E entries
  let entries := setGate 0x0D (address .gpf) selector 0x8E entries
  setGate 0x80 (address .syscall) selector 0xEE entries

/-- Where the processor goes on through a gate. -/
def IdtEntry.offset (entry : IdtEntry) : UInt32 :=
  entry.baseHigh.toUInt32 <<< 16 ||| entry.baseLow.toUInt32

/-- What the code behind a gate does to the lines. -/
def Stub.run : Stub → Irqs → Irqs
  | .timer, s => { s with pics := outb 0x20 0x20 s.pics }
  | .irq number, s => irqDispatch (number + 1) s
  | _, s => s

/-! ## Runs -/

/-- What happens next. Devices may set their wires as they like. -/
inductive LineStep (address : Stub → UInt32) (idt : Nat → IdtEntry) (s : Irqs) : Irqs → Prop
  | register (irq handler context : Nat) :
      LineStep address idt s (irqRegister irq handler context s).2
  | unregister (irq handler context : Nat) :
      LineStep address idt s (irqUnregister irq handler context s)
  | wires (master slave : UInt8) :
      LineStep address idt s
        { s with
          pics :=
            { master := { s.pics.master with requests := master }
              slave := { s.pics.slave with requests := slave } } }
  | interrupt (stub : Stub)
      (isStub : (idt (acknowledge s.pics).1).offset = address stub) :
      LineStep address idt s (stub.run { s with pics := (acknowledge s.pics).2 })

/-- The lines after `pic_remap`, and what can become of them. -/
inductive LineReachable (address : Stub → UInt32) (idt : Nat → IdtEntry) : Irqs → Prop
  | start (pics : Pics) (master : pics.master.inService = 0)
      (slave : pics.slave.inService = 0) :
      LineReachable address idt ⟨picRemap pics, fun _ _ => {}, []⟩
  | step {s s' : Irqs} (before : LineReachable address idt s)
      (step : LineStep address idt s s') : LineReachable address idt s'

/-- The lines that a handler can be registered for. -/
def Usable (line : Nat) : Prop := line ≠ 0 ∧ line ≠ 2 ∧ line < irqCount

namespace Irqs

variable (s : Irqs)

/-- What always holds of the lines, apart from the time between an interrupt and its end. -/
structure Sound : Prop where
  ready : s.pics.Ready
  bases : s.pics.master.base = 0x20 ∧ s.pics.slave.base = 0x28
  ended : s.pics.Ended
  timer : ¬s.pics.Masked 0
  cascade : ∀ line, 8 ≤ line → line < irqCount → ¬s.pics.Masked line → ¬s.pics.Masked 2
  lines : ∀ line, Usable line → (¬s.pics.Masked line ↔ ∃ i, (s.slots line i).handler ≠ 0)
  distinct : ∀ line i j, s.slots line i = s.slots line j → (s.slots line i).handler ≠ 0 → i = j

/-- The line whose interrupt the processor takes, if it is not spurious. -/
def taken : Option Nat :=
  match highest s.pics.master.pending with
  | none => none
  | some line =>
      if line = 2 then (highest s.pics.slave.pending).map (8 + ·) else some line

/-- The handlers that this interrupt is for. The timer has none here. -/
def expected : List Slot :=
  match s.taken with
  | none => []
  | some line => if line = 0 then [] else registered (s.slots line)

end Irqs

end Katela.Interrupts
