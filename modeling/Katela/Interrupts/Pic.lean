import Mathlib.Algebra.Ring.Nat
import Mathlib.Data.Nat.Bitwise

/-! # The interrupt controllers

The two 8259A controllers of a PC, and `src/boot/pic.c`, which programs them. -/

namespace Katela.Interrupts

/-! ## The controllers -/

/-- What the next byte for the data port of a controller means. -/
inductive Awaits where
  | base
  | wiring
  | mode
  | mask
  deriving DecidableEq, Repr

structure Chip where
  awaits : Awaits
  base : UInt8
  mask : UInt8
  /-- The lines that ask for an interrupt. -/
  requests : UInt8
  /-- The lines whose interrupt was taken and not acknowledged yet. -/
  inService : UInt8
  readsInService : Bool
  deriving DecidableEq, Repr

/-- The line with the highest priority. -/
def highest (lines : UInt8) : Option Nat :=
  (List.range 8).find? fun line => lines.toNat.testBit line

def bit (line : Nat) : UInt8 := UInt8.ofNat (2 ^ line)

namespace Chip

variable (chip : Chip)

/-- A byte for the command port: the start of an initialisation, the choice of the register
that is read, or the end of an interrupt. -/
def command (byte : UInt8) : Chip :=
  if byte &&& 0x10 ≠ 0 then
    { chip with awaits := .base, mask := 0, readsInService := false }
  else if byte &&& 0x08 ≠ 0 then
    if byte &&& 0x02 ≠ 0 then { chip with readsInService := byte &&& 0x01 ≠ 0 } else chip
  else if byte &&& 0xE0 = 0x20 then
    { chip with inService := chip.inService &&& (chip.inService - 1) }
  else chip

def data (byte : UInt8) : Chip :=
  match chip.awaits with
  | .base => { chip with awaits := .wiring, base := byte &&& 0xF8 }
  | .wiring => { chip with awaits := .mode }
  | .mode => { chip with awaits := .mask }
  | .mask => { chip with mask := byte }

def status : UInt8 := if chip.readsInService then chip.inService else chip.requests

def pending : UInt8 := chip.requests &&& ~~~chip.mask

def Masked (line : Nat) : Prop := chip.mask.toNat.testBit line = true

/-- The controller gives an interrupt to the processor. -/
def serve (line : Nat) : Chip :=
  { chip with
    requests := chip.requests &&& ~~~bit line
    inService := chip.inService ||| bit line }

end Chip

structure Pics where
  master : Chip
  slave : Chip
  deriving DecidableEq, Repr

namespace Pics

/-- The lines of the slave are those from 8 on. -/
def Masked (pics : Pics) (line : Nat) : Prop :=
  if line < 8 then pics.master.Masked line else pics.slave.Masked (line - 8)

/-- Both controllers have been initialised. -/
structure Ready (pics : Pics) : Prop where
  master : pics.master.awaits = .mask
  slave : pics.slave.awaits = .mask

end Pics

def outb (port : Nat) (byte : UInt8) (pics : Pics) : Pics :=
  if port = 0x20 then { pics with master := pics.master.command byte }
  else if port = 0x21 then { pics with master := pics.master.data byte }
  else if port = 0xA0 then { pics with slave := pics.slave.command byte }
  else if port = 0xA1 then { pics with slave := pics.slave.data byte }
  else pics

def inb (port : Nat) (pics : Pics) : UInt8 :=
  if port = 0x20 then pics.master.status
  else if port = 0x21 then pics.master.mask
  else if port = 0xA0 then pics.slave.status
  else if port = 0xA1 then pics.slave.mask
  else 0xFF

/-- The processor takes an interrupt: the vector that it gets. A controller whose request
has gone away gives the vector of its line 7. -/
def acknowledge (pics : Pics) : Nat × Pics :=
  match highest pics.master.pending with
  | none => (pics.master.base.toNat + 7, pics)
  | some irq =>
      let pics := { pics with master := pics.master.serve irq }
      if irq = 2 then
        match highest pics.slave.pending with
        | none => (pics.slave.base.toNat + 7, pics)
        | some line =>
            (pics.slave.base.toNat + line, { pics with slave := pics.slave.serve line })
      else (pics.master.base.toNat + irq, pics)

/-! ## The driver -/

def picRemap (pics : Pics) : Pics :=
  [(0x20, 0x11), (0xA0, 0x11), (0x21, 0x20), (0xA1, 0x28), (0x21, 0x04), (0xA1, 0x02),
    (0x21, 0x01), (0xA1, 0x01), (0x21, 0xFE), (0xA1, 0xFF)].foldl
    (fun pics (port, byte) => outb port byte pics) pics

def dataPort (irq : Nat) : Nat := if irq < 8 then 0x21 else 0xA1

def picMask (irq : Nat) (pics : Pics) : Pics :=
  outb (dataPort irq) (inb (dataPort irq) pics ||| bit (irq % 8)) pics

def picUnmask (irq : Nat) (pics : Pics) : Pics :=
  let pics := outb (dataPort irq) (inb (dataPort irq) pics &&& ~~~bit (irq % 8)) pics
  if 8 ≤ irq then outb 0x21 (inb 0x21 pics &&& ~~~0x04) pics else pics

def picEoi (irq : Nat) (pics : Pics) : Pics :=
  outb 0x20 0x20 (if 8 ≤ irq then outb 0xA0 0x20 pics else pics)

def picSpurious (irq : Nat) (pics : Pics) : Bool × Pics :=
  if irq ≠ 7 ∧ irq ≠ 15 then (false, pics)
  else
    let port := if irq = 7 then 0x20 else 0xA0
    let pics := outb port 0x0B pics
    if inb port pics &&& 0x80 ≠ 0 then (false, pics)
    else (true, if irq = 15 then outb 0x20 0x20 pics else pics)

/-! ## Bits -/

variable {line other : Nat} {lines : UInt8}

theorem bit_testBit (small : line < 8) (i : Nat) :
    (bit line).toNat.testBit i = decide (line = i) := by
  have fits : 2 ^ line < UInt8.size := Nat.pow_lt_pow_right (by decide) small
  rw [bit, UInt8.toNat_ofNat_of_lt' fits, Nat.testBit_two_pow]

theorem or_bit_testBit (small : line < 8) (i : Nat) :
    (lines ||| bit line).toNat.testBit i = (lines.toNat.testBit i || decide (line = i)) := by
  rw [UInt8.toNat_or, Nat.testBit_or, bit_testBit small]

theorem not_testBit {i : Nat} (small : i < 8) :
    (~~~lines).toNat.testBit i = !lines.toNat.testBit i := by
  have complement : (~~~lines).toNat = 2 ^ 8 - (lines.toNat + 1) := by
    rw [UInt8.toNat_not, UInt8.size]
    omega
  rw [complement, Nat.testBit_two_pow_sub_succ lines.toNat_lt]
  simp [small]

theorem and_not_bit_testBit {i : Nat} (small : line < 8) (inside : i < 8) :
    (lines &&& ~~~bit line).toNat.testBit i =
      (lines.toNat.testBit i && !decide (line = i)) := by
  rw [UInt8.toNat_and, Nat.testBit_and, not_testBit inside, bit_testBit small]

theorem highest_some (isHighest : highest lines = some line) :
    line < 8 ∧ lines.toNat.testBit line = true := by
  have found := List.find?_some isHighest
  have member := List.mem_of_find?_eq_some isHighest
  exact ⟨List.mem_range.mp member, found⟩

/-- The end of the only interrupt in service. -/
theorem bit_and_pred (small : line < 8) : bit line &&& (bit line - 1) = 0 := by
  have positive : 0 < 2 ^ line := Nat.two_pow_pos line
  have fits : 2 ^ line < UInt8.size := Nat.pow_lt_pow_right (by decide) small
  have isBit : (bit line).toNat = 2 ^ line := UInt8.toNat_ofNat_of_lt' fits
  have isLess : (1 : UInt8) ≤ bit line := by
    rw [UInt8.le_iff_toNat_le, isBit]
    exact positive
  rw [← UInt8.toNat_inj, UInt8.toNat_and, UInt8.toNat_sub_of_le _ _ isLess, isBit]
  change 2 ^ line &&& (2 ^ line - 1) = 0
  rw [Nat.and_two_pow_sub_one_eq_mod, Nat.mod_self]

/-! ## Masks -/

/-- Nothing changed but the masks. -/
structure MaskOnly (pics pics' : Pics) : Prop where
  master : pics'.master = { pics.master with mask := pics'.master.mask }
  slave : pics'.slave = { pics.slave with mask := pics'.slave.mask }

theorem MaskOnly.trans {pics pics' pics'' : Pics} (first : MaskOnly pics pics')
    (second : MaskOnly pics' pics'') : MaskOnly pics pics'' := by
  constructor
  · rw [second.master, first.master]
  · rw [second.slave, first.slave]

variable {pics : Pics} {irq : Nat} {value : UInt8}

theorem outb_master (ready : pics.Ready) :
    outb 0x21 value pics = { pics with master := { pics.master with mask := value } } := by
  simp [outb, Chip.data, ready.master]

theorem outb_slave (ready : pics.Ready) :
    outb 0xA1 value pics = { pics with slave := { pics.slave with mask := value } } := by
  simp [outb, Chip.data, ready.slave]

/-- A new mask for the controller of a line. -/
theorem outb_dataPort (ready : pics.Ready) (value : UInt8) :
    outb (dataPort irq) value pics =
      if irq < 8 then { pics with master := { pics.master with mask := value } }
      else { pics with slave := { pics.slave with mask := value } } := by
  unfold dataPort
  split
  · exact outb_master ready
  · exact outb_slave ready

theorem inb_dataPort :
    inb (dataPort irq) pics = if irq < 8 then pics.master.mask else pics.slave.mask := by
  unfold dataPort
  split
  · rfl
  · rfl

theorem outb_maskOnly (ready : pics.Ready) (value : UInt8) :
    MaskOnly pics (outb (dataPort irq) value pics) := by
  rw [outb_dataPort ready]
  split
  · exact ⟨rfl, rfl⟩
  · exact ⟨rfl, rfl⟩

theorem picMask_maskOnly (ready : pics.Ready) : MaskOnly pics (picMask irq pics) :=
  outb_maskOnly ready _

theorem picMask_masked (ready : pics.Ready) (small : irq < 16) :
    (picMask irq pics).Masked line ↔ pics.Masked line ∨ line = irq := by
  rw [picMask, outb_dataPort ready, inb_dataPort]
  have isSmall : irq % 8 < 8 := Nat.mod_lt _ (by decide)
  unfold Pics.Masked Chip.Masked
  by_cases master : irq < 8
  · simp only [if_pos master]
    split
    · rw [or_bit_testBit isSmall, Bool.or_eq_true, decide_eq_true_eq,
        show irq % 8 = line ↔ line = irq by omega]
    · have different : line ≠ irq := by omega
      simp only [different, or_false]
  · simp only [if_neg master]
    split
    · have different : line ≠ irq := by omega
      simp only [different, or_false]
    · rw [or_bit_testBit isSmall, Bool.or_eq_true, decide_eq_true_eq,
        show irq % 8 = line - 8 ↔ line = irq by omega]

/-- The write that unmasks one line. -/
theorem unmask_masked (ready : pics.Ready) (small : irq < 16) (inside : line < 16) :
    (outb (dataPort irq) (inb (dataPort irq) pics &&& ~~~bit (irq % 8)) pics).Masked line ↔
      pics.Masked line ∧ line ≠ irq := by
  rw [outb_dataPort ready, inb_dataPort]
  have isSmall : irq % 8 < 8 := Nat.mod_lt _ (by decide)
  unfold Pics.Masked Chip.Masked
  by_cases master : irq < 8
  · simp only [if_pos master]
    split
    · rw [and_not_bit_testBit isSmall (by omega), Bool.and_eq_true, Bool.not_eq_true',
        decide_eq_false_iff_not, show irq % 8 = line ↔ line = irq by omega]
    · have different : line ≠ irq := by omega
      simp only [different, ne_eq, not_false_eq_true, and_true]
  · simp only [if_neg master]
    split
    · have different : line ≠ irq := by omega
      simp only [different, ne_eq, not_false_eq_true, and_true]
    · rw [and_not_bit_testBit isSmall (by omega), Bool.and_eq_true, Bool.not_eq_true',
        decide_eq_false_iff_not, show irq % 8 = line - 8 ↔ line = irq by omega]

theorem MaskOnly.ready {pics' : Pics} (same : MaskOnly pics pics') (ready : pics.Ready) :
    pics'.Ready := by
  constructor
  · rw [same.master]
    exact ready.master
  · rw [same.slave]
    exact ready.slave

theorem picUnmask_maskOnly (ready : pics.Ready) : MaskOnly pics (picUnmask irq pics) := by
  have first : MaskOnly pics (outb (dataPort irq) _ pics) :=
    outb_maskOnly ready (inb (dataPort irq) pics &&& ~~~bit (irq % 8))
  unfold picUnmask
  dsimp only
  split
  · exact first.trans (@outb_maskOnly _ 2 (first.ready ready) _)
  · exact first

/-- A line of the slave also needs the line that connects the two controllers. -/
theorem picUnmask_masked (ready : pics.Ready) (small : irq < 16) (inside : line < 16) :
    (picUnmask irq pics).Masked line ↔
      pics.Masked line ∧ line ≠ irq ∧ ¬(8 ≤ irq ∧ line = 2) := by
  have first : MaskOnly pics (outb (dataPort irq) _ pics) :=
    outb_maskOnly ready (inb (dataPort irq) pics &&& ~~~bit (irq % 8))
  unfold picUnmask
  dsimp only
  split
  · rename_i isSlave
    have second := @unmask_masked _ _ 2 (first.ready ready) (by decide) inside
    change Pics.Masked (outb (dataPort 2) (inb (dataPort 2) _ &&& ~~~bit (2 % 8)) _) line ↔ _
    rw [second, unmask_masked ready small inside, and_assoc]
    simp only [isSlave, true_and]
  · rename_i isMaster
    rw [unmask_masked ready small inside]
    simp only [isMaster, false_and, not_false_eq_true, and_true]

/-! ## The end of an interrupt -/

/-- Both controllers are set up as before. -/
structure SameSetup (pics pics' : Pics) : Prop where
  masterAwaits : pics'.master.awaits = pics.master.awaits
  slaveAwaits : pics'.slave.awaits = pics.slave.awaits
  masterBase : pics'.master.base = pics.master.base
  slaveBase : pics'.slave.base = pics.slave.base
  masterMask : pics'.master.mask = pics.master.mask
  slaveMask : pics'.slave.mask = pics.slave.mask

/-- No interrupt waits for its end. -/
def Pics.Ended (pics : Pics) : Prop :=
  pics.master.inService = 0 ∧ pics.slave.inService = 0

/-- The processor was given the interrupt of a line. -/
def Pics.Serves (pics : Pics) (irq : Nat) : Prop :=
  if irq < 8 then pics.master.inService = bit irq ∧ pics.slave.inService = 0
  else pics.master.inService = bit 2 ∧ pics.slave.inService = bit (irq - 8)

theorem SameSetup.trans {pics pics' pics'' : Pics} (first : SameSetup pics pics')
    (second : SameSetup pics' pics'') : SameSetup pics pics'' :=
  ⟨second.masterAwaits.trans first.masterAwaits, second.slaveAwaits.trans first.slaveAwaits,
    second.masterBase.trans first.masterBase, second.slaveBase.trans first.slaveBase,
    second.masterMask.trans first.masterMask, second.slaveMask.trans first.slaveMask⟩

theorem SameSetup.masked {pics pics' : Pics} (same : SameSetup pics pics') (line : Nat) :
    pics'.Masked line ↔ pics.Masked line := by
  unfold Pics.Masked Chip.Masked
  rw [same.masterMask, same.slaveMask]

theorem outb_end_setup (port : Nat) (isCommand : port = 0x20 ∨ port = 0xA0) :
    SameSetup pics (outb port 0x20 pics) := by
  rcases isCommand with rfl | rfl
  · exact ⟨rfl, rfl, rfl, rfl, rfl, rfl⟩
  · exact ⟨rfl, rfl, rfl, rfl, rfl, rfl⟩

theorem picEoi_setup : SameSetup pics (picEoi irq pics) := by
  unfold picEoi
  split
  · exact (outb_end_setup 0xA0 (Or.inr rfl)).trans (outb_end_setup 0x20 (Or.inl rfl))
  · exact outb_end_setup 0x20 (Or.inl rfl)

/-- `pic_eoi` ends the interrupt that is served. -/
theorem picEoi_ended (serves : pics.Serves irq) (small : irq < 16) :
    (picEoi irq pics).Ended := by
  unfold Pics.Serves at serves
  unfold picEoi Pics.Ended
  by_cases isMaster : irq < 8
  · rw [if_pos isMaster] at serves
    rw [if_neg (by omega)]
    refine ⟨?_, serves.2⟩
    change pics.master.inService &&& (pics.master.inService - 1) = 0
    rw [serves.1]
    exact bit_and_pred isMaster
  · rw [if_neg isMaster] at serves
    rw [if_pos (by omega)]
    constructor
    · change pics.master.inService &&& (pics.master.inService - 1) = 0
      rw [serves.1]
      exact bit_and_pred (by decide)
    · change pics.slave.inService &&& (pics.slave.inService - 1) = 0
      rw [serves.2]
      exact bit_and_pred (by omega)

/-- What `pic_spurious` leaves alone. -/
structure Asked (pics pics' : Pics) : Prop where
  setup : SameSetup pics pics'
  master : pics'.master.inService = pics.master.inService
  slave : pics'.slave.inService = pics.slave.inService

theorem outb_asked (port : Nat) (isCommand : port = 0x20 ∨ port = 0xA0) :
    Asked pics (outb port 0x0B pics) := by
  rcases isCommand with rfl | rfl
  · exact ⟨⟨rfl, rfl, rfl, rfl, rfl, rfl⟩, rfl, rfl⟩
  · exact ⟨⟨rfl, rfl, rfl, rfl, rfl, rfl⟩, rfl, rfl⟩

/-- An interrupt that is served is not spurious. -/
theorem picSpurious_serves (serves : pics.Serves irq) :
    ∃ pics', picSpurious irq pics = (false, pics') ∧ Asked pics pics' := by
  unfold picSpurious
  by_cases isOther : irq ≠ 7 ∧ irq ≠ 15
  · rw [if_pos isOther]
    exact ⟨pics, rfl, ⟨rfl, rfl, rfl, rfl, rfl, rfl⟩, rfl, rfl⟩
  · rw [if_neg isOther]
    have isLast : irq = 7 ∨ irq = 15 := by omega
    rcases isLast with rfl | rfl
    · have status : inb 0x20 (outb 0x20 0x0B pics) = bit 7 := serves.1
      refine ⟨outb 0x20 0x0B pics, ?_, outb_asked 0x20 (Or.inl rfl)⟩
      dsimp only
      rw [if_pos rfl, status]
      rfl
    · have status : inb 0xA0 (outb 0xA0 0x0B pics) = bit 7 := serves.2
      refine ⟨outb 0xA0 0x0B pics, ?_, outb_asked 0xA0 (Or.inr rfl)⟩
      dsimp only
      rw [show (if (15 : Nat) = 7 then 0x20 else 0xA0) = 0xA0 from rfl, status]
      rfl

/-- Line 7 without a request. -/
theorem picSpurious_master (ended : pics.Ended) :
    ∃ pics', picSpurious 7 pics = (true, pics') ∧ SameSetup pics pics' ∧ pics'.Ended := by
  have status : inb 0x20 (outb 0x20 0x0B pics) = 0 := ended.1
  refine ⟨outb 0x20 0x0B pics, ?_, (outb_asked 0x20 (Or.inl rfl)).setup, ended⟩
  unfold picSpurious
  dsimp only
  rw [if_neg (by decide), if_pos rfl, status]
  rfl

/-- Line 15 without a request: the master does not know, and its interrupt has to end. -/
theorem picSpurious_slave (master : pics.master.inService = bit 2)
    (slave : pics.slave.inService = 0) :
    ∃ pics', picSpurious 15 pics = (true, pics') ∧ SameSetup pics pics' ∧ pics'.Ended := by
  have status : inb 0xA0 (outb 0xA0 0x0B pics) = 0 := slave
  refine ⟨outb 0x20 0x20 (outb 0xA0 0x0B pics), ?_,
    (outb_asked 0xA0 (Or.inr rfl)).setup.trans (outb_end_setup 0x20 (Or.inl rfl)), ?_, slave⟩
  · unfold picSpurious
    dsimp only
    rw [if_neg (by decide), show (if (15 : Nat) = 7 then 0x20 else 0xA0) = 0xA0 from rfl, status]
    rfl
  · change pics.master.inService &&& (pics.master.inService - 1) = 0
    rw [master]
    exact bit_and_pred (by decide)

end Katela.Interrupts
