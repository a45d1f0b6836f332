import Katela.Drivers.Ata
import Mathlib.Logic.Function.Basic

/-! # The ports of an ATA drive

A drive behind the ports of the primary channel, and `drivers/ata.c` with every port that
it reads and writes. The drive is busy as long as it likes and any of its operations can
fail. -/

namespace Katela.Drivers.AtaPorts

open Katela.Drivers.Ata (Contents sectorAt)

/-! ## The drive -/

inductive Phase where
  | idle
  | failed
  /-- The sector that is offered, how many are left, and the next word of it. -/
  | reading (lba left word : Nat)
  /-- The sector that is awaited, how many are left, and its words so far. -/
  | writing (lba left : Nat) (sent : List UInt16)
  | flushing
  | identifying (word : Nat)

/-- A transfer of data is not finished. -/
def Phase.offers : Phase → Bool
  | .reading .. | .writing .. | .identifying _ => true
  | _ => false

structure Drive where
  count : UInt8
  low : UInt8
  mid : UInt8
  high : UInt8
  head : UInt8
  phase : Phase
  /-- For how many reads of the status it will be busy. -/
  busy : Nat
  /-- How many operations it has begun, and what becomes of each one. -/
  begun : Nat
  delays : Nat → Nat
  fails : Nat → Bool
  identity : Nat → UInt16
  /-- What reads find, and what is left after a loss of power. -/
  cached : Nat → Contents
  media : Nat → Contents

namespace Drive

variable (drive : Drive)

/-- The next operation, which ends in `phase` unless it fails. -/
def begin (phase : Phase) : Drive :=
  { drive with
    phase := if drive.fails drive.begun then .failed else phase
    busy := drive.delays drive.begun
    begun := drive.begun + 1 }

/-- The status register. A flush is over when the drive is no longer busy. -/
def status : UInt8 × Drive :=
  if 0 < drive.busy then (0x80, { drive with busy := drive.busy - 1 })
  else
    match drive.phase with
    | .idle => (0x50, drive)
    | .failed => (0x51, drive)
    | .flushing => (0x50, { drive with phase := .idle, media := drive.cached })
    | _ => (0x58, drive)

/-- The sector that the registers name. -/
def address : Nat :=
  (drive.head &&& 0x0F).toNat * 2 ^ 24 + drive.high.toNat * 2 ^ 16 + drive.mid.toNat * 2 ^ 8 +
    drive.low.toNat

def sectors : Nat := if drive.count = 0 then 256 else drive.count.toNat

/-- A command. Of the two ways to name a sector this drive only has the one by its number. -/
def command (byte : UInt8) : Drive :=
  if 0 < drive.busy ∨ drive.phase.offers then drive
  else if byte = 0xE7 then drive.begin .flushing
  else if byte = 0xEC then drive.begin (.identifying 0)
  else if drive.head &&& 0x40 = 0 then drive.begin .failed
  else if byte = 0x20 then drive.begin (.reading drive.address drive.sectors 0)
  else if byte = 0x30 then drive.begin (.writing drive.address drive.sectors [])
  else drive.begin .failed

/-- The control register, whose bit 2 resets the drive. -/
def control (byte : UInt8) : Drive :=
  if byte &&& 0x04 = 0 then drive
  else
    { drive.begin .idle with
      phase := .idle
      count := 1
      low := 1
      mid := 0
      high := 0
      head := 0 }

def wordOf (contents : Contents) (word : Nat) : UInt16 :=
  if inside : 2 * word + 1 < 512 then
    UInt16.ofNat ((contents ⟨2 * word, by omega⟩).toNat +
      256 * (contents ⟨2 * word + 1, inside⟩).toNat)
  else 0

def contentsOf (words : List UInt16) : Contents := fun i =>
  let word := words.getD (i.val / 2) 0
  if i.val % 2 = 0 then word.toUInt8 else (word >>> 8).toUInt8

/-- A sector has been taken. -/
def offerNext (lba left : Nat) : Drive :=
  if 1 < left then drive.begin (.reading (lba + 1) (left - 1) 0) else drive.begin .idle

/-- A word from the data register. -/
def take : UInt16 × Drive :=
  match drive.phase with
  | .reading lba left word =>
      (wordOf (drive.cached lba) word,
        if word + 1 < 256 then { drive with phase := .reading lba left (word + 1) }
        else drive.offerNext lba left)
  | .identifying word =>
      (drive.identity word,
        if word + 1 < 256 then { drive with phase := .identifying (word + 1) }
        else drive.begin .idle)
  | _ => (0xFFFF, drive)

/-- A sector is complete. -/
def store (lba left : Nat) (words : List UInt16) : Drive :=
  let drive := { drive with cached := Function.update drive.cached lba (contentsOf words) }
  if 1 < left then drive.begin (.writing (lba + 1) (left - 1) []) else drive.begin .idle

/-- A word for the data register. -/
def give (word : UInt16) : Drive :=
  match drive.phase with
  | .writing lba left sent =>
      if (sent ++ [word]).length < 256 then
        { drive with phase := .writing lba left (sent ++ [word]) }
      else drive.store lba left (sent ++ [word])
  | _ => drive

end Drive

/-! ## The ports -/

/-- The drive and the buffer of a read. -/
structure Bus where
  drive : Drive
  buffer : Nat → UInt8

abbrev PortM (α : Type) : Type := EStateM Unit Bus α

def ataData : Nat := 0x1F0
def ataSeccount : Nat := 0x1F2
def ataLbaLow : Nat := 0x1F3
def ataLbaMid : Nat := 0x1F4
def ataLbaHigh : Nat := 0x1F5
def ataDriveHead : Nat := 0x1F6
def ataStatus : Nat := 0x1F7
def ataCommand : Nat := 0x1F7
def ataControl : Nat := 0x3F6

def ataCmdRead : UInt8 := 0x20
def ataCmdWrite : UInt8 := 0x30
def ataCmdFlush : UInt8 := 0xE7
def ataCmdIdentify : UInt8 := 0xEC

def ataSrBsy : UInt8 := 0x80
def ataSrDf : UInt8 := 0x20
def ataSrDrq : UInt8 := 0x08
def ataSrErr : UInt8 := 0x01

def ataCtrlSrst : UInt8 := 0x04

def ataTimeout : Nat := 3000000

def ataRetries : Nat := 3

/-- A register is read. The control register shows the status too, and leaves it as it is. -/
def Drive.input (drive : Drive) (port : Nat) : UInt8 × Drive :=
  if port = ataStatus then drive.status
  else if port = ataControl then (drive.status.1, drive)
  else if port = ataLbaMid then (drive.mid, drive)
  else if port = ataLbaHigh then (drive.high, drive)
  else (0xFF, drive)

/-- A register is written, which a busy drive does not notice. -/
def Drive.output (drive : Drive) (port : Nat) (byte : UInt8) : Drive :=
  if port = ataControl then drive.control byte
  else if 0 < drive.busy then drive
  else if port = ataSeccount then { drive with count := byte }
  else if port = ataLbaLow then { drive with low := byte }
  else if port = ataLbaMid then { drive with mid := byte }
  else if port = ataLbaHigh then { drive with high := byte }
  else if port = ataDriveHead then { drive with head := byte }
  else if port = ataCommand then drive.command byte
  else drive

def inb (port : Nat) : PortM UInt8 := fun bus =>
  let (byte, drive) := bus.drive.input port
  .ok byte { bus with drive }

def outb (port : Nat) (byte : UInt8) : PortM Unit :=
  modify fun bus => { bus with drive := bus.drive.output port byte }

/-- `inw(ATA_DATA)`. -/
def inwData : PortM UInt16 := fun bus =>
  let (word, drive) := bus.drive.take
  .ok word { bus with drive }

/-- `outw(ATA_DATA, word)`. -/
def outwData (word : UInt16) : PortM Unit :=
  modify fun bus => { bus with drive := bus.drive.give word }

/-! ## The driver -/

/-- Reads of a register for the time that they take. -/
def pause (port : Nat) : (rounds : Nat) → PortM Unit
  | 0 => pure ()
  | rounds + 1 => do
      let _ ← inb port
      pause port rounds

/-- Reads of the control register change nothing. -/
theorem pause_run (rounds : Nat) (s : Bus) : pause ataControl rounds s = .ok () s := by
  induction rounds with
  | zero => rfl
  | succ rounds ih => exact ih

theorem pause_zero (port : Nat) : pause port 0 = pure () := rfl

theorem pause_succ (port rounds : Nat) : pause port (rounds + 1) = (do
    let _ ← inb port
    pause port rounds) := rfl

-- The long pause of a reset is not to be computed.
attribute [irreducible] pause

def ataDelay : PortM Unit := pause ataControl 4

def waitBsyLoop : (timeout : Nat) → PortM Unit
  | 0 => throw ()
  | timeout + 1 => do
      let status ← inb ataStatus
      if status &&& ataSrBsy = 0 then pure () else waitBsyLoop timeout

def ataWaitBsy : PortM Unit := waitBsyLoop ataTimeout

def waitDrqLoop : (timeout : Nat) → PortM Unit
  | 0 => throw ()
  | timeout + 1 => do
      let status ← inb ataStatus
      if status &&& ataSrBsy ≠ 0 then waitDrqLoop timeout
      else if status &&& (ataSrErr ||| ataSrDf) ≠ 0 then throw ()
      else if status &&& ataSrDrq ≠ 0 then pure ()
      else waitDrqLoop timeout

def ataWaitDrq : PortM Unit := waitDrqLoop ataTimeout

def finishLoop : (timeout : Nat) → PortM Unit
  | 0 => throw ()
  | timeout + 1 => do
      let status ← inb ataStatus
      if status &&& ataSrBsy ≠ 0 then finishLoop timeout
      else if status &&& (ataSrErr ||| ataSrDf ||| ataSrDrq) ≠ 0 then throw ()
      else pure ()

def ataFinish : PortM Unit := do
  ataDelay
  finishLoop ataTimeout

/-- The result of the last wait is not looked at. -/
def ataReset : PortM Unit := do
  outb ataControl ataCtrlSrst
  pause ataControl 64
  outb ataControl 0
  pause ataControl 10000
  let _ ← attempt ataWaitBsy

def ataSelect (lba : UInt32) : PortM Unit := do
  outb ataDriveHead ((0xE0 : UInt8) ||| ((lba >>> 24) &&& 0x0F).toUInt8)
  ataDelay

def ataPrepare (lba : UInt32) : PortM Unit := do
  ataWaitBsy
  ataSelect lba
  ataWaitBsy
  let status ← inb ataStatus
  if status &&& ataSrDrq ≠ 0 then do
    ataReset
    ataSelect lba
    ataWaitBsy

def ataSetup (lba count : UInt32) (command : UInt8) : PortM Unit := do
  outb ataSeccount count.toUInt8
  outb ataLbaLow (lba &&& 0xFF).toUInt8
  outb ataLbaMid ((lba >>> 8) &&& 0xFF).toUInt8
  outb ataLbaHigh ((lba >>> 16) &&& 0xFF).toUInt8
  outb ataCommand command
  ataDelay

/-- The inner loop of `ata_read_once`. -/
def receiveWords (i : Nat) : (rounds j : Nat) → PortM Unit
  | 0, _ => pure ()
  | rounds + 1, j => do
      let word ← inwData
      modify fun bus =>
        { bus with
          buffer := Function.update
            (Function.update bus.buffer (i * 512 + j * 2) (word &&& 0xFF).toUInt8)
            (i * 512 + j * 2 + 1) ((word >>> 8) &&& 0xFF).toUInt8 }
      receiveWords i rounds (j + 1)

def receiveLoop : (rounds i : Nat) → PortM Unit
  | 0, _ => pure ()
  | rounds + 1, i => do
      ataWaitDrq
      receiveWords i 256 0
      ataDelay
      receiveLoop rounds (i + 1)

def ataReadOnce (lba count : UInt32) : PortM Unit := do
  ataPrepare lba
  ataSetup lba count ataCmdRead
  receiveLoop count.toNat 0
  ataFinish

/-- A word of the buffer of a write. -/
def wordAt (buffer : Nat → UInt8) (i j : Nat) : UInt16 :=
  (buffer (i * 512 + j * 2)).toUInt16 ||| (buffer (i * 512 + j * 2 + 1)).toUInt16 <<< 8

/-- The inner loop of `ata_write_once`. -/
def sendWords (buffer : Nat → UInt8) (i : Nat) : (rounds j : Nat) → PortM Unit
  | 0, _ => pure ()
  | rounds + 1, j => do
      outwData (wordAt buffer i j)
      sendWords buffer i rounds (j + 1)

def sendLoop (buffer : Nat → UInt8) : (rounds i : Nat) → PortM Unit
  | 0, _ => pure ()
  | rounds + 1, i => do
      ataWaitDrq
      sendWords buffer i 256 0
      ataDelay
      sendLoop buffer rounds (i + 1)

def ataWriteOnce (lba count : UInt32) (buffer : Nat → UInt8) : PortM Unit := do
  ataPrepare lba
  ataSetup lba count ataCmdWrite
  sendLoop buffer count.toNat 0
  ataFinish
  outb ataCommand ataCmdFlush
  ataDelay
  ataFinish

/-- The loop of `ata_read_sectors` and `ata_write_sectors`. -/
def retry (once : PortM Unit) : (attempts : Nat) → PortM Unit
  | 0 => throw ()
  | attempts + 1 => do
      match ← attempt once with
      | .ok () => pure ()
      | .error () => do
          ataReset
          retry once attempts

/-- The buffer is that of the bus. -/
def ataReadSectors (lba count : UInt32) : PortM Unit :=
  if count = 0 ∨ count > 255 then throw () else retry (ataReadOnce lba count) ataRetries

def ataWriteSectors (lba count : UInt32) (buffer : Nat → UInt8) : PortM Unit :=
  if count = 0 ∨ count > 255 then throw ()
  else retry (ataWriteOnce lba count buffer) ataRetries

/-- The loop that reads `identify`. -/
def identifyWords : (rounds : Nat) → List UInt16 → PortM (List UInt16)
  | 0, identify => pure identify
  | rounds + 1, identify => do
      let word ← inwData
      identifyWords rounds (identify ++ [word])

theorem identifyWords_zero (identify : List UInt16) :
    identifyWords 0 identify = pure identify := rfl

theorem identifyWords_succ (rounds : Nat) (identify : List UInt16) :
    identifyWords (rounds + 1) identify = (do
      let word ← inwData
      identifyWords rounds (identify ++ [word])) := rfl

-- Its 256 rounds are not to be computed.
attribute [irreducible] identifyWords

/-- A drive that does not take part in the transfers of sectors has 0 of them. -/
def ataTotalSectors : PortM UInt32 := do
  outb ataDriveHead 0xA0
  pause ataStatus 4
  outb ataSeccount 0
  outb ataLbaLow 0
  outb ataLbaMid 0
  outb ataLbaHigh 0
  outb ataCommand ataCmdIdentify
  let status ← inb ataStatus
  if status = 0 ∨ status = 0xFF then return 0
  let .ok () ← attempt ataWaitBsy | return 0
  let mid ← inb ataLbaMid
  if mid ≠ 0 then return 0
  let high ← inb ataLbaHigh
  if high ≠ 0 then return 0
  let .ok () ← attempt ataWaitDrq | return 0
  let identify ← identifyWords 256 []
  if identify.getD 49 0 &&& 0x200 = 0 then return 0
  return (identify.getD 61 0).toUInt32 <<< 16 ||| (identify.getD 60 0).toUInt32

end Katela.Drivers.AtaPorts
