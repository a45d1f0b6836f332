import Mathlib.Logic.Basic
import Katela.Foundation.Bytes

/-! # The NVMe driver

A model of the functions of `drivers/nvme.c` above `execute`. Sizes and sector numbers
stay far below 2^32, because `total_sectors` does not exceed `MAX_SECTORS`. -/

namespace Katela.Drivers

/-- Memory behind a pointer, or the bytes of the namespace. -/
abbrev Memory : Type := Nat → UInt8

/-- `memcpy` between two memories. -/
def copyBytes (target : Memory) (offset : Nat) (source : Memory) (start size : Nat) :
    Memory :=
  fun index =>
    if offset ≤ index ∧ index < offset + size then source (start + (index - offset))
    else target index

def pageSize : Nat := 4096

def bounceSize : Nat := 65536

def maxSectors : Nat := 0x0FFFFFFF

def sectorSize : Nat := 512

inductive IoOpcode where
  | read
  | write

/-- A command as the controller understands it. -/
inductive Submission where
  | identify (cns nsid : Nat)
  | createCq
  | createSq
  | io (opcode : IoOpcode) (block blocks : Nat)
  | flush

/-- How `execute` ends. A command that fails, or that is not completed in time, can
leave anything in the namespace and in the bounce buffer. -/
inductive Response where
  | success
  | failure (disk bounce : Memory)
  | timeout (disk bounce : Memory)

/-- The controller: whether `controller_init` gets as far as the first command, the data
that it identifies itself with, and its responses to the commands in their order. -/
structure Controller where
  found : Bool
  controllerData : Memory
  namespaceData : Memory
  respond : Nat → Response

inductive DriverState where
  | untried
  | ready
  | failed
  deriving DecidableEq

/-- The variables of the driver, the bytes of the namespace and the commands that were
submitted. -/
structure Nvme where
  state : DriverState
  lbaShift : Nat
  maxTransfer : Nat
  totalSectors : Nat
  identifyBuf : Memory
  bounce : Memory
  disk : Memory
  submitted : List Submission

/-- What a command that succeeds does. -/
def perform (controller : Controller) (nvme : Nvme) : Submission → Nvme
  | .identify cns _ => { nvme with
      identifyBuf := copyBytes nvme.identifyBuf 0
        (if cns = 1 then controller.controllerData else controller.namespaceData) 0
        pageSize }
  | .createCq => nvme
  | .createSq => nvme
  | .io .read block blocks => { nvme with
      bounce := copyBytes nvme.bounce 0 nvme.disk (block <<< nvme.lbaShift)
        (blocks <<< nvme.lbaShift) }
  | .io .write block blocks => { nvme with
      disk := copyBytes nvme.disk (block <<< nvme.lbaShift) nvme.bounce 0
        (blocks <<< nvme.lbaShift) }
  | .flush => nvme

def execute (controller : Controller) (nvme : Nvme) (command : Submission) :
    Bool × Nvme :=
  let started := { nvme with submitted := nvme.submitted ++ [command] }
  match controller.respond nvme.submitted.length with
  | .success => (true, perform controller started command)
  | .failure disk bounce => (false, { started with disk, bounce })
  | .timeout disk bounce => (false, { started with disk, bounce, state := .failed })

def identify (controller : Controller) (nvme : Nvme) (cns nsid : Nat) : Bool × Nvme :=
  execute controller { nvme with identifyBuf := fun _ => 0 } (.identify cns nsid)

def createIoQueues (controller : Controller) (nvme : Nvme) : Bool × Nvme :=
  let (done, nvme) := execute controller nvme .createCq
  if done then execute controller nvme .createSq else (false, nvme)

def loadU32 (memory : Memory) (offset : Nat) : Nat :=
  word fun position => memory (offset + position)

/-- The fields of the identified namespace: the shift and the number of sectors. -/
def namespaceFields (data : Memory) : Option (Nat × Nat) :=
  let nszeLow := loadU32 data 0
  let nszeHigh := loadU32 data 4
  let flbas := (data 26).toNat
  let format := flbas &&& 0x0F
  let format := if (data 25).toNat > 15 then format ||| ((flbas >>> 5) &&& 3) <<< 4 else format
  if flbas &&& 0x10 ≠ 0 ∨ (nszeLow = 0 ∧ nszeHigh = 0) then none
  else
    let lbads := (loadU32 data (128 + format * 4) >>> 16) &&& 0xFF
    if lbads < 9 ∨ lbads > 12 then none
    else
      let diff := lbads - 9
      some (lbads,
        if nszeHigh ≠ 0 ∨ nszeLow > maxSectors >>> diff then maxSectors
        else nszeLow <<< diff)

def readNamespace (controller : Controller) (nvme : Nvme) : Bool × Nvme :=
  let (done, nvme) := identify controller nvme 0 1
  if done then
    match namespaceFields nvme.identifyBuf with
    | none => (false, nvme)
    | some (lbaShift, totalSectors) => (true, { nvme with lbaShift, totalSectors })
  else (false, nvme)

/-- The size of a transfer that the controller allows, from the byte it is told by. -/
def transferLimit (mdts : UInt8) : Nat :=
  if mdts ≠ 0 ∧ mdts < 4 then pageSize <<< mdts.toNat else bounceSize

def controllerInit (controller : Controller) (nvme : Nvme) : Bool × Nvme :=
  if controller.found then
    let (done, nvme) := identify controller nvme 1 0
    if done then
      let nvme := { nvme with maxTransfer := transferLimit (nvme.identifyBuf 77) }
      let (done, nvme) := readNamespace controller nvme
      if done then createIoQueues controller nvme else (false, nvme)
    else (false, nvme)
  else (false, nvme)

def runIo (controller : Controller) (nvme : Nvme) (opcode : IoOpcode)
    (block blocks : Nat) : Bool × Nvme :=
  execute controller nvme (.io opcode block blocks)

def flush (controller : Controller) (nvme : Nvme) : Bool × Nvme :=
  execute controller nvme .flush

inductive Outcome where
  | ok
  | error
  | endless
  deriving DecidableEq

/-- What is left after a transfer. -/
structure Transferred where
  outcome : Outcome
  nvme : Nvme
  buffer : Memory

/-- The variables of one round of the loop in `transfer`. -/
structure Round where
  block : Nat
  offset : Nat
  blocks : Nat
  span : Nat
  isPartial : Bool

def planRound (lbaShift maxTransfer lba count : Nat) : Round :=
  let diff := lbaShift - 9
  let perBlock := 1 <<< diff
  let maxBlocks := maxTransfer >>> lbaShift
  let block := lba >>> diff
  let offset := lba &&& (perBlock - 1)
  let blocks := (offset + count + perBlock - 1) >>> diff
  let blocks := if blocks > maxBlocks then maxBlocks else blocks
  let span := (blocks <<< diff) - offset
  let span := if span > count then count else span
  ⟨block, offset, blocks, span, offset ≠ 0 ∨ span ≠ blocks <<< diff⟩

/-- The commands of a round that writes, and the copy into the bounce buffer. -/
def writeRound (controller : Controller) (nvme : Nvme) (round : Round) (buffer : Memory)
    (position : Nat) : Bool × Nvme :=
  let (done, nvme) :=
    if round.isPartial then runIo controller nvme .read round.block round.blocks
    else (true, nvme)
  if done then
    let nvme := { nvme with
      bounce := copyBytes nvme.bounce (round.offset <<< 9) buffer position
        (round.span <<< 9) }
    runIo controller nvme .write round.block round.blocks
  else (false, nvme)

/-- The loop of `transfer`. The pointer into the buffer is a position in it. -/
def transferLoop (controller : Controller) (write : Bool) :
    (rounds : Nat) → Nvme → (lba count : Nat) → Memory → (position : Nat) → Transferred
  | 0, nvme, _, _, buffer, _ => ⟨.endless, nvme, buffer⟩
  | rounds + 1, nvme, lba, count, buffer, position =>
      if count > 0 then
        let round := planRound nvme.lbaShift nvme.maxTransfer lba count
        if write then
          let (done, nvme) := writeRound controller nvme round buffer position
          if done then
            transferLoop controller write rounds nvme (lba + round.span)
              (count - round.span) buffer (position + round.span <<< 9)
          else ⟨.error, nvme, buffer⟩
        else
          let (done, nvme) := runIo controller nvme .read round.block round.blocks
          if done then
            transferLoop controller write rounds nvme (lba + round.span)
              (count - round.span)
              (copyBytes buffer position nvme.bounce (round.offset <<< 9)
                (round.span <<< 9))
              (position + round.span <<< 9)
          else ⟨.error, nvme, buffer⟩
      else ⟨.ok, nvme, buffer⟩

/-- There are not more rounds than sectors. -/
def transfer (controller : Controller) (nvme : Nvme) (write : Bool) (lba count : Nat)
    (buffer : Memory) : Transferred :=
  if count = 0 ∨ lba ≥ nvme.totalSectors ∨ count > nvme.totalSectors - lba then
    ⟨.error, nvme, buffer⟩
  else transferLoop controller write (count + 1) nvme lba count buffer 0

def nvmeTotalSectors (controller : Controller) (nvme : Nvme) : Nat × Nvme :=
  let nvme :=
    if nvme.state = .untried then
      let (done, nvme) := controllerInit controller nvme
      { nvme with state := if done then .ready else .failed }
    else nvme
  (if nvme.state = .ready then nvme.totalSectors else 0, nvme)

def nvmeReadSectors (controller : Controller) (nvme : Nvme) (lba count : Nat)
    (buffer : Memory) : Transferred :=
  let (total, nvme) := nvmeTotalSectors controller nvme
  if total = 0 then ⟨.error, nvme, buffer⟩
  else transfer controller nvme false lba count buffer

def nvmeWriteSectors (controller : Controller) (nvme : Nvme) (lba count : Nat)
    (buffer : Memory) : Transferred :=
  let (total, nvme) := nvmeTotalSectors controller nvme
  if total = 0 then ⟨.error, nvme, buffer⟩
  else
    let result := transfer controller nvme true lba count buffer
    if result.outcome = .ok then
      let (done, nvme) := flush controller result.nvme
      ⟨if done then .ok else .error, nvme, result.buffer⟩
    else result

end Katela.Drivers
