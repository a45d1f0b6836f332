import Mathlib.Logic.Function.Basic
import Katela.Foundation.Bytes
import Katela.Foundation.Program

/-! # The state of the filesystem

The records and static variables of `src/kernel/fs.c` and the disk below it.
The disk driver transfers single sectors; which transfers fail is arbitrary,
and a failed write leaves its sector as it was. Numbers are those of the C
program, so a sum or a difference of 32-bit values is reduced where it can
wrap. -/

namespace Katela.Filesystem

def sectorSize : Nat := 512

def sectorShift : Nat := 9

def fatPerSector : Nat := 128

def chainEnd : Nat := 0xFFFFFFFF

def slotUsed : Nat := 1

def dirEntrySize : Nat := 128

def slotsPerSector : Nat := 4

def targetClusters : Nat := 2 ^ 20

def maxClusterSectors : Nat := 128

def minClusters : Nat := 8

def formatVersion : Nat := 1

def magicValue : Nat := 0x4B465331

def oldMagicValue : Nat := 0x4B41544C

def oldImageSectors : Nat := 10

def oldMaxFiles : Nat := 16

def oldNameSize : Nat := 32

def oldDataSize : Nat := 256

def zeroBatch : Nat := 8

def maxIo : Nat := 0x7FFFFFFF

/-- `FS_LBA_START`: the first sector of the disk that belongs to the
filesystem. -/
def fsLbaStart : Nat := 4096

def minDiskSectors : Nat := fsLbaStart + 64

/-- `NO_SECTOR`: the number that stands for an empty FAT cache. -/
def noSector : Nat := 0xFFFFFFFF

def fsNameMax : Nat := 115

def fsReadAllMax : Nat := 1024 * 1024

/-- The negative results of the functions of the filesystem. -/
inductive FsError where
  | io
  | nodev
  | nofs
  | noent
  | exist
  | nospc
  | name
  | inval
  | corrupt
  | toosmall
  | toobig
  deriving DecidableEq, Repr

/-- A C string, without the NUL that ends it. -/
@[ext] structure CString where
  bytes : List UInt8
  noNul : 0 ∉ bytes
  deriving DecidableEq

/-- `name[index]`. -/
def CString.charAt (name : CString) (index : Nat) : UInt8 :=
  name.bytes.getD index 0

/-! ## Records on the disk -/

abbrev Sector : Type := Block 512

def zeroSector : Sector := fun _ => 0

structure SuperBlock where
  magic : Nat
  version : Nat
  totalSectors : Nat
  clusterSectors : Nat
  clusterCount : Nat
  fatSectors : Nat
  dataStart : Nat
  rootCluster : Nat
  deriving DecidableEq, Repr

def SuperBlock.ofSector (sector : Sector) : SuperBlock where
  magic := sector.wordAt 0
  version := sector.wordAt 4
  totalSectors := sector.wordAt 8
  clusterSectors := sector.wordAt 12
  clusterCount := sector.wordAt 16
  fatSectors := sector.wordAt 20
  dataStart := sector.wordAt 24
  rootCluster := sector.wordAt 28

/-- The sector that holds the superblock followed by zeros. -/
def SuperBlock.toSector (sb : SuperBlock) : Sector :=
  zeroSector
    |>.setWordAt 0 sb.magic
    |>.setWordAt 4 sb.version
    |>.setWordAt 8 sb.totalSectors
    |>.setWordAt 12 sb.clusterSectors
    |>.setWordAt 16 sb.clusterCount
    |>.setWordAt 20 sb.fatSectors
    |>.setWordAt 24 sb.dataStart
    |>.setWordAt 28 sb.rootCluster

@[ext] structure DirEntry where
  name : Block 116
  first : Nat
  size : Nat
  flags : Nat

/-- The entry in one of the four slots of a directory sector. -/
def entryAt (sector : Sector) (slot : Nat) : DirEntry where
  name := fun index => sector.byteAt (dirEntrySize * slot + index)
  first := sector.wordAt (dirEntrySize * slot + 116)
  size := sector.wordAt (dirEntrySize * slot + 120)
  flags := sector.wordAt (dirEntrySize * slot + 124)

/-- The 128 bytes of an entry in memory. -/
def DirEntry.toBytes (entry : DirEntry) (index : Nat) : UInt8 :=
  if index < 116 then entry.name.byteAt index
  else if index < 120 then wordBytes entry.first (index - 116)
  else if index < 124 then wordBytes entry.size (index - 120)
  else wordBytes entry.flags (index - 124)

/-- An entry of which every byte is zero. -/
def DirEntry.zero : DirEntry where
  name := fun _ => 0
  first := 0
  size := 0
  flags := 0

/-- A name copied into a field of zeros. -/
def nameField (name : CString) : Block 116 := fun index => name.charAt index

/-- Where a directory slot is. -/
structure Location where
  sector : Nat
  slot : Nat
  deriving DecidableEq, Repr

/-! ## Records in memory -/

structure FsFile where
  dirSector : Nat
  dirSlot : Nat
  first : Nat
  size : Nat
  cursorIndex : Nat
  cursorCluster : Nat
  deriving DecidableEq, Repr

structure FsIter where
  cluster : Nat
  sector : Nat
  slot : Nat
  steps : Nat
  deriving DecidableEq, Repr

structure FsInfo where
  name : Block 116
  size : Nat

structure FsStats where
  clusterBytes : Nat
  totalClusters : Nat
  freeClusters : Nat
  deriving DecidableEq, Repr

/-- A `struct fs_file *`: memory of a caller, or the local variable of
`fs_read_all` and `fs_write_all`. -/
inductive FileRef where
  | caller (index : Nat)
  | stack
  deriving DecidableEq, Repr

/-- What a sector is written for. -/
inductive Purpose where
  | superblock
  | fat
  | directory
  | data
  deriving DecidableEq, Repr

/-- A transfer that the filesystem asked for: its sector of the disk, what it
was for if it was a write, and the superblock in force at that moment. -/
structure Access where
  lba : Nat
  purpose : Option Purpose
  sb : SuperBlock

/-- The disk and the static variables of the filesystem. -/
structure Fs where
  sectors : Nat → Sector
  /-- What `disk_total_sectors` reports. -/
  total : Nat
  /-- Whether the transfer with a given number fails. -/
  fails : Nat → Bool
  /-- The number of transfers so far. -/
  transfers : Nat
  /-- The transfers so far, the latest first. -/
  accesses : List Access
  /-- The contents of the disk after each write so far, the latest first. -/
  history : List (Nat → Sector)
  sb : SuperBlock
  mounted : Bool
  diskSectors : Nat
  clusterShift : Nat
  nextFree : Nat
  fatCacheSector : Nat
  fatDirty : Bool
  fatCache : Sector
  /-- The memory of the callers that holds open files. -/
  files : FileRef → FsFile
  /-- The memory of the callers that holds directory iterators. -/
  iters : Nat → FsIter

/-- A function that returns an error code and keeps its changes when it
fails. -/
abbrev FsM (α : Type) : Type := EStateM FsError Fs α

namespace Fs

def setFile (s : Fs) (file : FileRef) (change : FsFile → FsFile) : Fs :=
  { s with files := Function.update s.files file (change (s.files file)) }

def setIter (s : Fs) (iter : Nat) (change : FsIter → FsIter) : Fs :=
  { s with iters := Function.update s.iters iter (change (s.iters iter)) }

end Fs

/-! ## The disk -/

/-- `FS_LBA_START + sector`. -/
def lbaOf (sector : Nat) : Nat := (fsLbaStart + sector) % wordSize

/-- The state after a transfer was asked for. -/
def Fs.request (s : Fs) (sector : Nat) (purpose : Option Purpose) : Fs :=
  { s with
    transfers := s.transfers + 1
    accesses := ⟨lbaOf sector, purpose, s.sb⟩ :: s.accesses }

/-- The state after a sector was written. -/
def Fs.store (s : Fs) (sector : Nat) (contents : Sector) : Fs :=
  let sectors := Function.update s.sectors (lbaOf sector) contents
  { s with sectors := sectors, history := sectors :: s.history }

def blockRead (sector : Nat) : FsM Sector := fun s =>
  let requested := s.request sector none
  if s.fails s.transfers then .error .io requested
  else .ok (s.sectors (lbaOf sector)) requested

def blockWrite (purpose : Purpose) (sector : Nat) (contents : Sector) :
    FsM Unit := fun s =>
  let requested := s.request sector (some purpose)
  if s.fails s.transfers then .error .io requested
  else .ok () (requested.store sector contents)

/-- Reads consecutive sectors; an error if any of them cannot be read. -/
def blocksRead : (sector count : Nat) → FsM (List Sector)
  | _, 0 => pure []
  | sector, count + 1 => do
      let first ← attempt (blockRead sector)
      let rest ← attempt (blocksRead (sector + 1) count)
      match first, rest with
      | .ok first, .ok rest => return first :: rest
      | _, _ => throw .io

/-- Writes consecutive sectors. Some of them may have been written when it
fails. -/
def blocksWrite (purpose : Purpose) : (sector : Nat) → List Sector → FsM Unit
  | _, [] => pure ()
  | sector, contents :: others => do
      let first ← attempt (blockWrite purpose sector contents)
      let rest ← attempt (blocksWrite purpose (sector + 1) others)
      match first, rest with
      | .ok _, .ok _ => return
      | _, _ => throw .io

end Katela.Filesystem
