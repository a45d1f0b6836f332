import Mathlib.Data.List.TakeWhile
import Katela.Filesystem.State

/-! # The filesystem

A model of the functions of `src/kernel/fs.c`. A result code is an error of the
monad or a return; where the source looks at a result before it decides what to
do, the model uses `attempt`. Buffers that are read before every use are local
variables here. The heap never returns a null pointer: `kmalloc` panics
instead. -/

namespace Katela.Filesystem

/-! ## The FAT cache -/

def fatSectorsFor (clusters : Nat) : Nat :=
  (clusters + 1 + fatPerSector - 1) % wordSize / fatPerSector

def clusterSector (s : Fs) (cluster : Nat) : Nat :=
  (s.sb.dataStart + (cluster + wordSize - 1) % wordSize * 2 ^ s.clusterShift) %
    wordSize

def fatFlush : FsM Unit := do
  let s ← get
  if s.fatDirty then do
    blockWrite .fat s.fatCacheSector s.fatCache
    modify fun s => { s with fatDirty := false }
  else pure ()

/-- The read of `fat_load`, which empties the cache when it fails. -/
def fatFill (sector : Nat) : FsM Unit := do
  match ← attempt (blockRead sector) with
  | .ok contents =>
      modify fun s => { s with fatCache := contents, fatCacheSector := sector }
  | .error error => do
      modify fun s => { s with fatCacheSector := noSector }
      throw error

def fatLoad (sector : Nat) : FsM Unit := do
  let s ← get
  if s.fatCacheSector = sector then pure ()
  else do
    fatFlush
    fatFill sector

def fatGet (cluster : Nat) : FsM Nat := do
  let s ← get
  require (cluster ≠ 0 ∧ cluster ≤ s.sb.clusterCount) .corrupt
  fatLoad (1 + cluster / fatPerSector)
  let s ← get
  return s.fatCache.wordAt (4 * (cluster % fatPerSector))

def fatSet (cluster value : Nat) : FsM Unit := do
  let s ← get
  require (cluster ≠ 0 ∧ cluster ≤ s.sb.clusterCount) .corrupt
  fatLoad (1 + cluster / fatPerSector)
  modify fun s =>
    { s with
      fatCache := s.fatCache.setWordAt (4 * (cluster % fatPerSector)) value
      fatDirty := true }

/-- The cluster after the given one, or 0 at the end of the chain. -/
def chainNext (cluster : Nat) : FsM Nat := do
  let value ← fatGet cluster
  if value = chainEnd then return 0
  else do
    let s ← get
    require (1 ≤ value ∧ value ≤ s.sb.clusterCount) .corrupt
    return value

/-! ## Clusters -/

/-- The loop of `cluster_alloc`. -/
def allocLoop : (rounds candidate : Nat) → FsM Nat
  | 0, _ => throw .nospc
  | rounds + 1, candidate => do
      let value ← fatGet candidate
      if value = 0 then do
        fatSet candidate chainEnd
        modify fun s => { s with nextFree := candidate + 1 }
        return candidate
      else do
        let s ← get
        allocLoop rounds
          (if candidate + 1 > s.sb.clusterCount then 1 else candidate + 1)

def clusterAlloc : FsM Nat := do
  let s ← get
  allocLoop s.sb.clusterCount
    (if s.nextFree < 1 ∨ s.nextFree > s.sb.clusterCount then 1 else s.nextFree)

def clusterFree (cluster : Nat) : FsM Unit := do
  fatSet cluster 0
  modify fun s =>
    { s with nextFree := if cluster < s.nextFree then cluster else s.nextFree }

/-- The loop of `chain_free`; `left` steps remain before the chain counts as
cyclic. -/
def chainFreeLoop (left cluster : Nat) : FsM Unit :=
  if cluster = 0 then pure ()
  else do
    let next ← chainNext cluster
    clusterFree cluster
    match left with
    | 0 => throw .corrupt
    | left + 1 => chainFreeLoop left next

def chainFree (first : Nat) : FsM Unit := do
  let s ← get
  chainFreeLoop s.sb.clusterCount first

def zeroSectors : (count sector : Nat) → FsM Unit
  | 0, _ => pure ()
  | count + 1, sector => do
      blockWrite .directory sector zeroSector
      zeroSectors count (sector + 1)

def clusterZero (cluster : Nat) : FsM Unit := do
  let s ← get
  zeroSectors (2 ^ s.clusterShift) (clusterSector s cluster)

/-! ## Names -/

/-- The loop of `name_check` over the rest of a name. -/
def nameChars : (length : Nat) → List UInt8 → Bool
  | _, [] => true
  | length, c :: rest =>
      if c ≤ 32 ∨ c = 127 ∨ c = 47 then false
      else if length + 1 > fsNameMax then false
      else nameChars (length + 1) rest

def nameOk (name : CString) : Bool :=
  name.bytes ≠ [] && nameChars 0 name.bytes

/-- `name_check`; a null pointer is `none`. Returns the name it accepts. -/
def nameCheck : Option CString → FsM CString
  | none => throw .name
  | some name => if nameOk name then pure name else throw .name

/-- The loop of `same_name` with `rounds` characters left. -/
def sameNameFrom (stored : Block 116) (name : CString) :
    (rounds index : Nat) → Bool
  | 0, _ => false
  | rounds + 1, index =>
      if stored.byteAt index ≠ name.charAt index then false
      else if name.charAt index = 0 then true
      else sameNameFrom stored name rounds (index + 1)

def sameName (stored : Block 116) (name : CString) : Bool :=
  sameNameFrom stored name (fsNameMax + 1) 0

/-! ## The directory -/

def slotStore (location : Location) (entry : DirEntry) : FsM Unit := do
  fatFlush
  let contents ← blockRead location.sector
  blockWrite .directory location.sector
    (contents.copyInto (location.slot * dirEntrySize) dirEntrySize entry.toBytes)

structure LookupResult where
  found : Option (Location × DirEntry) := none
  free : Option Location := none
  lastCluster : Nat

/-- The slots of one sector, from `slot` on. -/
def scanSlots (name : CString) (contents : Sector) (sector : Nat) :
    (rounds slot : Nat) → LookupResult → LookupResult
  | 0, _, res => res
  | rounds + 1, slot, res =>
      let entry := entryAt contents slot
      if entry.flags % 2 = 0 then
        scanSlots name contents sector rounds (slot + 1)
          { res with free := res.free <|> some ⟨sector, slot⟩ }
      else if sameName entry.name name then
        { res with found := some (⟨sector, slot⟩, entry) }
      else scanSlots name contents sector rounds (slot + 1) res

/-- The sectors of one cluster of the directory. -/
def scanSectors (name : CString) :
    (count sector : Nat) → LookupResult → FsM LookupResult
  | 0, _, res => pure res
  | count + 1, sector, res => do
      let contents ← blockRead sector
      let res := scanSlots name contents sector slotsPerSector 0 res
      if res.found.isSome then return res
      else scanSectors name count (sector + 1) res

def lookupLoop (name : CString) (left cluster : Nat) (res : LookupResult) :
    FsM LookupResult :=
  if cluster = 0 then pure res
  else do
    let s ← get
    let res ← scanSectors name (2 ^ s.clusterShift) (clusterSector s cluster)
      { res with lastCluster := cluster }
    if res.found.isSome then return res
    else do
      let next ← chainNext cluster
      match left with
      | 0 => throw .corrupt
      | left + 1 => lookupLoop name left next res

def dirLookup (name : CString) : FsM LookupResult := do
  let s ← get
  lookupLoop name s.sb.clusterCount s.sb.rootCluster
    { lastCluster := s.sb.rootCluster }

/-- The part of `entry_create` that adds a cluster to the directory. -/
def dirGrow (lastCluster : Nat) : FsM Location := do
  let cluster ← clusterAlloc
  let linked ← attempt do
    clusterZero cluster
    fatSet lastCluster cluster
  match linked with
  | .ok _ => do
      let s ← get
      return ⟨clusterSector s cluster, 0⟩
  | .error error => do
      let _ ← attempt (clusterFree cluster)
      throw error

/-- The entry of a new empty file. -/
def newEntry (name : CString) : DirEntry :=
  { DirEntry.zero with name := nameField name, flags := slotUsed }

def entryCreate (name : CString) (res : LookupResult) :
    FsM (Location × DirEntry) := do
  let target ← match res.free with
    | some location => pure location
    | none => dirGrow res.lastCluster
  slotStore target (newEntry name)
  return (target, newEntry name)

/-! ## Open files -/

def fileSync (file : FileRef) : FsM Unit := do
  fatFlush
  let s ← get
  let handle := s.files file
  let contents ← blockRead handle.dirSector
  blockWrite .directory handle.dirSector
    (contents
      |>.setWordAt (dirEntrySize * handle.dirSlot + 116) handle.first
      |>.setWordAt (dirEntrySize * handle.dirSlot + 120) handle.size)

/-- The step of `file_reach` past the last cluster of a chain. -/
def reachGrow (allocate : Bool) (cluster : Nat) : FsM Nat := do
  require (allocate = true) .corrupt
  let next ← clusterAlloc
  match ← attempt (fatSet cluster next) with
  | .ok _ => return next
  | .error error => do
      let _ ← attempt (clusterFree next)
      throw error

def reachLoop (allocate : Bool) : (steps cluster : Nat) → FsM Nat
  | 0, cluster => pure cluster
  | steps + 1, cluster => do
      let next ← chainNext cluster
      let next ← if next = 0 then reachGrow allocate cluster else pure next
      reachLoop allocate steps next

/-- The part of `file_reach` that gives an empty file its first cluster. -/
def reachFirst (file : FileRef) (allocate : Bool) : FsM Unit := do
  let s ← get
  if (s.files file).first = 0 then do
    require (allocate = true) .corrupt
    let cluster ← clusterAlloc
    modify fun s => s.setFile file fun handle =>
      { handle with first := cluster, cursorCluster := cluster, cursorIndex := 0 }
  else pure ()

/-- Where the walk of `file_reach` starts: a cluster and its index. -/
def FsFile.walkStart (handle : FsFile) (index : Nat) : Nat × Nat :=
  if handle.cursorCluster ≠ 0 ∧ handle.cursorIndex ≤ index then
    (handle.cursorCluster, handle.cursorIndex)
  else (handle.first, 0)

def fileReach (file : FileRef) (index : Nat) (allocate : Bool) : FsM Unit := do
  reachFirst file allocate
  let s ← get
  let start := (s.files file).walkStart index
  let cluster ← reachLoop allocate (index - start.2) start.1
  modify fun s => s.setFile file fun handle =>
    { handle with cursorCluster := cluster, cursorIndex := index }

/-! ## Mounting and formatting -/

def superblockCheck (diskSectors : Nat) (sb : SuperBlock) : Bool :=
  let sectors := sb.clusterSectors
  if sectors = 0 ∨ sectors > maxClusterSectors ∨ sectors &&& (sectors - 1) ≠ 0 then
    false
  else if sb.totalSectors > diskSectors - fsLbaStart then false
  else if sb.clusterCount = 0 ∨ sb.clusterCount > sb.totalSectors / sectors then
    false
  else if sb.fatSectors ≠ fatSectorsFor sb.clusterCount ∨
      sb.dataStart ≠ (1 + sb.fatSectors) % wordSize then false
  else if (sb.dataStart + sb.clusterCount * sectors) % wordSize > sb.totalSectors then
    false
  else if sb.rootCluster < 1 ∨ sb.rootCluster > sb.clusterCount then false
  else true

/-- The loop of `shift_for`. -/
def shiftFrom (sectors : Nat) : (rounds shift : Nat) → Nat
  | 0, shift => shift
  | rounds + 1, shift =>
      if 2 ^ shift < sectors then shiftFrom sectors rounds (shift + 1) else shift

def shiftFor (sectors : Nat) : Nat := shiftFrom sectors 32 0

def mountNow : FsM Unit := do
  modify fun s =>
    { s with
      fatCacheSector := noSector
      fatDirty := false
      nextFree := 1
      mounted := false }
  let contents ← blockRead 0
  let candidate := SuperBlock.ofSector contents
  require (candidate.magic = magicValue) .nofs
  require (candidate.version = formatVersion) .corrupt
  let s ← get
  require (superblockCheck s.diskSectors candidate = true) .corrupt
  modify fun s =>
    { s with
      sb := candidate
      clusterShift := shiftFor candidate.clusterSectors
      mounted := true }

/-- The loop of `format_now` that chooses the sectors of a cluster. -/
def chooseSectors (total : Nat) : (rounds sectors : Nat) → Nat
  | 0, sectors => sectors
  | rounds + 1, sectors =>
      if total / sectors > targetClusters ∧ sectors < maxClusterSectors then
        chooseSectors total rounds (sectors * 2)
      else sectors

/-- The loop of `format_now` that finds a number of clusters for which the FAT
still fits. -/
def fitClusters (total sectors : Nat) : (clusters : Nat) → Nat
  | 0 => 0
  | clusters + 1 =>
      if ((clusters + 1) * sectors + fatSectorsFor (clusters + 1)) % wordSize >
          total - 1 then
        fitClusters total sectors clusters
      else clusters + 1

/-- The superblock of a new filesystem on `total` sectors. -/
def formatLayout (total : Nat) : SuperBlock :=
  let sectors := chooseSectors total 8 1
  let clusters := fitClusters total sectors ((total - 1) / sectors)
  let fat := fatSectorsFor clusters
  { magic := magicValue
    version := formatVersion
    totalSectors := total
    clusterSectors := sectors
    clusterCount := clusters
    fatSectors := fat
    dataStart := 1 + fat
    rootCluster := 1 }

/-- The loop of `format_now` that erases the FAT, from its sector `index`
on. -/
def eraseFat (fat : Nat) : (rounds index : Nat) → FsM Unit
  | 0, _ => pure ()
  | rounds + 1, index =>
      if index < fat then do
        blocksWrite .fat (1 + index)
          (List.replicate (min (fat - index) zeroBatch) zeroSector)
        eraseFat fat rounds (index + zeroBatch)
      else pure ()

/-- The part of `format_now` after the FAT is erased. -/
def formatRoot : FsM Unit := do
  let s ← get
  fatSet s.sb.rootCluster chainEnd
  clusterZero s.sb.rootCluster
  fatFlush
  blockWrite .superblock 0 s.sb.toSector

def formatNow : FsM Unit := do
  let s ← get
  require (minDiskSectors ≤ s.diskSectors) .toosmall
  let layout := formatLayout (s.diskSectors - fsLbaStart)
  require (minClusters ≤ layout.clusterCount) .toosmall
  modify fun s =>
    { s with
      mounted := false
      fatCacheSector := noSector
      fatDirty := false
      nextFree := 1
      sb := layout
      clusterShift := shiftFor layout.clusterSectors }
  eraseFat layout.fatSectors layout.fatSectors 0
  modify fun s => { s with mounted := true }
  match ← attempt formatRoot with
  | .ok _ => pure ()
  | .error error => do
      modify fun s => { s with mounted := false }
      throw error

def fsFormat : FsM Unit := do
  let s ← get
  if s.diskSectors = 0 then modify fun s => { s with diskSectors := s.total }
  else pure ()
  let s ← get
  require (s.diskSectors ≠ 0) .nodev
  formatNow

/-! ## Files by name -/

/-- `finish`: the cache is written back after a call, and the call fails if
that fails. -/
def finish (call : FsM α) : FsM α := do
  let result ← attempt call
  let flushed ← attempt fatFlush
  match result, flushed with
  | .error error, _ => throw error
  | .ok value, .ok _ => return value
  | .ok _, .error error => throw error

def requireMounted : FsM Unit := do
  let s ← get
  require (s.mounted = true) .nofs

def createImpl (name : Option CString) : FsM Unit := do
  requireMounted
  let name ← nameCheck name
  let res ← dirLookup name
  require (res.found.isNone = true) .exist
  let _ ← entryCreate name res

def removeImpl (name : Option CString) : FsM Unit := do
  requireMounted
  let name ← nameCheck name
  let res ← dirLookup name
  match res.found with
  | none => throw .noent
  | some (location, entry) => do
      slotStore location DirEntry.zero
      chainFree entry.first

def fsRename (source target : Option CString) : FsM Unit := do
  requireMounted
  let source ← nameCheck source
  let target ← nameCheck target
  let res ← dirLookup target
  require (res.found.isNone = true) .exist
  let res ← dirLookup source
  match res.found with
  | none => throw .noent
  | some (location, entry) =>
      slotStore location { entry with name := nameField target }

/-- The part of `open_impl` that fills in the handle. -/
def openAt (file : FileRef) (location : Location) (entry : DirEntry) :
    FsM Unit :=
  modify fun s => s.setFile file fun _ =>
    { dirSector := location.sector
      dirSlot := location.slot
      first := entry.first
      size := entry.size
      cursorIndex := 0
      cursorCluster := entry.first }

def openImpl (name : Option CString) (file : FileRef) (create : Bool) :
    FsM Unit := do
  requireMounted
  let name ← nameCheck name
  let res ← dirLookup name
  match res.found with
  | some (location, entry) => openAt file location entry
  | none => do
      require (create = true) .noent
      let (location, entry) ← entryCreate name res
      openAt file location entry

def fsCreate (name : Option CString) : FsM Unit := finish (createImpl name)

def fsRemove (name : Option CString) : FsM Unit := finish (removeImpl name)

def fsOpen (name : Option CString) (file : FileRef) (create : Bool) : FsM Unit :=
  finish (openImpl name file create)

/-! ## Contents of files -/

/-- The bytes of a cluster. -/
def clusterBytes (s : Fs) : Nat := 2 ^ (s.clusterShift + sectorShift)

/-- The sector of the cluster under the cursor that holds a position. -/
def cursorSector (s : Fs) (file : FileRef) (position : Nat) : Nat :=
  clusterSector s (s.files file).cursorCluster +
    position % clusterBytes s / sectorSize

/-- How many whole sectors of the cluster a transfer at `position` covers. -/
def wholeSectors (s : Fs) (position remaining : Nat) : Nat :=
  min (remaining / sectorSize)
    (2 ^ s.clusterShift - position % clusterBytes s / sectorSize)

/-- How many bytes of one sector a transfer at `position` covers. -/
def chunkLength (position remaining : Nat) : Nat :=
  min (sectorSize - position % sectorSize) remaining

/-- One round of the loop of `fs_read`: the bytes it delivers. -/
def readRound (file : FileRef) (position remaining : Nat) : FsM (List UInt8) := do
  let s ← get
  fileReach file (position / clusterBytes s) false
  let s ← get
  if position % sectorSize = 0 ∧ remaining ≥ sectorSize then do
    let sectors := wholeSectors s position remaining
    let blocks ← blocksRead (cursorSector s file position) sectors
    return (List.range (sectors * sectorSize)).map fun index =>
      (blocks.getD (index / sectorSize) zeroSector).byteAt (index % sectorSize)
  else do
    let block ← blockRead (cursorSector s file position)
    return (List.range (chunkLength position remaining)).map fun index =>
      block.byteAt (position % sectorSize + index)

/-- The loop of `fs_read`. Every round delivers a byte, so `count` rounds are
enough. -/
def readLoop (file : FileRef) (offset count : Nat) :
    (rounds : Nat) → List UInt8 → FsM (List UInt8)
  | 0, out => pure out
  | rounds + 1, out =>
      if out.length < count then do
        match ← attempt
            (readRound file (offset + out.length) (count - out.length)) with
        | .ok bytes => readLoop file offset count rounds (out ++ bytes)
        | .error error => if out.length > 0 then return out else throw error
      else pure out

/-- `fs_read`; the result code is the number of bytes. -/
def fsRead (file : FileRef) (offset count : Nat) : FsM (List UInt8) := do
  requireMounted
  let s ← get
  let size := (s.files file).size
  if offset ≥ size ∨ count = 0 then return []
  else
    let count := min (min count maxIo) (size - offset)
    readLoop file offset count count []

/-- One round of the loop of `write_impl`: the number of bytes it stores. -/
def writeRound (file : FileRef) (position : Nat) (source : Nat → UInt8)
    (remaining : Nat) : FsM Nat := do
  let s ← get
  fileReach file (position / clusterBytes s) true
  let s ← get
  let sector := cursorSector s file position
  if position % sectorSize = 0 ∧ remaining ≥ sectorSize then do
    let sectors := wholeSectors s position remaining
    blocksWrite .data sector ((List.range sectors).map fun index =>
      fun byte => source (index * sectorSize + byte))
    return sectors * sectorSize
  else do
    let length := chunkLength position remaining
    let block ← blockRead sector
    blockWrite .data sector (block.copyInto (position % sectorSize) length source)
    return length

/-- The loop of `write_impl`: the number of bytes stored, and the error that
ended the loop if there was one. -/
def writeLoop (file : FileRef) (offset : Nat) (source : Nat → UInt8)
    (count : Nat) : (rounds done : Nat) → FsM (Nat × Option FsError)
  | 0, done => pure (done, none)
  | rounds + 1, done =>
      if done < count then do
        match ← attempt (writeRound file (offset + done)
            (fun index => source (done + index)) (count - done)) with
        | .ok stored => writeLoop file offset source count rounds (done + stored)
        | .error error => return (done, some error)
      else pure (done, none)

/-- The part of `write_impl` after its loop: the handle takes the new size and
is stored if it changed. -/
def writeEnd (file : FileRef) (old : FsFile) (offset done : Nat) : FsM Unit := do
  modify fun s => s.setFile file fun handle =>
    if done > 0 ∧ offset + done > handle.size then
      { handle with size := offset + done }
    else handle
  let s ← get
  if (s.files file).first ≠ old.first ∨ (s.files file).size ≠ old.size then
    fileSync file
  else pure ()

/-- `write_impl`; `buffer` is the memory behind the pointer. -/
def writeImpl (file : FileRef) (offset : Nat) (buffer : Nat → UInt8)
    (count : Nat) : FsM Nat := do
  requireMounted
  let s ← get
  let old := s.files file
  require (offset ≤ old.size) .inval
  let count := min (min count maxIo) (0xFFFFFFFF - offset)
  if count = 0 then return 0
  else do
    let (done, status) ← writeLoop file offset buffer count count 0
    writeEnd file old offset done
    match status with
    | some error => if done > 0 then return done else throw error
    | none => return done

def fsWrite (file : FileRef) (offset : Nat) (buffer : Nat → UInt8)
    (count : Nat) : FsM Nat :=
  finish (writeImpl file offset buffer count)

/-- The branch of `truncate_impl` that keeps no cluster. -/
def truncateAll (file : FileRef) : FsM Unit := do
  let s ← get
  let tail := (s.files file).first
  modify fun s => s.setFile file fun handle =>
    { handle with first := 0, size := 0, cursorIndex := 0, cursorCluster := 0 }
  fileSync file
  chainFree tail

/-- The branch of `truncate_impl` that keeps the first `keep` clusters. -/
def truncateTo (file : FileRef) (size keep : Nat) : FsM Unit := do
  fileReach file (keep - 1) false
  let s ← get
  let last := (s.files file).cursorCluster
  let tail ← chainNext last
  modify fun s => s.setFile file fun handle =>
    { handle with size := size, cursorIndex := 0, cursorCluster := handle.first }
  fileSync file
  if tail = 0 then pure ()
  else do
    fatSet last chainEnd
    chainFree tail

def truncateImpl (file : FileRef) (size : Nat) : FsM Unit := do
  requireMounted
  let s ← get
  let handle := s.files file
  if size = handle.size then pure ()
  else do
    require (size ≤ handle.size) .inval
    let keep := size / clusterBytes s +
      (if size % clusterBytes s ≠ 0 then 1 else 0)
    if keep = 0 then truncateAll file
    else truncateTo file size keep

def fsTruncate (file : FileRef) (size : Nat) : FsM Unit :=
  finish (truncateImpl file size)

/-- The loop of `fs_read_all`. -/
def readAllLoop (size : Nat) : (rounds : Nat) → List UInt8 → FsM (List UInt8)
  | 0, out => pure out
  | rounds + 1, out =>
      if out.length < size then do
        let bytes ← fsRead .stack out.length (size - out.length)
        require (bytes ≠ []) .io
        readAllLoop size rounds (out ++ bytes)
      else pure out

def fsReadAll (name : Option CString) : FsM (List UInt8) := do
  fsOpen name .stack false
  let s ← get
  let size := (s.files .stack).size
  require (size ≤ fsReadAllMax) .toobig
  readAllLoop size size []

/-- The loop of `fs_write_all`. -/
def writeAllLoop (buffer : Nat → UInt8) (size : Nat) :
    (rounds written : Nat) → FsM Unit
  | 0, _ => pure ()
  | rounds + 1, written =>
      if written < size then do
        let stored ← fsWrite .stack written (fun index => buffer (written + index))
          (size - written)
        require (stored ≠ 0) .io
        writeAllLoop buffer size rounds (written + stored)
      else pure ()

def fsWriteAll (name : Option CString) (buffer : Nat → UInt8) (size : Nat) :
    FsM Unit := do
  fsOpen name .stack true
  fsTruncate .stack 0
  writeAllLoop buffer size size 0

/-! ## Starting up -/

/-- `old_image_load`: the bytes of an image in the old format. -/
def oldImageLoad : FsM (Option (Nat → UInt8)) := do
  let blocks ← blocksRead 0 oldImageSectors
  let image : Nat → UInt8 := fun index =>
    (blocks.getD (index / sectorSize) zeroSector).byteAt (index % sectorSize)
  if word image ≠ oldMagicValue ∨
      word (fun index => image (4 + index)) > oldMaxFiles then
    return none
  else return some image

/-- The string that starts at `memory` and has at most `limit` characters. -/
def boundedString (memory : Nat → UInt8) (limit : Nat) : CString where
  bytes := ((List.range limit).map memory).takeWhile (· ≠ 0)
  noNul member := by
    have nonzero := List.mem_takeWhile_imp member
    simp at nonzero

/-- The loop of `old_image_import`. -/
def importLoop (image : Nat → UInt8) : (rounds record : Nat) → FsM Unit
  | 0, _ => pure ()
  | rounds + 1, record => do
      let name := boundedString (fun index => image (record + index)) oldNameSize
      let content : Nat → UInt8 := fun index =>
        image (record + oldNameSize + index)
      let length := (boundedString content oldDataSize).bytes.length
      if nameOk name then do
        let _ ← attempt (fsWriteAll (some name) content length)
      else pure ()
      importLoop image rounds (record + oldNameSize + oldDataSize)

def oldImageImport (image : Nat → UInt8) : FsM Unit :=
  importLoop image (word fun index => image (4 + index)) 8

/-- The results of `fs_init` that are not errors. -/
inductive InitResult where
  | mounted
  | formatted
  | migrated
  deriving DecidableEq, Repr

/-- The part of `fs_init` for a disk without a filesystem. -/
def initBlank : FsM InitResult := do
  let old ← oldImageLoad
  formatNow
  match old with
  | none => return .formatted
  | some image => do
      oldImageImport image
      return .migrated

def fsInit : FsM InitResult := do
  modify fun s =>
    { s with
      mounted := false
      fatCacheSector := noSector
      fatDirty := false
      diskSectors := s.total }
  let s ← get
  require (s.diskSectors ≠ 0) .nodev
  require (minDiskSectors ≤ s.diskSectors) .toosmall
  match ← attempt mountNow with
  | .ok _ => return .mounted
  | .error .nofs => initBlank
  | .error error => throw error

/-! ## Listing and usage -/

def fsIterBegin (iter : Nat) : FsM Unit :=
  modify fun s => s.setIter iter fun _ =>
    { cluster := if s.mounted then s.sb.rootCluster else 0
      sector := 0
      slot := 0
      steps := 0 }

/-- The first used slot of a directory sector, from `slot` on. -/
def nextUsed (contents : Sector) : (rounds slot : Nat) → Option Nat
  | 0, _ => none
  | rounds + 1, slot =>
      if (entryAt contents slot).flags % 2 = 1 then some slot
      else nextUsed contents rounds (slot + 1)

/-- The step of `fs_iter_next` to the next sector of the directory. -/
def iterAdvance (iter : Nat) : FsM Unit := do
  modify fun s => s.setIter iter fun it =>
    { it with slot := 0, sector := it.sector + 1 }
  let s ← get
  if (s.iters iter).sector ≥ 2 ^ s.clusterShift then do
    modify fun s => s.setIter iter fun it => { it with sector := 0 }
    let next ← chainNext (s.iters iter).cluster
    modify fun s => s.setIter iter fun it =>
      { it with cluster := next, steps := it.steps + 1 }
    let s ← get
    require ((s.iters iter).steps ≤ s.sb.clusterCount) .corrupt
  else pure ()

/-- The entry that `fs_iter_next` reports. The copy of a name always ends in
NUL. -/
def infoOf (entry : DirEntry) : FsInfo where
  name := fun index => if index.val = fsNameMax then 0 else entry.name index
  size := entry.size

/-- The loop of `fs_iter_next`. -/
def iterLoop (iter : Nat) : (rounds : Nat) → FsM (Option FsInfo)
  | 0 => pure none
  | rounds + 1 => do
      let s ← get
      let it := s.iters iter
      if it.cluster = 0 then return none
      else do
        let contents ← blockRead (clusterSector s it.cluster + it.sector)
        match nextUsed contents (slotsPerSector - it.slot) it.slot with
        | some slot => do
            modify fun s => s.setIter iter fun it => { it with slot := slot + 1 }
            return some (infoOf (entryAt contents slot))
        | none => do
            iterAdvance iter
            iterLoop iter rounds

/-- Every round but the last goes on to another sector of the directory, and
after `cluster_count` clusters the loop gives up. -/
def iterRounds (s : Fs) : Nat := (s.sb.clusterCount + 1) * 2 ^ s.clusterShift + 1

/-- `fs_iter_next`: the next file, or `none` for the result 0. -/
def fsIterNext (iter : Nat) : FsM (Option FsInfo) := do
  requireMounted
  let s ← get
  iterLoop iter (iterRounds s)

/-- The free clusters whose entries are in one sector of the FAT. -/
def freeInSector (sb : SuperBlock) (contents : Sector) (index : Nat) : Nat :=
  ((List.range fatPerSector).filter fun entry =>
    1 ≤ index * fatPerSector + entry ∧
      index * fatPerSector + entry ≤ sb.clusterCount ∧
      contents.wordAt (4 * entry) = 0).length

/-- The loop of `fs_usage`. -/
def usageLoop : (rounds index count : Nat) → FsM Nat
  | 0, _, count => pure count
  | rounds + 1, index, count => do
      fatLoad (1 + index)
      let s ← get
      usageLoop rounds (index + 1) (count + freeInSector s.sb s.fatCache index)

def fsUsage : FsM FsStats := do
  requireMounted
  let s ← get
  let free ← usageLoop s.sb.fatSectors 0 0
  return { clusterBytes := sectorSize * 2 ^ s.clusterShift
           totalClusters := s.sb.clusterCount
           freeClusters := free }

end Katela.Filesystem
