import Katela.Filesystem.Calls
import Katela.Filesystem.Ownership

/-! # Well-formed filesystems

`Volume` says what a disk must hold to be a filesystem: a directory and files
in disjoint chains. `Inv` is the invariant that all functions keep, also when
transfers fail: what the filesystem sees is a volume, the open files belong to
it, and the disk itself was a volume after every write so far. -/

namespace Katela.Filesystem

/-- A superblock that `mount_now` accepts on a disk of `total` sectors,
together with the sector that holds it and what the disk held before. -/
structure Format where
  sb : SuperBlock
  shift : Nat
  label : Sector
  total : Nat
  geometry : Geometry sb shift
  decoded : SuperBlock.ofSector label = sb
  magic : sb.magic = magicValue
  version : sb.version = formatVersion
  accepted : superblockCheck total sb = true
  shifted : shiftFor sb.clusterSectors = shift
  large : minDiskSectors ≤ total
  past : List (Nat → Sector)

namespace Format

/-- The bytes of a cluster. -/
def clusterBytes (F : Format) : Nat := 2 ^ (F.shift + sectorShift)

/-- The first sector of a cluster. -/
def sectorOf (F : Format) (cluster : Nat) : Nat :=
  Filesystem.sectorOf F.sb F.shift cluster

/-- The sector belongs to the cluster. -/
def InCluster (F : Format) (cluster sector : Nat) : Prop :=
  F.sectorOf cluster ≤ sector ∧ sector < F.sectorOf cluster + 2 ^ F.shift

/-- The slot belongs to a directory with the given chain. -/
def InDir (F : Format) (root : List Nat) (location : Location) : Prop :=
  location.slot < slotsPerSector ∧
    ∃ cluster ∈ root, F.InCluster cluster location.sector

theorem count_lt (F : Format) : F.sb.clusterCount < chainEnd := by
  have fits := F.geometry.fits
  have small := F.geometry.small
  have power : 1 ≤ 2 ^ F.shift := Nat.two_pow_pos F.shift
  have factor : F.sb.clusterCount ≤ F.sb.clusterCount * 2 ^ F.shift :=
    Nat.le_mul_of_pos_right _ power
  simp only [chainEnd, fsLbaStart] at *
  omega

/-- Different clusters have no sector in common. -/
theorem inCluster_unique (F : Format) {cluster other sector : Nat}
    (positive : 1 ≤ cluster) (otherPos : 1 ≤ other)
    (here : F.InCluster cluster sector) (there : F.InCluster other sector) :
    cluster = other := by
  simp only [InCluster, sectorOf, Filesystem.sectorOf] at here there
  by_contra different
  rcases Nat.lt_or_gt_of_ne different with less | less
  · have apart : (cluster - 1 + 1) * 2 ^ F.shift ≤ (other - 1) * 2 ^ F.shift :=
      Nat.mul_le_mul_right _ (by omega)
    rw [Nat.add_mul] at apart
    omega
  · have apart : (other - 1 + 1) * 2 ^ F.shift ≤ (cluster - 1) * 2 ^ F.shift :=
      Nat.mul_le_mul_right _ (by omega)
    rw [Nat.add_mul] at apart
    omega

theorem fat_lt_of_inCluster (F : Format) {cluster sector : Nat}
    (here : F.InCluster cluster sector) : F.sb.fatSectors < sector := by
  have start := F.geometry.start
  simp only [InCluster, sectorOf, Filesystem.sectorOf] at here
  omega

theorem lt_total_of_inCluster (F : Format) {cluster sector : Nat}
    (positive : 1 ≤ cluster) (inRange : cluster ≤ F.sb.clusterCount)
    (here : F.InCluster cluster sector) : sector < F.sb.totalSectors := by
  have lower := here.1
  have upper := here.2
  have offset : sector - F.sectorOf cluster < 2 ^ F.shift := by omega
  have inside := F.geometry.sector_lt inRange positive offset
  simp only [sectorOf] at *
  omega

theorem InDir.mono {F : Format} {root root' : List Nat} {location : Location}
    (inDir : F.InDir root location)
    (more : ∀ cluster ∈ root, cluster ∈ root') : F.InDir root' location := by
  rcases inDir with ⟨slot, cluster, member, here⟩
  exact ⟨slot, cluster, more cluster member, here⟩

/-- The slots of the directory are behind the FAT. -/
theorem InDir.fat_lt {F : Format} {root : List Nat} {location : Location}
    (inDir : F.InDir root location) : F.sb.fatSectors < location.sector := by
  rcases inDir with ⟨_, cluster, _, here⟩
  exact F.fat_lt_of_inCluster here

end Format

/-! ## The directory -/

def entryOf (image : Image) (location : Location) : DirEntry :=
  entryAt (image location.sector) location.slot

theorem entryOf_congr {image image' : Image} {location : Location}
    (same : image' location.sector = image location.sector) :
    entryOf image' location = entryOf image location := by
  simp only [entryOf, same]

def Used (image : Image) (location : Location) : Prop :=
  (entryOf image location).flags % 2 = 1

/-- A slot of the directory that holds a file. -/
structure Holds (F : Format) (image : Image) (root : List Nat)
    (location : Location) : Prop where
  inDir : F.InDir root location
  used : Used image location

structure Directory (F : Format) (image : Image) (own : Ownership) : Prop where
  root : (own .root).head? = some F.sb.rootCluster
  first : ∀ location, Holds F image (own .root) location →
    firstOf (own (.slot location)) = (entryOf image location).first
  size : ∀ location, Holds F image (own .root) location →
    (entryOf image location).size ≤
      (own (.slot location)).length * F.clusterBytes
  vacant : ∀ location, ¬ Holds F image (own .root) location →
    own (.slot location) = []
  valid : ∀ location, Holds F image (own .root) location →
    nameOk (storedName (entryOf image location)) = true
  distinct : ∀ location other, Holds F image (own .root) location →
    Holds F image (own .root) other →
    storedName (entryOf image location) = storedName (entryOf image other) →
    location = other

/-- A disk that holds a filesystem in the given format. -/
structure Volume (F : Format) (image : Image) (own : Ownership) : Prop where
  label : image 0 = F.label
  accounted : Accounted False F.sb image own
  directory : Directory F image own

namespace Directory

variable {F : Format} {image image' : Image} {own own' : Ownership}

theorem holds_congr {root : List Nat} {location : Location}
    (same : F.InDir root location → image' location.sector = image location.sector) :
    Holds F image' root location ↔ Holds F image root location := by
  constructor
  · rintro ⟨inDir, used⟩
    refine ⟨inDir, ?_⟩
    simp only [Used, entryOf, same inDir] at used
    exact used
  · rintro ⟨inDir, used⟩
    refine ⟨inDir, ?_⟩
    simp only [Used, entryOf, same inDir]
    exact used

/-- The directory stays as it is and chains of files change behind their first
clusters. -/
theorem congr (before : Directory F image own)
    (root : own' .root = own .root)
    (same : ∀ location, F.InDir (own .root) location →
      image' location.sector = image location.sector)
    (first : ∀ location, Holds F image (own .root) location →
      firstOf (own' (.slot location)) = firstOf (own (.slot location)))
    (size : ∀ location, Holds F image (own .root) location →
      (entryOf image location).size ≤
        (own' (.slot location)).length * F.clusterBytes)
    (vacant : ∀ location, ¬ Holds F image (own .root) location →
      own' (.slot location) = []) :
    Directory F image' own' := by
  have entries : ∀ location, F.InDir (own .root) location →
      entryOf image' location = entryOf image location := by
    intro location inDir
    simp only [entryOf, same location inDir]
  have holds : ∀ location, Holds F image' (own .root) location ↔
      Holds F image (own .root) location :=
    fun location => holds_congr (same location)
  constructor
  case root => rw [root]; exact before.root
  case first =>
    intro location held
    rw [root, holds] at held
    rw [entries location held.inDir, first location held]
    exact before.first location held
  case size =>
    intro location held
    rw [root, holds] at held
    rw [entries location held.inDir]
    exact size location held
  case vacant =>
    intro location empty
    rw [root, holds] at empty
    exact vacant location empty
  case valid =>
    intro location held
    rw [root, holds] at held
    rw [entries location held.inDir]
    exact before.valid location held
  case distinct =>
    intro location other held held' equal
    rw [root, holds] at held held'
    rw [entries location held.inDir, entries other held'.inDir] at equal
    exact before.distinct location other held held' equal

/-- The directory does not depend on the other owners. -/
theorem congr_slots (before : Directory F image own)
    (root : own' .root = own .root)
    (slots : ∀ location, own' (.slot location) = own (.slot location))
    (same : ∀ location, F.InDir (own .root) location →
      image' location.sector = image location.sector) :
    Directory F image' own' := by
  refine before.congr root same ?_ ?_ ?_
  · intro location _
    rw [slots]
  · intro location held
    rw [slots]
    exact before.size location held
  · intro location empty
    rw [slots]
    exact before.vacant location empty

end Directory

/-! ## Open files -/

def FsFile.location (handle : FsFile) : Location :=
  ⟨handle.dirSector, handle.dirSlot⟩

/-- Who owns the chain of an open file: its slot if the slot shows it. -/
def ownerOf (image : Image) (file : FileRef) (handle : FsFile) : Owner :=
  if handle.first = (entryOf image handle.location).first then
    .slot handle.location
  else .handle file

/-- What holds of an open file that is still in use. -/
structure Open (F : Format) (image : Image) (own : Ownership) (file : FileRef)
    (handle : FsFile) : Prop where
  holds : Holds F image (own .root) handle.location
  first : firstOf (own (ownerOf image file handle)) = handle.first
  shown : ownerOf image file handle = .slot handle.location →
    own (.handle file) = []
  size : handle.size ≤ (own (ownerOf image file handle)).length * F.clusterBytes
  bounded : handle.size < wordSize
  cursor : handle.cursorCluster = 0 ∨
    (own (ownerOf image file handle))[handle.cursorIndex]? =
      some handle.cursorCluster

/-- The open files in use; no file is open twice. -/
structure Handles (F : Format) (live : FileRef → Prop) (image : Image)
    (own : Ownership) (files : FileRef → FsFile) : Prop where
  opened : ∀ file, live file → Open F image own file (files file)
  single : ∀ file other, live file → live other →
    (files file).location = (files other).location → file = other
  closed : ∀ file, ¬ live file → own (.handle file) = []

/-- The parts of an entry that an open file depends on. -/
structure Alike (entry entry' : DirEntry) : Prop where
  first : entry'.first = entry.first
  flags : entry'.flags = entry.flags

theorem alike_of_eq {entry entry' : DirEntry} (equal : entry' = entry) :
    Alike entry entry' := by
  subst equal
  exact ⟨rfl, rfl⟩

theorem ownerOf_congr {image image' : Image} (file : FileRef) {handle : FsFile}
    (alike : Alike (entryOf image handle.location)
      (entryOf image' handle.location)) :
    ownerOf image' file handle = ownerOf image file handle := by
  simp only [ownerOf, alike.first]

/-- The directory entry stays, the chain keeps its clusters and may grow. -/
theorem Open.congr {F : Format} {image image' : Image} {own own' : Ownership}
    {file : FileRef} {handle : FsFile} (before : Open F image own file handle)
    (root : ∀ cluster ∈ own .root, cluster ∈ own' .root)
    (alike : Alike (entryOf image handle.location)
      (entryOf image' handle.location))
    (first : firstOf (own' (ownerOf image file handle)) =
      firstOf (own (ownerOf image file handle)))
    (grows : own (ownerOf image file handle) <+: own' (ownerOf image file handle))
    (shown : ownerOf image file handle = .slot handle.location →
      own' (.handle file) = []) :
    Open F image' own' file handle := by
  have owner := ownerOf_congr file alike
  constructor
  case holds =>
    refine ⟨before.holds.inDir.mono root, ?_⟩
    simp only [Used, alike.flags]
    exact before.holds.used
  case first => rw [owner, first]; exact before.first
  case shown => rw [owner]; exact shown
  case size =>
    rw [owner]
    refine Nat.le_trans before.size ?_
    exact Nat.mul_le_mul_right _ grows.length_le
  case bounded => exact before.bounded
  case cursor =>
    rw [owner]
    rcases before.cursor with none | here
    · exact Or.inl none
    · right
      rcases grows with ⟨more, equal⟩
      rw [← equal, List.getElem?_append_left]
      · exact here
      · exact (List.getElem?_eq_some_iff.mp here).1

/-- The open files do not depend on what the running function holds. -/
theorem Handles.congr {F : Format} {live : FileRef → Prop} {image image' : Image}
    {own own' : Ownership} {files : FileRef → FsFile}
    (before : Handles F live image own files)
    (root : ∀ cluster ∈ own .root, cluster ∈ own' .root)
    (alike : ∀ location, Holds F image (own .root) location →
      Alike (entryOf image location) (entryOf image' location))
    (slots : ∀ location, own' (.slot location) = own (.slot location))
    (handles : ∀ file, own' (.handle file) = own (.handle file)) :
    Handles F live image' own' files where
  opened file isLive := by
    have opened := before.opened file isLive
    have owner : own' (ownerOf image file (files file)) =
        own (ownerOf image file (files file)) := by
      unfold ownerOf
      split
      · exact slots _
      · exact handles file
    refine opened.congr root (alike _ opened.holds) (by rw [owner])
      (by simp only [owner, List.prefix_rfl]) ?_
    intro shown
    rw [handles]
    exact opened.shown shown
  single := before.single
  closed file notLive := by
    rw [handles]
    exact before.closed file notLive

/-! ## The invariant -/

structure Inv (F : Format) (live : FileRef → Prop) (s : Fs) (own : Ownership) :
    Prop where
  sb : s.sb = F.sb
  shift : s.clusterShift = F.shift
  total : s.total = F.total
  mounted : s.mounted = true
  coherent : Coherent s
  label : s.image 0 = F.label
  accounted : Accounted s.Quiet F.sb s.image own
  directory : Directory F s.image own
  handles : Handles F live s.image own s.files
  disk : ∃ old, Volume F s.disk old ∧
    ∀ cluster ∈ old .root, cluster ∈ own .root
  history : ∀ sectors ∈ s.history, sectors ∈ F.past ∨
    ∃ old, Volume F (volumeOf sectors) old

namespace Inv

variable {F : Format} {live : FileRef → Prop} {s s' : Fs} {own own' : Ownership}

theorem geometry (inv : Inv F live s own) : Geometry s.sb s.clusterShift := by
  rw [inv.sb, inv.shift]
  exact F.geometry

theorem volume (inv : Inv F live s own) : Volume F s.image own :=
  ⟨inv.label, inv.accounted.weaken, inv.directory⟩

/-- After a function on the FAT: what it sees must be in order again. -/
theorem moved {image : Image} (inv : Inv F live s own) (moved : Moved s s' image)
    (outside : ∀ sector, sector = 0 ∨ F.sb.fatSectors < sector →
      image sector = s.image sector)
    (accounted : Accounted s.Quiet F.sb image own')
    (directory : Directory F image own')
    (handles : Handles F live image own' s.files)
    (root : ∀ cluster ∈ own .root, cluster ∈ own' .root) :
    Inv F live s' own' where
  sb := moved.same.sb.trans inv.sb
  shift := moved.same.clusterShift.trans inv.shift
  total := moved.same.total.trans inv.total
  mounted := moved.same.mounted.trans inv.mounted
  coherent := moved.coherent
  label := by
    rw [moved.image_eq, outside 0 (Or.inl rfl)]
    exact inv.label
  accounted := by
    rw [moved.image_eq]
    have quiet : s'.Quiet = s.Quiet := by
      simp only [Fs.Quiet, moved.same.fails]
    rw [quiet]
    exact accounted
  directory := by
    rw [moved.image_eq]
    exact directory
  handles := by
    rw [moved.image_eq, moved.files]
    exact handles
  disk := by
    rcases moved.disk with same | flushed
    · rcases inv.disk with ⟨old, volume, less⟩
      refine ⟨old, same ▸ volume, fun cluster member => ?_⟩
      exact root cluster (less cluster member)
    · exact ⟨own, flushed ▸ inv.volume, root⟩
  history sectors member := by
    rcases moved.history sectors member with before | flushed
    · exact inv.history sectors before
    · exact Or.inr ⟨own, flushed ▸ inv.volume⟩

/-- A function on the FAT that leaves the image alone. -/
theorem unmoved (inv : Inv F live s own) (moved : Moved s s' s.image) :
    Inv F live s' own :=
  inv.moved moved (fun _ _ => rfl) inv.accounted inv.directory inv.handles
    fun _ member => member

end Inv

end Katela.Filesystem
