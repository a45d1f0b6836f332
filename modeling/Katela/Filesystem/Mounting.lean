import Katela.Filesystem.Formatting
import Katela.Filesystem.PublicCalls

/-! # Mounting

A disk that was just formatted is a filesystem without files. `mount_now` takes
the superblock from the disk and starts with an empty cache, so every disk that
holds a filesystem can be mounted again. -/

namespace Katela.Filesystem

/-! ## A filesystem without files -/

/-- Only the directory has a cluster. -/
def freshOwn : Ownership := fun owner =>
  match owner with
  | .root => [1]
  | _ => []

section Fresh

variable {layout : SuperBlock} {shift : Nat} {image : Image}

theorem wordAt_zeroSector (offset : Nat) : zeroSector.wordAt offset = 0 := by
  simp [Block.wordAt, word, Block.byteAt, zeroSector]

theorem Fresh.fatAt_root (fresh : Fresh layout shift image) :
    fatAt image 1 = chainEnd := by
  have here : 1 + 1 / fatPerSector = 1 := by decide
  have offset : 4 * (1 % fatPerSector) = 4 := by decide
  unfold fatAt
  rw [here, offset, fresh.first, rootFat, Block.wordAt_setWordAt_self (by decide),
    Nat.mod_eq_of_lt chainEnd_lt]

theorem Fresh.fatAt_other (fresh : Fresh layout shift image)
    (isFat : layout.fatSectors = layout.clusterCount / fatPerSector + 1)
    {cluster : Nat} (more : 2 ≤ cluster) (inRange : cluster ≤ layout.clusterCount) :
    fatAt image cluster = 0 := by
  have per : fatPerSector = 128 := rfl
  have quotient : cluster / fatPerSector ≤ layout.clusterCount / fatPerSector :=
    Nat.div_le_div_right inRange
  unfold fatAt
  by_cases first : cluster < 128
  · have here : 1 + cluster / fatPerSector = 1 := by
      rw [per]
      omega
    have offset : cluster % fatPerSector = cluster := Nat.mod_eq_of_lt first
    rw [here, offset, fresh.first, rootFat,
      Block.wordAt_setWordAt_other (by omega), wordAt_zeroSector]
  · rw [fresh.fat, wordAt_zeroSector]
    · rw [per]
      omega
    · rw [isFat]
      omega

theorem Fresh.accounted (fresh : Fresh layout shift image)
    (isFat : layout.fatSectors = layout.clusterCount / fatPerSector + 1)
    (nonempty : 1 ≤ layout.clusterCount) (exact : Prop) :
    Accounted exact layout image freshOwn where
  chains :=
    { linked := fun owner => by
        cases owner with
        | root =>
            refine ⟨rfl, ?_⟩
            change linkOf image 1 = none
            unfold linkOf
            rw [fresh.fatAt_root, if_pos rfl]
        | slot => exact Segment.nil_iff.mpr rfl
        | handle => exact Segment.nil_iff.mpr rfl
        | spare => exact Segment.nil_iff.mpr rfl
      apart := fun owner other cell member member' => by
        cases owner with
        | root =>
            cases other with
            | root => rfl
            | slot => cases member'
            | handle => cases member'
            | spare => cases member'
        | slot => cases member
        | handle => cases member
        | spare => cases member }
  bounds owner cluster member := by
    cases owner with
    | root =>
        rw [List.mem_singleton.mp member]
        exact ⟨Nat.le_refl 1, nonempty⟩
    | slot => cases member
    | handle => cases member
    | spare => cases member
  complete _ cluster positive inRange taken := by
    refine ⟨.root, List.mem_singleton.mpr ?_⟩
    by_contra different
    exact taken (fresh.fatAt_other isFat (by omega) inRange)

end Fresh

section FreshFormat

variable {F : Format} {image : Image}

/-- No slot of the new directory is in use. -/
theorem Fresh.not_holds (fresh : Fresh F.sb F.shift image)
    (location : Location) : ¬ Holds F image (freshOwn .root) location := by
  rintro ⟨⟨_, cluster, member, here⟩, used⟩
  rw [List.mem_singleton.mp member] at here
  have inRun : InRun F.sb.dataStart (2 ^ F.shift) location.sector := by
    simpa only [InRun, Format.InCluster, Format.sectorOf, sectorOf, Nat.sub_self,
      Nat.zero_mul, Nat.add_zero] using here
  simp [Used, entryOf, fresh.root _ inRun, entryAt_zeroSector] at used

theorem Fresh.directory (fresh : Fresh F.sb F.shift image)
    (isRoot : F.sb.rootCluster = 1) : Directory F image freshOwn where
  root := by
    rw [isRoot]
    rfl
  first location held := absurd held (fresh.not_holds location)
  size location held := absurd held (fresh.not_holds location)
  vacant _ _ := rfl
  valid location held := absurd held (fresh.not_holds location)
  distinct location _ held := absurd held (fresh.not_holds location)

theorem Fresh.volume (fresh : Fresh F.sb F.shift image) (isRoot : F.sb.rootCluster = 1)
    (label : F.label = F.sb.toSector) : Volume F image freshOwn where
  label := by
    rw [label]
    exact fresh.label
  accounted := fresh.accounted F.geometry.fat
    (F.geometry.root_pos.trans F.geometry.root_le) False
  directory := fresh.directory isRoot

end FreshFormat

/-! ## After formatting -/

section Formatted

variable {total shift : Nat} {s s' : Fs}

theorem Installed.coherent {layout : SuperBlock} (some : 1 ≤ layout.fatSectors)
    (new : Installed layout shift s') : Coherent s' where
  sector := by
    rw [new.cacheSector, new.sb]
    exact Or.inr ⟨Nat.le_refl 1, some⟩
  clean _ _ := by
    rw [new.cacheSector, new.cache]
    exact new.fresh.first.symm
  dirty dirty := by
    rw [new.clean] at dirty
    cases dirty

/-- A filesystem that was just formatted is ready, without files. -/
theorem Installed.ready {past : List (Nat → Sector)}
    (laidOut : LaidOut total shift) (large : 64 ≤ total)
    (small : total < 2 ^ 32 - 2 ^ 19)
    (new : Installed (formatLayout total) shift s')
    (isTotal : s'.total = fsLbaStart + total) (device : s'.diskSectors = s'.total)
    (history : ∀ sectors ∈ s'.history, sectors ∈ past ∨
      Fresh (formatLayout total) shift (volumeOf sectors)) :
    Ready (laidOut.format large small past) (fun _ => False) s' freshOwn := by
  have someFat : 1 ≤ (formatLayout total).fatSectors := by
    rw [laidOut.fat]
    exact Nat.le_add_left 1 _
  have image : s'.image = s'.disk := Fs.image_of_clean new.clean
  have volume : ∀ {image : Image}, Fresh (formatLayout total) shift image →
      Volume (laidOut.format large small past) image freshOwn :=
    fun fresh => Fresh.volume (F := laidOut.format large small past) fresh rfl rfl
  have accounted := new.fresh.accounted laidOut.fat
    (Nat.le_trans (by decide : 1 ≤ 48) laidOut.enough) s'.Quiet
  refine ⟨⟨?_, rfl, fun _ _ => rfl, fun _ _ impossible => impossible.elim⟩,
    fun _ => new.clean, device⟩
  constructor
  case sb => exact new.sb
  case shift => exact new.clusterShift
  case total => exact isTotal
  case mounted => exact new.mounted
  case coherent => exact new.coherent someFat
  case label =>
    rw [image]
    exact new.fresh.label
  case accounted =>
    rw [image]
    exact accounted
  case directory =>
    rw [image]
    exact (volume new.fresh).directory
  case handles =>
    exact ⟨fun _ impossible => impossible.elim, fun _ _ impossible => impossible.elim,
      fun _ _ => rfl⟩
  case disk => exact ⟨freshOwn, volume new.fresh, fun _ member => member⟩
  case history =>
    intro sectors member
    exact (history sectors member).imp_right fun fresh => ⟨freshOwn, volume fresh⟩

/-- A new filesystem stores no file. -/
theorem Fresh.shows {F : Format} (fresh : Fresh F.sb F.shift s.image) :
    Shows F (fun _ => False) s freshOwn .empty where
  contents := by
    funext name
    symm
    apply contentsOf_of_absent
    rintro ⟨location, held, _⟩
    exact fresh.not_holds location held
  handles := by
    funext file
    symm
    exact handleNames_of_not_live id

/-- The state after the size of the disk was taken from the driver. -/
def Fs.sized (s : Fs) : Fs := { s with diskSectors := s.total }

theorem Fs.sized_eq (device : s.diskSectors = s.total) : s.sized = s := by
  cases s
  dsimp only at device
  subst device
  rfl

/-- `fs_format` takes the size of the disk from the driver if it does not know it
yet. -/
theorem fsFormat_spec (device : s.diskSectors = 0 ∨ s.diskSectors = s.total)
    (isWord : s.total < wordSize) :
    Meets fsFormat s
      (fun _ s' => minDiskSectors ≤ s.total ∧ ∃ shift,
        LaidOut (s.total - fsLbaStart) shift ∧
        NewFilesystem (formatLayout (s.total - fsLbaStart)) shift s.sized s')
      fun error s' => s.total < minDiskSectors ∧ s' = s.sized ∨
        error = .io ∧ minDiskSectors ≤ s.total ∧ ∃ shift,
          LaidOut (s.total - fsLbaStart) shift ∧
          FormatFailed (formatLayout (s.total - fsLbaStart)) shift s.sized s' := by
  have isMin : minDiskSectors = 4160 := rfl
  have isStart : fsLbaStart = 4096 := rfl
  have rest : Meets (do
      let s ← get
      require (s.diskSectors ≠ 0) .nodev
      formatNow : FsM Unit) s.sized
      (fun _ s' => minDiskSectors ≤ s.total ∧ ∃ shift,
        LaidOut (s.total - fsLbaStart) shift ∧
        NewFilesystem (formatLayout (s.total - fsLbaStart)) shift s.sized s')
      fun error s' => s.total < minDiskSectors ∧ s' = s.sized ∨
        error = .io ∧ minDiskSectors ≤ s.total ∧ ∃ shift,
          LaidOut (s.total - fsLbaStart) shift ∧
          FormatFailed (formatLayout (s.total - fsLbaStart)) shift s.sized s' := by
    refine .bind (.get (.bind (.require (fun some => ?_) fun none => ?_)))
    · by_cases large : minDiskSectors ≤ s.total
      · have total : 64 ≤ s.total - fsLbaStart := by omega
        rcases formatLayout_laidOut total (Nat.lt_of_le_of_lt (Nat.sub_le _ _) isWord)
          with ⟨shift, laidOut⟩
        refine (formatNow_spec (s := s.sized) large laidOut).mono ?_ ?_
        · exact fun _ s' new => ⟨large, shift, laidOut, new⟩
        · exact fun error s' failed =>
            Or.inr ⟨failed.1, large, shift, laidOut, failed.2⟩
      · unfold formatNow
        refine .bind (.get (.bind (.require (fun large' => absurd large' large)
          fun _ => ?_)))
        exact Or.inl ⟨by omega, rfl⟩
    · have zero : s.total = 0 := Classical.not_not.mp none
      exact Or.inl ⟨by omega, rfl⟩
  unfold fsFormat
  refine .bind (.get (.ite (fun _ => .bind (.modify rest)) fun known => ?_))
  rw [Fs.sized_eq (device.resolve_left known)] at rest ⊢
  exact rest

/-- The start of a run. -/
theorem Formatted.ready (formatted : Formatted s) :
    ∃ F, F.past = [] ∧ F.total ≤ 0x0FFFFFFF ∧ s.history = [] ∧
      Ready F (fun _ => False) s freshOwn ∧
      Shows F (fun _ => False) s freshOwn .empty := by
  rcases formatted with ⟨before, after, small, device, formats, rfl⟩
  have isMin : minDiskSectors = 4160 := rfl
  have isStart : fsLbaStart = 4096 := rfl
  have isWord : before.total < wordSize := by
    simp only [wordSize]
    omega
  rcases (fsFormat_spec device isWord).ok_of_run formats with
    ⟨large, shift, laidOut, new⟩
  have new' : Installed (formatLayout (before.total - fsLbaStart)) shift
      { after with history := [], accesses := [] } :=
    ⟨new.sb, new.clusterShift, new.mounted, new.clean, new.cacheSector, new.cache,
      new.fresh⟩
  have isTotal : after.total = before.total := new.reformats.total
  have isSectors : after.diskSectors = before.total := new.reformats.diskSectors
  refine ⟨laidOut.format (by omega) (by omega) [], rfl, ?_, rfl, ?_, ?_⟩
  · change fsLbaStart + (before.total - fsLbaStart) ≤ 0x0FFFFFFF
    omega
  · refine new'.ready laidOut (by omega) (by omega) ?_ ?_ fun _ impossible =>
      (by cases impossible)
    · change after.total = _
      omega
    · change after.diskSectors = after.total
      omega
  · have image : ({ after with history := [], accesses := [] } : Fs).image = after.disk :=
      Fs.image_of_clean new.clean
    apply Fresh.shows
    rw [image]
    exact new.fresh

/-- A disk of zeros, and the static variables as the program starts. -/
def Fs.blank (total : Nat) : Fs where
  sectors := fun _ => zeroSector
  total := total
  fails := fun _ => false
  transfers := 0
  accesses := []
  history := []
  sb := ⟨0, 0, 0, 0, 0, 0, 0, 0⟩
  mounted := false
  diskSectors := 0
  clusterShift := 0
  nextFree := 1
  fatCacheSector := noSector
  fatDirty := false
  fatCache := zeroSector
  files := fun _ => ⟨0, 0, 0, 0, 0, 0⟩
  iters := fun _ => ⟨0, 0, 0, 0⟩

/-- A blank disk that is not too small can be formatted. -/
theorem blank_formatted :
    ∃ start : Fs, Formatted start ∧ start.Quiet ∧ start.total = minDiskSectors := by
  have spec := @fsFormat_spec (Fs.blank minDiskSectors) (Or.inl rfl) (by decide)
  cases formats : fsFormat (Fs.blank minDiskSectors) with
  | ok value after =>
      rcases spec.ok_of_run formats with ⟨_, _, _, new⟩
      refine ⟨{ after with history := [], accesses := [] }, ⟨Fs.blank minDiskSectors,
        after, (by decide), Or.inl rfl, formats, rfl⟩, fun number => ?_, new.reformats.total⟩
      change after.fails number = false
      rw [new.reformats.fails]
      rfl
  | error error after =>
      rcases spec.error_of_run formats with ⟨small, _⟩ | ⟨_, _, _, _, failed⟩
      · exact absurd small (Nat.lt_irrefl _)
      · exact absurd (fun _ => rfl) failed.loud

end Formatted

/-! ## Mounting -/

/-- The superblock is one that `mount_now` takes. -/
structure Mountable (diskSectors : Nat) (sb : SuperBlock) : Prop where
  magic : sb.magic = magicValue
  version : sb.version = formatVersion
  accepted : superblockCheck diskSectors sb = true

namespace Fs

/-- The state in which `mount_now` reads the superblock. -/
def detached (s : Fs) : Fs :=
  { s with fatCacheSector := noSector, fatDirty := false, nextFree := 1, mounted := false }

/-- The superblock on the disk. -/
def label (s : Fs) : SuperBlock := SuperBlock.ofSector (s.disk 0)

/-- The state after the superblock was read. -/
def labelled (s : Fs) : Fs := s.detached.request 0 none

/-- The state after the disk was mounted. -/
def remounted (s : Fs) : Fs :=
  { s.labelled with
    sb := s.label
    clusterShift := shiftFor s.label.clusterSectors
    mounted := true }

end Fs

section Mounting

variable {s : Fs}

theorem mountNow_spec (s : Fs) :
    Meets mountNow s
      (fun _ s' => Mountable s.diskSectors s.label ∧ s' = s.remounted)
      fun error s' => s' = s.labelled ∧
        (error = .io ∧ ¬ s.Quiet ∨ error = .nofs ∧ s.label.magic ≠ magicValue ∨
          error = .corrupt ∧ s.label.magic = magicValue ∧
            ¬ Mountable s.diskSectors s.label) := by
  unfold mountNow
  refine .bind (.modify ((blockRead_spec s.detached 0).seq ?_ ?_))
  · rintro contents s1 ⟨isContents, rfl⟩
    have decoded : SuperBlock.ofSector contents = s.label := by
      rw [isContents, lbaOf_eq (by decide)]
      rfl
    dsimp only
    rw [decoded]
    refine .bind (.require (fun magic => ?_) fun other =>
      ⟨rfl, Or.inr (Or.inl ⟨rfl, other⟩)⟩)
    refine .bind (.require (fun version => ?_) fun other =>
      ⟨rfl, Or.inr (Or.inr ⟨rfl, magic, fun mountable => other mountable.version⟩)⟩)
    refine .bind (.get (.bind (.require (fun accepted => ?_) fun other =>
      ⟨rfl, Or.inr (Or.inr ⟨rfl, magic, fun mountable => other mountable.accepted⟩)⟩)))
    exact .modify ⟨⟨magic, version, accepted⟩, rfl⟩
  · rintro error s1 ⟨isIo, loud, rfl⟩
    exact ⟨rfl, Or.inl ⟨isIo, loud⟩⟩

/-- Without failing transfers an acceptable superblock is mounted. -/
theorem mountNow_remounts (quiet : s.Quiet) (mountable : Mountable s.diskSectors s.label) :
    mountNow s = .ok () s.remounted := by
  have spec := mountNow_spec s
  cases mounts : mountNow s with
  | ok value s1 =>
      rcases spec.ok_of_run mounts with ⟨_, rfl⟩
      rfl
  | error error s1 =>
      rcases spec.error_of_run mounts with ⟨_, ⟨_, loud⟩ | ⟨_, other⟩ | ⟨_, _, other⟩⟩
      · exact absurd quiet loud
      · exact absurd mountable.magic other
      · exact absurd mountable other

/-- `fs_init` up to the superblock. -/
theorem fsInit_spec {returned : InitResult → Fs → Prop} {failed : FsError → Fs → Prop}
    (large : minDiskSectors ≤ s.total)
    (mounted : Mountable s.total s.label → returned .mounted s.sized.remounted)
    (blank : s.label.magic ≠ magicValue → Meets initBlank s.sized.labelled returned failed)
    (broken : s.label.magic = magicValue → ¬ Mountable s.total s.label →
      failed .corrupt s.sized.labelled)
    (failing : ¬ s.Quiet → failed .io s.sized.labelled) :
    Meets fsInit s returned failed := by
  have isMin : minDiskSectors = 4160 := rfl
  unfold fsInit
  refine .bind (.modify (.bind (.get (.bind (.require (fun _ => ?_) fun zero => ?_)))))
  · refine .bind (.require (fun _ => ?_) fun small => absurd large small)
    refine .bind (.attempt ((mountNow_spec _).mono ?_ ?_))
    · rintro _ s1 ⟨mountable, rfl⟩
      exact .pure (mounted mountable)
    · rintro error s1 ⟨rfl, ⟨rfl, loud⟩ | ⟨rfl, other⟩ | ⟨rfl, magic, other⟩⟩
      · exact .throw (failing loud)
      · exact blank other
      · exact .throw (broken magic other)
  · have zero : s.total = 0 := Classical.not_not.mp zero
    omega

/-! ## Mounting a filesystem -/

variable {F : Format} {live : FileRef → Prop} {own : Ownership}

theorem label_eq (isLabel : s.disk 0 = F.label) : s.label = F.sb := by
  unfold Fs.label
  rw [isLabel]
  exact F.decoded

theorem mountable_of_label (isLabel : s.disk 0 = F.label) (isTotal : s.total = F.total) :
    Mountable s.total s.label := by
  rw [label_eq isLabel, isTotal]
  exact ⟨F.magic, F.version, F.accepted⟩

/-- The chains that the disk shows. -/
def Ownership.shown (own : Ownership) : Ownership := fun owner =>
  match owner with
  | .root => own .root
  | .slot location => own (.slot location)
  | _ => []

theorem Volume.shown {image : Image} (volume : Volume F image own) :
    Volume F image own.shown where
  label := volume.label
  accounted := by
    apply volume.accounted.shrink
    intro owner
    cases owner with
    | root => exact Or.inl rfl
    | slot => exact Or.inl rfl
    | handle => exact Or.inr ⟨rfl, fun impossible => impossible.elim⟩
    | spare => exact Or.inr ⟨rfl, fun impossible => impossible.elim⟩
  directory := volume.directory.congr_slots rfl (fun _ => rfl) fun _ _ => rfl

/-- A mounted filesystem is what the disk says. -/
theorem remounted_ready (isTotal : s.total = F.total) (isLabel : s.disk 0 = F.label)
    (accounted : Accounted s.Quiet F.sb s.disk own) (directory : Directory F s.disk own)
    (handles : Handles F live s.disk own s.files) (spare : own .spare = [])
    (shown : s.Quiet → ∀ file, own (.handle file) = [])
    (synced : s.Quiet → ∀ file, live file →
      (s.files file).first = (entryOf s.disk (s.files file).location).first ∧
        (s.files file).size = (entryOf s.disk (s.files file).location).size)
    (history : ∀ sectors ∈ s.history, sectors ∈ F.past ∨
      ∃ old, Volume F (volumeOf sectors) old) :
    Ready F live s.sized.remounted own := by
  have image : s.sized.remounted.image = s.disk := Fs.image_of_clean rfl
  have isSb : s.label = F.sb := label_eq isLabel
  refine ⟨⟨?_, spare, shown, ?_⟩, fun _ => rfl, rfl⟩
  · constructor
    case sb => exact isSb
    case shift =>
      change shiftFor s.label.clusterSectors = F.shift
      rw [isSb]
      exact F.shifted
    case total => exact isTotal
    case mounted => rfl
    case coherent =>
      exact ⟨Or.inl rfl, fun _ cached => absurd rfl cached,
        fun impossible => (by cases impossible)⟩
    case label =>
      rw [image]
      exact isLabel
    case accounted =>
      rw [image]
      exact accounted
    case directory =>
      rw [image]
      exact directory
    case handles =>
      rw [image]
      exact handles
    case disk =>
      exact ⟨own, ⟨isLabel, accounted.weaken, directory⟩, fun _ member => member⟩
    case history => exact history
  · rw [image]
    exact synced

end Mounting

end Katela.Filesystem
