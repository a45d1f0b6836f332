import Katela.Filesystem.Model

/-! # The disk behind the FAT cache

The filesystem sees the disk through one cached sector of the FAT. `image` is
what it sees; the disk itself differs from it in at most that sector. Every
function on the FAT is described by what it does to the image. -/

namespace Katela.Filesystem

/-- The sectors of the filesystem, numbered from its superblock. -/
abbrev Image : Type := Nat → Sector

/-- The part of a disk that belongs to the filesystem. -/
def volumeOf (sectors : Nat → Sector) : Image :=
  fun sector => sectors (fsLbaStart + sector)

namespace Fs

def disk (s : Fs) : Image := volumeOf s.sectors

def image (s : Fs) : Image :=
  if s.fatDirty then Function.update s.disk s.fatCacheSector s.fatCache
  else s.disk

/-- No transfer fails. -/
def Quiet (s : Fs) : Prop := ∀ number, s.fails number = false

end Fs

/-- The entry of a cluster in the FAT. -/
def fatAt (image : Image) (cluster : Nat) : Nat :=
  (image (1 + cluster / fatPerSector)).wordAt (4 * (cluster % fatPerSector))

def setFat (image : Image) (cluster value : Nat) : Image :=
  Function.update image (1 + cluster / fatPerSector)
    ((image (1 + cluster / fatPerSector)).setWordAt
      (4 * (cluster % fatPerSector)) value)

theorem fatAt_setFat_self (image : Image) (cluster : Nat) {value : Nat}
    (bounded : value < wordSize) :
    fatAt (setFat image cluster value) cluster = value := by
  have small : cluster % fatPerSector < 128 := Nat.mod_lt _ (by decide)
  simp only [fatAt, setFat, Function.update_self]
  rw [Block.wordAt_setWordAt_self (by omega), Nat.mod_eq_of_lt bounded]

theorem fatAt_setFat_other (image : Image) {cluster other value : Nat}
    (different : other ≠ cluster) :
    fatAt (setFat image cluster value) other = fatAt image other := by
  by_cases same : 1 + other / fatPerSector = 1 + cluster / fatPerSector
  · simp only [fatAt, setFat, same, Function.update_self]
    apply Block.wordAt_setWordAt_other
    have split := Nat.div_add_mod other fatPerSector
    have split' := Nat.div_add_mod cluster fatPerSector
    simp only [fatPerSector] at *
    omega
  · simp only [fatAt, setFat, ne_eq, same, not_false_eq_true,
      Function.update_of_ne]

theorem setFat_of_ne (image : Image) {cluster value sector : Nat}
    (elsewhere : sector ≠ 1 + cluster / fatPerSector) :
    setFat image cluster value sector = image sector :=
  Function.update_of_ne elsewhere _ _

/-! ## Layouts that fit the disk -/

/-- The FAT has an entry for every cluster, in sectors that have 32-bit numbers. -/
structure FatFits (sb : SuperBlock) : Prop where
  fat : sb.fatSectors = sb.clusterCount / fatPerSector + 1
  small : fsLbaStart + sb.fatSectors < 0xFFFFFFFF

namespace FatFits

variable {sb : SuperBlock} {cluster sector : Nat}

theorem fatSector_le (fits : FatFits sb) (inRange : cluster ≤ sb.clusterCount) :
    1 + cluster / fatPerSector ≤ sb.fatSectors := by
  have fat := fits.fat
  have mono := Nat.div_le_div_right (c := fatPerSector) inRange
  omega

theorem lba_eq (fits : FatFits sb) (inFat : sector ≤ sb.fatSectors) :
    lbaOf sector = fsLbaStart + sector := by
  have small := fits.small
  apply Nat.mod_eq_of_lt
  simp only [wordSize]
  omega

theorem ne_noSector (fits : FatFits sb) (inFat : sector ≤ sb.fatSectors) :
    sector ≠ noSector := by
  have small := fits.small
  simp only [noSector]
  omega

end FatFits

/-- The superblock in force describes a filesystem that fits a disk whose sectors
have 32-bit numbers. -/
structure Geometry (sb : SuperBlock) (shift : Nat) : Prop where
  sectors : sb.clusterSectors = 2 ^ shift
  shift_le : shift ≤ 7
  fat : sb.fatSectors = sb.clusterCount / fatPerSector + 1
  start : sb.dataStart = 1 + sb.fatSectors
  fits : sb.dataStart + sb.clusterCount * 2 ^ shift ≤ sb.totalSectors
  small : fsLbaStart + sb.totalSectors ≤ 0xFFFFFFFF
  root_pos : 1 ≤ sb.rootCluster
  root_le : sb.rootCluster ≤ sb.clusterCount

/-- The first sector of a cluster. -/
def sectorOf (sb : SuperBlock) (shift cluster : Nat) : Nat :=
  sb.dataStart + (cluster - 1) * 2 ^ shift

namespace Geometry

variable {sb : SuperBlock} {shift cluster sector : Nat}

theorem sector_lt (geometry : Geometry sb shift)
    (inRange : cluster ≤ sb.clusterCount) (positive : 1 ≤ cluster)
    (inCluster : sector < 2 ^ shift) :
    sectorOf sb shift cluster + sector < sb.totalSectors := by
  have fits := geometry.fits
  have inside : (cluster - 1) * 2 ^ shift + 2 ^ shift ≤
      sb.clusterCount * 2 ^ shift := by
    calc (cluster - 1) * 2 ^ shift + 2 ^ shift = (cluster - 1 + 1) * 2 ^ shift := by
          rw [Nat.add_mul, Nat.one_mul]
      _ ≤ sb.clusterCount * 2 ^ shift :=
          Nat.mul_le_mul_right _ (by omega)
  simp only [sectorOf]
  omega

theorem lba_eq (geometry : Geometry sb shift)
    (inRange : sector < sb.totalSectors) :
    lbaOf sector = fsLbaStart + sector := by
  have small := geometry.small
  apply Nat.mod_eq_of_lt
  simp only [wordSize]
  omega

theorem fat_lt_total (geometry : Geometry sb shift)
    (inFat : sector ≤ sb.fatSectors) : sector < sb.totalSectors := by
  have start := geometry.start
  have fits := geometry.fits
  have root := geometry.root_pos
  have count := geometry.root_le
  have power : 0 < 2 ^ shift := Nat.two_pow_pos shift
  have product : 0 < sb.clusterCount * 2 ^ shift :=
    Nat.mul_pos (by omega) power
  omega

theorem fatFits (geometry : Geometry sb shift) : FatFits sb where
  fat := geometry.fat
  small := by
    have bounded := geometry.fat_lt_total (Nat.le_refl _)
    have small := geometry.small
    omega

end Geometry

theorem clusterSector_eq {s : Fs} (geometry : Geometry s.sb s.clusterShift)
    {cluster : Nat} (positive : 1 ≤ cluster)
    (inRange : cluster ≤ s.sb.clusterCount) :
    clusterSector s cluster = sectorOf s.sb s.clusterShift cluster := by
  have inside := geometry.sector_lt inRange positive
    (Nat.two_pow_pos s.clusterShift)
  have small := geometry.small
  have power : 1 ≤ 2 ^ s.clusterShift := Nat.two_pow_pos s.clusterShift
  have factor : s.sb.clusterCount ≤ s.sb.clusterCount * 2 ^ s.clusterShift :=
    Nat.le_mul_of_pos_right _ power
  have fits := geometry.fits
  have before : (cluster + wordSize - 1) % wordSize = cluster - 1 := by
    simp only [wordSize]
    omega
  simp only [clusterSector, before]
  apply Nat.mod_eq_of_lt
  simp only [sectorOf, wordSize] at *
  omega

/-! ## Coherence -/

/-- The cache holds a sector of the FAT, and the one on the disk unless it is
dirty. -/
structure Coherent (s : Fs) : Prop where
  sector : s.fatCacheSector = noSector ∨
    1 ≤ s.fatCacheSector ∧ s.fatCacheSector ≤ s.sb.fatSectors
  clean : s.fatDirty = false → s.fatCacheSector ≠ noSector →
    s.fatCache = s.disk s.fatCacheSector
  dirty : s.fatDirty = true → s.fatCacheSector ≠ noSector

/-- The variables that no function on the FAT changes. What was written to the disk before
stays on record. -/
structure Same (s s' : Fs) : Prop where
  sb : s'.sb = s.sb
  mounted : s'.mounted = s.mounted
  diskSectors : s'.diskSectors = s.diskSectors
  clusterShift : s'.clusterShift = s.clusterShift
  total : s'.total = s.total
  fails : s'.fails = s.fails
  grows : s.history <:+ s'.history

namespace Same

variable {s s' s'' : Fs}

theorem refl (s : Fs) : Same s s := ⟨rfl, rfl, rfl, rfl, rfl, rfl, List.suffix_refl _⟩

theorem trans (first : Same s s') (second : Same s' s'') : Same s s'' where
  sb := second.sb.trans first.sb
  mounted := second.mounted.trans first.mounted
  diskSectors := second.diskSectors.trans first.diskSectors
  clusterShift := second.clusterShift.trans first.clusterShift
  total := second.total.trans first.total
  fails := second.fails.trans first.fails
  grows := first.grows.trans second.grows

theorem geometry (same : Same s s') (before : Geometry s.sb s.clusterShift) :
    Geometry s'.sb s'.clusterShift := by
  rw [same.sb, same.clusterShift]
  exact before

theorem fatFits (same : Same s s') (before : FatFits s.sb) : FatFits s'.sb := by
  rw [same.sb]
  exact before

theorem quiet (same : Same s s') (quiet : s.Quiet) : s'.Quiet := by
  unfold Fs.Quiet
  rw [same.fails]
  exact quiet

theorem not_quiet (same : Same s s') (loud : ¬ s'.Quiet) : ¬ s.Quiet :=
  fun quiet => loud (same.quiet quiet)

theorem quiet_before (same : Same s s') (quiet : s'.Quiet) : s.Quiet := by
  unfold Fs.Quiet at quiet
  rw [same.fails] at quiet
  exact quiet

theorem clusterSector (same : Same s s') (cluster : Nat) :
    clusterSector s' cluster = clusterSector s cluster := by
  simp only [Filesystem.clusterSector, same.sb, same.clusterShift]

end Same

/-- The memory of the callers stayed as well. -/
structure Still (s s' : Fs) : Prop where
  same : Same s s'
  files : s'.files = s.files
  iters : s'.iters = s.iters

theorem Still.refl (s : Fs) : Still s s := ⟨.refl s, rfl, rfl⟩

theorem Still.trans {s s' s'' : Fs} (first : Still s s') (second : Still s' s'') :
    Still s s'' where
  same := first.same.trans second.same
  files := second.files.trans first.files
  iters := second.iters.trans first.iters

/-- What a function on the FAT does: afterwards the filesystem sees `image`,
and the disk holds what it held or what the filesystem saw before. -/
structure Moved (s s' : Fs) (image : Image) : Prop where
  same : Same s s'
  files : s'.files = s.files
  iters : s'.iters = s.iters
  coherent : Coherent s'
  image_eq : s'.image = image
  disk : s'.disk = s.disk ∨ s'.disk = s.image
  history : ∀ sectors ∈ s'.history,
    sectors ∈ s.history ∨ volumeOf sectors = s.image

theorem Fs.image_of_clean {s : Fs} (clean : s.fatDirty = false) :
    s.image = s.disk := by
  simp [Fs.image, clean]

namespace Moved

variable {s s' s'' : Fs} {image : Image}

theorem still (moved : Moved s s' image) : Still s s' :=
  ⟨moved.same, moved.files, moved.iters⟩

theorem refl (coherent : Coherent s) : Moved s s s.image where
  same := .refl s
  files := rfl
  iters := rfl
  coherent := coherent
  image_eq := rfl
  disk := Or.inl rfl
  history _ member := Or.inl member

/-- Changes of the variable `next_free` go unnoticed. -/
theorem withNextFree (moved : Moved s s' image) (next : Nat) :
    Moved s { s' with nextFree := next } image :=
  ⟨⟨moved.same.sb, moved.same.mounted, moved.same.diskSectors,
    moved.same.clusterShift, moved.same.total, moved.same.fails, moved.same.grows⟩,
    moved.files, moved.iters, ⟨moved.coherent.sector, moved.coherent.clean,
      moved.coherent.dirty⟩, moved.image_eq, moved.disk, moved.history⟩

/-- A step after steps that left the image alone. -/
theorem trans (first : Moved s s' s.image) (second : Moved s' s'' image) :
    Moved s s'' image where
  same := first.same.trans second.same
  files := second.files.trans first.files
  iters := second.iters.trans first.iters
  coherent := second.coherent
  image_eq := second.image_eq
  disk := by
    rcases second.disk with same | flushed
    · rw [same]
      exact first.disk
    · rw [flushed, first.image_eq]
      exact Or.inr rfl
  history sectors member := by
    rcases second.history sectors member with before | flushed
    · exact first.history sectors before
    · rw [first.image_eq] at flushed
      exact Or.inr flushed

/-- A transfer was asked for. -/
theorem request (coherent : Coherent s) (sector : Nat)
    (purpose : Option Purpose) : Moved s (s.request sector purpose) s.image :=
  ⟨⟨rfl, rfl, rfl, rfl, rfl, rfl, List.suffix_refl _⟩, rfl, rfl, ⟨coherent.sector,
    coherent.clean, coherent.dirty⟩, rfl, Or.inl rfl, fun _ member => Or.inl member⟩

end Moved

/-- Outside the FAT the filesystem sees the disk itself. -/
theorem Coherent.image_eq_disk {s : Fs} (coherent : Coherent s) {sector : Nat}
    (outside : s.sb.fatSectors < sector) : s.image sector = s.disk sector := by
  unfold Fs.image
  split
  · rename_i dirty
    apply Function.update_of_ne
    rcases coherent.sector with empty | bounds
    · exact absurd empty (coherent.dirty dirty)
    · omega
  · rfl

/-! ## Single transfers -/

theorem blockRead_spec (s : Fs) (sector : Nat) :
    Meets (blockRead sector) s
      (fun contents s' => contents = s.sectors (lbaOf sector) ∧
        s' = s.request sector none)
      fun error s' => error = .io ∧ ¬ s.Quiet ∧ s' = s.request sector none := by
  unfold Meets blockRead
  cases failing : s.fails s.transfers with
  | false => simp
  | true =>
      have loud : ¬ s.Quiet := fun quiet => by simp [quiet s.transfers] at failing
      simp [loud]

theorem blockWrite_spec (s : Fs) (purpose : Purpose) (sector : Nat)
    (contents : Sector) :
    Meets (blockWrite purpose sector contents) s
      (fun _ s' => s' = (s.request sector (some purpose)).store sector contents)
      fun error s' => error = .io ∧ ¬ s.Quiet ∧
        s' = s.request sector (some purpose) := by
  unfold Meets blockWrite
  cases failing : s.fails s.transfers with
  | false => simp
  | true =>
      have loud : ¬ s.Quiet := fun quiet => by simp [quiet s.transfers] at failing
      simp [loud]

/-- Storing a sector of the filesystem changes that sector of its part of the
disk. -/
theorem volumeOf_update (sectors : Nat → Sector) {sector : Nat}
    (contents : Sector) (inRange : lbaOf sector = fsLbaStart + sector) :
    volumeOf (Function.update sectors (lbaOf sector) contents) =
      Function.update (volumeOf sectors) sector contents := by
  funext other
  rw [inRange]
  by_cases equal : other = sector
  · subst equal
    simp [volumeOf]
  · simp [volumeOf, equal]

theorem Fs.disk_store (s : Fs) {sector : Nat} (contents : Sector)
    (inRange : lbaOf sector = fsLbaStart + sector) :
    (s.store sector contents).disk = Function.update s.disk sector contents :=
  volumeOf_update s.sectors contents inRange

/-! ## The functions on the FAT -/

section Fat

variable {s : Fs}

theorem fatFlush_spec (fits : FatFits s.sb)
    (coherent : Coherent s) :
    Meets fatFlush s
      (fun _ s' => Moved s s' s.image ∧ s'.fatDirty = false ∧
        s'.disk = s.image ∧ s'.fatCacheSector = s.fatCacheSector)
      fun error s' => error = .io ∧ ¬ s.Quiet ∧ Moved s s' s.image := by
  unfold fatFlush
  refine .bind (.get (.ite (fun dirty => ?_) fun clean => ?_))
  · have cached := coherent.dirty dirty
    have inFat : s.fatCacheSector ≤ s.sb.fatSectors := by
      rcases coherent.sector with empty | bounds
      · exact absurd empty cached
      · exact bounds.2
    have inRange := fits.lba_eq inFat
    refine (blockWrite_spec s .fat _ _).seq ?_ ?_
    · rintro _ s' rfl
      apply Meets.modify
      have stored : volumeOf (Function.update s.sectors
          (lbaOf s.fatCacheSector) s.fatCache) = s.image := by
        rw [volumeOf_update _ _ inRange]
        simp [Fs.image, dirty, Fs.disk]
      refine ⟨⟨⟨rfl, rfl, rfl, rfl, rfl, rfl, List.suffix_cons _ _⟩, rfl, rfl,
        ⟨coherent.sector, ?_, ?_⟩, stored, Or.inr stored, ?_⟩, rfl, stored, rfl⟩
      · intro _ _
        simp [Fs.disk, Fs.store, Fs.request, volumeOf, inRange]
      · intro impossible
        cases impossible
      · intro sectors member
        rcases List.mem_cons.mp member with latest | before
        · rw [latest]
          exact Or.inr stored
        · exact Or.inl before
    · rintro error s' ⟨isIo, loud, rfl⟩
      exact ⟨isIo, loud, .request coherent _ _⟩
  · have isClean : s.fatDirty = false := by simpa using clean
    exact .pure ⟨.refl coherent, isClean, (Fs.image_of_clean isClean).symm, rfl⟩

/-- Reading a sector of the FAT into a clean cache. -/
theorem fatFill_spec (fits : FatFits s.sb)
    (clean : s.fatDirty = false) {sector : Nat}
    (positive : 1 ≤ sector) (inFat : sector ≤ s.sb.fatSectors) :
    Meets (fatFill sector) s
      (fun _ s' => Moved s s' s.image ∧ s'.fatCacheSector = sector)
      fun error s' => error = .io ∧ ¬ s.Quiet ∧ Moved s s' s.image := by
  have inRange := fits.lba_eq inFat
  unfold fatFill
  refine .bind (.attempt ((blockRead_spec s sector).mono ?_ ?_))
  · rintro contents s' ⟨rfl, rfl⟩
    apply Meets.modify
    refine ⟨⟨⟨rfl, rfl, rfl, rfl, rfl, rfl, List.suffix_refl _⟩, rfl, rfl,
      ⟨Or.inr ⟨positive, inFat⟩, ?_, ?_⟩, ?_, Or.inl rfl,
      fun _ member => Or.inl member⟩, rfl⟩
    · intro _ _
      simp [Fs.disk, Fs.request, volumeOf, inRange]
    · intro dirty
      simp [Fs.request, clean] at dirty
    · simp only [Fs.image, Fs.request, clean]
      rfl
  · rintro error s' ⟨isIo, loud, rfl⟩
    refine .bind (.modify (.throw ⟨isIo, loud, ?_⟩))
    refine ⟨⟨rfl, rfl, rfl, rfl, rfl, rfl, List.suffix_refl _⟩, rfl, rfl,
      ⟨Or.inl rfl, fun _ cached => absurd rfl cached, ?_⟩, ?_, Or.inl rfl,
      fun _ member => Or.inl member⟩
    · intro dirty
      simp [Fs.request, clean] at dirty
    · simp only [Fs.image, Fs.request, clean]
      rfl

theorem fatLoad_spec (fits : FatFits s.sb)
    (coherent : Coherent s) {sector : Nat} (positive : 1 ≤ sector)
    (inFat : sector ≤ s.sb.fatSectors) :
    Meets (fatLoad sector) s
      (fun _ s' => Moved s s' s.image ∧ s'.fatCacheSector = sector)
      fun error s' => error = .io ∧ ¬ s.Quiet ∧ Moved s s' s.image := by
  unfold fatLoad
  refine .bind (.get (.ite (fun cached => ?_) fun _ => ?_))
  · exact .pure ⟨.refl coherent, cached⟩
  · refine (fatFlush_spec fits coherent).seq ?_ fun _ _ failed => failed
    rintro _ flushed ⟨moved, clean, _⟩
    refine (fatFill_spec (moved.same.fatFits fits) clean positive
      (by rw [moved.same.sb]; exact inFat)).mono ?_ ?_
    · rintro _ s' ⟨filled, atSector⟩
      rw [moved.image_eq] at filled
      exact ⟨moved.trans filled, atSector⟩
    · rintro error s' ⟨isIo, loud, filled⟩
      rw [moved.image_eq] at filled
      exact ⟨isIo, moved.same.not_quiet loud, moved.trans filled⟩

/-- A cached sector is the one that the filesystem sees. -/
theorem Coherent.cache_eq (coherent : Coherent s)
    (cached : s.fatCacheSector ≠ noSector) :
    s.fatCache = s.image s.fatCacheSector := by
  cases dirty : s.fatDirty with
  | false =>
      rw [Fs.image_of_clean dirty]
      exact coherent.clean dirty cached
  | true => simp [Fs.image, dirty]

theorem fatGet_spec (fits : FatFits s.sb)
    (coherent : Coherent s) {cluster : Nat} (positive : 1 ≤ cluster)
    (inRange : cluster ≤ s.sb.clusterCount) :
    Meets (fatGet cluster) s
      (fun value s' => Moved s s' s.image ∧ value = fatAt s.image cluster)
      fun error s' => error = .io ∧ ¬ s.Quiet ∧ Moved s s' s.image := by
  have inFat := fits.fatSector_le inRange
  unfold fatGet
  refine .bind (.get (.bind (.require (fun _ => ?_) fun outside => ?_)))
  · refine (fatLoad_spec fits coherent (Nat.le_add_right 1 _) inFat).seq ?_
      fun _ _ failed => failed
    rintro _ s' ⟨moved, atSector⟩
    refine .bind (.get (.pure ⟨moved, ?_⟩))
    have cached : s'.fatCacheSector ≠ noSector := by
      rw [atSector]
      exact fits.ne_noSector inFat
    rw [moved.coherent.cache_eq cached, atSector, moved.image_eq]
    rfl
  · exact absurd ⟨by omega, inRange⟩ outside

theorem fatSet_spec (fits : FatFits s.sb)
    (coherent : Coherent s) {cluster : Nat} (positive : 1 ≤ cluster)
    (inRange : cluster ≤ s.sb.clusterCount) (value : Nat) :
    Meets (fatSet cluster value) s
      (fun _ s' => Moved s s' (setFat s.image cluster value))
      fun error s' => error = .io ∧ ¬ s.Quiet ∧ Moved s s' s.image := by
  have inFat := fits.fatSector_le inRange
  unfold fatSet
  refine .bind (.get (.bind (.require (fun _ => ?_) fun outside => ?_)))
  · refine (fatLoad_spec fits coherent (Nat.le_add_right 1 _) inFat).seq ?_
      fun _ _ failed => failed
    rintro _ middle ⟨moved, atSector⟩
    apply Meets.modify
    have cached : middle.fatCacheSector ≠ noSector := by
      rw [atSector]
      exact fits.ne_noSector inFat
    have contents := moved.coherent.cache_eq cached
    refine ⟨⟨moved.same.sb, moved.same.mounted, moved.same.diskSectors,
      moved.same.clusterShift, moved.same.total, moved.same.fails, moved.same.grows⟩,
      moved.files, moved.iters, ⟨moved.coherent.sector, ?_, fun _ => cached⟩, ?_, moved.disk,
      moved.history⟩
    · intro impossible
      cases impossible
    · -- Only the cached sector differs from what was seen before.
      funext sector
      rw [atSector, moved.image_eq] at contents
      by_cases here : sector = 1 + cluster / fatPerSector
      · subst here
        simp [Fs.image, setFat, atSector, contents]
      · have before : middle.image sector = middle.disk sector := by
          unfold Fs.image
          split
          · rw [Function.update_of_ne (by rw [atSector]; exact here)]
          · rfl
        rw [setFat_of_ne _ here, ← moved.image_eq, before]
        simp [Fs.image, Fs.disk, atSector, here]
  · exact absurd ⟨by omega, inRange⟩ outside

/-- The successor of a cluster is read off its entry; an entry that is neither
the end of a chain nor a cluster is reported. -/
theorem chainNext_spec (fits : FatFits s.sb)
    (coherent : Coherent s) {cluster : Nat} (positive : 1 ≤ cluster)
    (inRange : cluster ≤ s.sb.clusterCount) :
    Meets (chainNext cluster) s
      (fun next s' => Moved s s' s.image ∧
        (fatAt s.image cluster = chainEnd ∧ next = 0 ∨
          fatAt s.image cluster ≠ chainEnd ∧ fatAt s.image cluster = next ∧
            1 ≤ next ∧ next ≤ s.sb.clusterCount))
      fun error s' => Moved s s' s.image ∧ (error = .io ∧ ¬ s.Quiet ∨
        error = .corrupt ∧ fatAt s.image cluster ≠ chainEnd ∧
          (fatAt s.image cluster < 1 ∨
            s.sb.clusterCount < fatAt s.image cluster)) := by
  unfold chainNext
  refine (fatGet_spec fits coherent positive inRange).seq ?_ ?_
  · rintro value s' ⟨moved, rfl⟩
    refine .ite (fun isEnd => .pure ⟨moved, Or.inl ⟨isEnd, rfl⟩⟩) fun notEnd => ?_
    refine .bind (.get (.bind (.require (fun valid => ?_) fun invalid => ?_)))
    · rw [moved.same.sb] at valid
      exact .pure ⟨moved, Or.inr ⟨notEnd, rfl, valid.1, valid.2⟩⟩
    · rw [moved.same.sb] at invalid
      exact ⟨moved, Or.inr ⟨rfl, notEnd, by omega⟩⟩
  · rintro error s' ⟨isIo, loud, moved⟩
    exact ⟨moved, Or.inl ⟨isIo, loud⟩⟩

/-- The cluster that `cluster_alloc` looks at `steps` rounds after
`candidate`. -/
def candidateAfter (count candidate steps : Nat) : Nat :=
  (candidate - 1 + steps) % count + 1

theorem candidateAfter_next {count candidate steps : Nat} (positive : 1 ≤ candidate)
    (inRange : candidate ≤ count) :
    candidateAfter count
        (if candidate + 1 > count then 1 else candidate + 1) steps =
      candidateAfter count candidate (steps + 1) := by
  simp only [candidateAfter]
  split
  · have last : candidate = count := by omega
    subst last
    have split : candidate - 1 + (steps + 1) = steps + candidate := by omega
    rw [split, Nat.add_mod_right]
    simp
  · congr 2
    omega

/-- The search ends at a free cluster or has seen `rounds` used ones. -/
theorem allocLoop_spec (rounds : Nat) :
    ∀ {s : Fs} {candidate : Nat}, Geometry s.sb s.clusterShift → Coherent s →
    1 ≤ candidate → candidate ≤ s.sb.clusterCount →
    Meets (allocLoop rounds candidate) s
      (fun cluster s' => Moved s s' (setFat s.image cluster chainEnd) ∧
        1 ≤ cluster ∧ cluster ≤ s.sb.clusterCount ∧ fatAt s.image cluster = 0)
      fun error s' => Moved s s' s.image ∧ (error = .io ∧ ¬ s.Quiet ∨
        error = .nospc ∧ ∀ steps, steps < rounds →
          fatAt s.image (candidateAfter s.sb.clusterCount candidate steps) ≠ 0) := by
  induction rounds with
  | zero =>
      intro s candidate geometry coherent positive inRange
      exact .throw ⟨.refl coherent, Or.inr ⟨rfl, fun steps impossible =>
        absurd impossible (Nat.not_lt_zero steps)⟩⟩
  | succ rounds induction =>
      intro s candidate geometry coherent positive inRange
      refine (fatGet_spec geometry.fatFits coherent positive inRange).seq ?_ ?_
      · rintro value s' ⟨moved, rfl⟩
        have geometry' := moved.same.geometry geometry
        refine .ite (fun free => ?_) fun used => ?_
        · refine (fatSet_spec geometry'.fatFits moved.coherent positive
            (by rw [moved.same.sb]; exact inRange) chainEnd).seq ?_ ?_
          · intro _ taken set
            rw [moved.image_eq] at set
            refine .bind (.modify (.pure ⟨?_, positive, inRange, free⟩))
            exact (moved.trans set).withNextFree _
          · rintro error taken ⟨isIo, loud, set⟩
            rw [moved.image_eq] at set
            exact ⟨moved.trans set, Or.inl ⟨isIo, moved.same.not_quiet loud⟩⟩
        · refine .bind (.get ?_)
          have bounds : 1 ≤ (if candidate + 1 > s'.sb.clusterCount then 1
              else candidate + 1) ∧
              (if candidate + 1 > s'.sb.clusterCount then 1 else candidate + 1) ≤
                s'.sb.clusterCount := by
            rw [moved.same.sb]
            split <;> omega
          refine (induction geometry' moved.coherent bounds.1 bounds.2).mono ?_ ?_
          · rintro cluster after ⟨next, found⟩
            rw [moved.image_eq] at next found
            rw [moved.same.sb] at found
            exact ⟨moved.trans next, found⟩
          · rintro error after ⟨next, why⟩
            rw [moved.image_eq] at next why
            rw [moved.same.sb] at why
            refine ⟨moved.trans next, ?_⟩
            rcases why with ⟨isIo, loud⟩ | ⟨isFull, visited⟩
            · exact Or.inl ⟨isIo, moved.same.not_quiet loud⟩
            · refine Or.inr ⟨isFull, ?_⟩
              intro steps inTime
              cases steps with
              | zero =>
                  have here : candidateAfter s.sb.clusterCount candidate 0 =
                      candidate := by
                    simp only [candidateAfter, Nat.add_zero]
                    rw [Nat.mod_eq_of_lt (by omega)]
                    omega
                  rw [here]
                  exact used
              | succ steps =>
                  rw [← candidateAfter_next positive inRange]
                  exact visited steps (by omega)
      · rintro error s' ⟨isIo, loud, moved⟩
        exact ⟨moved, Or.inl ⟨isIo, loud⟩⟩

/-- A free cluster is taken, or there is none. -/
theorem clusterAlloc_spec (geometry : Geometry s.sb s.clusterShift)
    (coherent : Coherent s) :
    Meets clusterAlloc s
      (fun cluster s' => Moved s s' (setFat s.image cluster chainEnd) ∧
        1 ≤ cluster ∧ cluster ≤ s.sb.clusterCount ∧ fatAt s.image cluster = 0)
      fun error s' => Moved s s' s.image ∧ (error = .io ∧ ¬ s.Quiet ∨
        error = .nospc ∧ ∀ cluster, 1 ≤ cluster → cluster ≤ s.sb.clusterCount →
          fatAt s.image cluster ≠ 0) := by
  have nonempty : 1 ≤ s.sb.clusterCount :=
    Nat.le_trans geometry.root_pos geometry.root_le
  unfold clusterAlloc
  refine .bind (.get ?_)
  generalize start : (if s.nextFree < 1 ∨ s.nextFree > s.sb.clusterCount then 1
    else s.nextFree) = candidate
  have bounds : 1 ≤ candidate ∧ candidate ≤ s.sb.clusterCount := by
    rw [← start]
    split <;> omega
  refine (allocLoop_spec s.sb.clusterCount geometry coherent bounds.1
    bounds.2).mono (fun _ _ found => found) ?_
  rintro error s' ⟨moved, isIo | ⟨isFull, visited⟩⟩
  · exact ⟨moved, Or.inl isIo⟩
  · refine ⟨moved, Or.inr ⟨isFull, ?_⟩⟩
    intro cluster positive inRange
    -- The search passes every cluster once, so also this one.
    by_cases later : candidate ≤ cluster
    · have seen := visited (cluster - candidate) (by omega)
      have arrives : candidateAfter s.sb.clusterCount candidate
          (cluster - candidate) = cluster := by
        simp only [candidateAfter]
        rw [Nat.mod_eq_of_lt (by omega)]
        omega
      rw [arrives] at seen
      exact seen
    · have seen := visited (s.sb.clusterCount - candidate + cluster) (by omega)
      have arrives : candidateAfter s.sb.clusterCount candidate
          (s.sb.clusterCount - candidate + cluster) = cluster := by
        have wraps : candidate - 1 + (s.sb.clusterCount - candidate + cluster) =
            cluster - 1 + s.sb.clusterCount := by omega
        simp only [candidateAfter]
        rw [wraps, Nat.add_mod_right, Nat.mod_eq_of_lt (by omega)]
        omega
      rw [arrives] at seen
      exact seen

theorem clusterFree_spec (geometry : Geometry s.sb s.clusterShift)
    (coherent : Coherent s) {cluster : Nat} (positive : 1 ≤ cluster)
    (inRange : cluster ≤ s.sb.clusterCount) :
    Meets (clusterFree cluster) s
      (fun _ s' => Moved s s' (setFat s.image cluster 0))
      fun error s' => error = .io ∧ ¬ s.Quiet ∧ Moved s s' s.image := by
  unfold clusterFree
  refine (fatSet_spec geometry.fatFits coherent positive inRange 0).seq ?_
    fun _ _ failed => failed
  intro _ s' moved
  exact .modify (moved.withNextFree _)

end Fat

/-! ## Writing around the cache -/

/-- Sectors with a property, but not the cached one, may have been written. -/
structure Scribbled (Here : Nat → Prop) (s s' : Fs) : Prop where
  same : Same s s'
  files : s'.files = s.files
  iters : s'.iters = s.iters
  coherent : Coherent s'
  dirty : s'.fatDirty = s.fatDirty
  cache : s'.fatCacheSector = s.fatCacheSector
  image_eq : ∀ sector, ¬ Here sector → s'.image sector = s.image sector
  disk_eq : ∀ sector, ¬ Here sector → s'.disk sector = s.disk sector
  history : ∀ sectors ∈ s'.history, sectors ∈ s.history ∨
    ∀ sector, ¬ Here sector → volumeOf sectors sector = s.disk sector

namespace Scribbled

variable {Here : Nat → Prop} {s s' s'' : Fs}

theorem still (scribbled : Scribbled Here s s') : Still s s' :=
  ⟨scribbled.same, scribbled.files, scribbled.iters⟩

theorem request (coherent : Coherent s) (sector : Nat)
    (purpose : Option Purpose) : Scribbled Here s (s.request sector purpose) :=
  ⟨⟨rfl, rfl, rfl, rfl, rfl, rfl, List.suffix_refl _⟩, rfl, rfl, ⟨coherent.sector,
    coherent.clean, coherent.dirty⟩, rfl, rfl, fun _ _ => rfl, fun _ _ => rfl,
    fun _ member => Or.inl member⟩

theorem refl (coherent : Coherent s) : Scribbled Here s s :=
  ⟨.refl s, rfl, rfl, coherent, rfl, rfl, fun _ _ => rfl, fun _ _ => rfl,
    fun _ member => Or.inl member⟩

theorem mono {There : Nat → Prop} (scribbled : Scribbled Here s s')
    (more : ∀ sector, Here sector → There sector) : Scribbled There s s' where
  same := scribbled.same
  files := scribbled.files
  iters := scribbled.iters
  coherent := scribbled.coherent
  dirty := scribbled.dirty
  cache := scribbled.cache
  image_eq sector away :=
    scribbled.image_eq sector fun here => away (more sector here)
  disk_eq sector away :=
    scribbled.disk_eq sector fun here => away (more sector here)
  history sectors member := by
    rcases scribbled.history sectors member with before | new
    · exact Or.inl before
    · exact Or.inr fun sector away =>
        new sector fun here => away (more sector here)

theorem trans (first : Scribbled Here s s') (second : Scribbled Here s' s'') :
    Scribbled Here s s'' where
  same := first.same.trans second.same
  files := second.files.trans first.files
  iters := second.iters.trans first.iters
  coherent := second.coherent
  dirty := second.dirty.trans first.dirty
  cache := second.cache.trans first.cache
  image_eq sector away :=
    (second.image_eq sector away).trans (first.image_eq sector away)
  disk_eq sector away :=
    (second.disk_eq sector away).trans (first.disk_eq sector away)
  history sectors member := by
    rcases second.history sectors member with before | new
    · exact first.history sectors before
    · exact Or.inr fun sector away =>
        (new sector away).trans (first.disk_eq sector away)

end Scribbled

/-- Sectors outside the FAT are not cached. -/
theorem Coherent.cache_ne {s : Fs} (geometry : Geometry s.sb s.clusterShift)
    (coherent : Coherent s) {sector : Nat} (outside : s.sb.fatSectors < sector)
    (inRange : sector < s.sb.totalSectors) : s.fatCacheSector ≠ sector := by
  have small := geometry.small
  rcases coherent.sector with empty | bounds
  · rw [empty]
    simp only [noSector]
    omega
  · omega

/-- A sector that is not cached changes on the disk and in the image alike. -/
theorem Fs.image_store {s : Fs} {sector : Nat} (contents : Sector)
    (apart : s.fatCacheSector ≠ sector) (inRange : lbaOf sector = fsLbaStart + sector) :
    (s.store sector contents).image = Function.update s.image sector contents := by
  have stored := s.disk_store contents inRange
  cases dirty : s.fatDirty with
  | false =>
      rw [Fs.image_of_clean dirty, Fs.image_of_clean (s := s.store sector contents)
        dirty, stored]
  | true =>
      have unfolded : (s.store sector contents).image =
          Function.update (s.store sector contents).disk s.fatCacheSector
            s.fatCache := by
        simp [Fs.image, Fs.store, dirty]
      rw [unfolded, stored, Function.update_comm apart.symm]
      simp [Fs.image, dirty]

theorem Coherent.store {s : Fs} (coherent : Coherent s) {sector : Nat}
    {contents : Sector} (apart : s.fatCacheSector ≠ sector)
    (inRange : lbaOf sector = fsLbaStart + sector) :
    Coherent (s.store sector contents) where
  sector := coherent.sector
  clean clean cached := by
    rw [Fs.disk_store _ _ inRange]
    exact (coherent.clean clean cached).trans
      (Function.update_of_ne apart _ _).symm
  dirty := coherent.dirty

theorem blockWrite_scribbled {s : Fs} (geometry : Geometry s.sb s.clusterShift)
    (coherent : Coherent s) (Here : Nat → Prop) (purpose : Purpose)
    {sector : Nat} (contents : Sector) (here : Here sector)
    (apart : s.fatCacheSector ≠ sector) (inRange : sector < s.sb.totalSectors) :
    Meets (blockWrite purpose sector contents) s
      (fun _ s' => Scribbled Here s s' ∧
        s'.image = Function.update s.image sector contents ∧
        s'.disk = Function.update s.disk sector contents ∧
        ∀ sectors ∈ s'.history, sectors ∈ s.history ∨ volumeOf sectors = s'.disk)
      fun error s' => error = .io ∧ ¬ s.Quiet ∧ Scribbled Here s s' ∧
        Moved s s' s.image := by
  have lba := geometry.lba_eq inRange
  refine (blockWrite_spec s purpose sector contents).mono ?_ ?_
  · rintro _ s' rfl
    have requested : Scribbled Here s (s.request sector (some purpose)) :=
      .request coherent sector (some purpose)
    have image := Fs.image_store (s := s.request sector (some purpose)) contents
      apart lba
    have disk := (s.request sector (some purpose)).disk_store contents lba
    refine ⟨⟨⟨rfl, rfl, rfl, rfl, rfl, rfl, List.suffix_cons _ _⟩, rfl, rfl,
      requested.coherent.store apart lba, rfl, rfl, ?_, ?_, ?_⟩, image, disk, ?_⟩
    · intro other away
      have different : other ≠ sector := fun equal => away (equal ▸ here)
      rw [image, Function.update_of_ne different]
      rfl
    · intro other away
      have different : other ≠ sector := fun equal => away (equal ▸ here)
      rw [disk, Function.update_of_ne different]
      rfl
    · intro sectors member
      rcases List.mem_cons.mp member with latest | before
      · refine Or.inr fun other away => ?_
        have different : other ≠ sector := fun equal => away (equal ▸ here)
        rw [latest]
        have stored := volumeOf_update s.sectors contents lba
        exact (congrFun stored other).trans (Function.update_of_ne different _ _)
      · exact Or.inl before
    · intro sectors member
      rcases List.mem_cons.mp member with latest | before
      · rw [latest]
        exact Or.inr rfl
      · exact Or.inl before
  · rintro error s' ⟨isIo, loud, rfl⟩
    exact ⟨isIo, loud, .request coherent _ _, .request coherent _ _⟩

/-! ## Functions that read the disk and look through the cache -/

section Looking

variable {Holds : Fs → Prop}

theorem chainNext_keeps (loads : ∀ sector, Keeps Holds (fatLoad sector)) (cluster : Nat) :
    Keeps Holds (chainNext cluster) := by
  have value : Keeps Holds (fatGet cluster) := by
    unfold fatGet
    exact .bind .get fun s => .bind .require fun _ => .bind (loads _)
      fun _ => .bind .get fun _ => .pure _
  unfold chainNext
  refine .bind value fun found => .ite (.pure _) ?_
  exact .bind .get fun s => .bind .require fun _ => .pure _

theorem scanSectors_keeps (reads : ∀ sector, Keeps Holds (blockRead sector))
    (name : CString) (count : Nat) :
    ∀ sector res, Keeps Holds (scanSectors name count sector res) := by
  induction count with
  | zero => exact fun sector res => .pure res
  | succ count induction =>
      intro sector res
      unfold scanSectors
      refine .bind (reads sector) fun contents => ?_
      exact .ite (.pure _) (induction _ _)

theorem lookupLoop_keeps (reads : ∀ sector, Keeps Holds (blockRead sector))
    (loads : ∀ sector, Keeps Holds (fatLoad sector)) (name : CString) (left : Nat) :
    ∀ cluster res, Keeps Holds (lookupLoop name left cluster res) := by
  induction left with
  | zero =>
      intro cluster res
      unfold lookupLoop
      refine .ite (.pure _) (.bind .get fun s => ?_)
      refine .bind (scanSectors_keeps reads name _ _ _) fun found => .ite (.pure _) ?_
      exact .bind (chainNext_keeps loads cluster) fun next => .throw _
  | succ left induction =>
      intro cluster res
      unfold lookupLoop
      refine .ite (.pure _) (.bind .get fun s => ?_)
      refine .bind (scanSectors_keeps reads name _ _ _) fun found => .ite (.pure _) ?_
      exact .bind (chainNext_keeps loads cluster) fun next => induction next _

theorem dirLookup_keeps (reads : ∀ sector, Keeps Holds (blockRead sector))
    (loads : ∀ sector, Keeps Holds (fatLoad sector)) (name : CString) :
    Keeps Holds (dirLookup name) :=
  .bind .get fun _ => lookupLoop_keeps reads loads name _ _ _

theorem requireMounted_keeps : Keeps Holds requireMounted := by
  unfold requireMounted
  exact .bind .get fun _ => .require

theorem nameCheck_keeps (name : Option CString) : Keeps Holds (nameCheck name) := by
  unfold nameCheck
  cases name with
  | none => exact .throw _
  | some given =>
      dsimp only
      exact .ite (.pure _) (.throw _)

end Looking

end Katela.Filesystem
