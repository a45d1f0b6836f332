import Katela.Filesystem.Interruption

/-! # Interrupted formatting

`fs_format` clears the sectors of the new FAT and of the new root directory, one after the
other, and writes the superblock last. A disk that had a filesystem keeps the old
superblock until then, so the next `fs_init` mounts the old filesystem over what was
cleared. -/

namespace Katela.Filesystem

/-! ## What is cleared -/

/-- A disk on which the sectors from 1 to `last` were cleared. -/
def erased (last : Nat) (image : Image) : Image := fun sector =>
  if 1 ≤ sector ∧ sector ≤ last then zeroSector else image sector

/-- The disk had every stretch of sectors up to `last` cleared, one after the other. -/
def Passed (before : Image) (last : Nat) (s : Fs) : Prop :=
  ∀ number, 1 ≤ number → number ≤ last →
    ∃ sectors ∈ s.history, volumeOf sectors = erased number before

structure ErasedTo (before : Image) (last : Nat) (s : Fs) : Prop where
  disk : s.disk = erased last before
  passed : Passed before last s

section Erasing

variable {before : Image} {last : Nat} {s s' : Fs}

theorem erased_zero (image : Image) : erased 0 image = image := by
  funext sector
  exact if_neg (by omega)

theorem erased_succ (last : Nat) (image : Image) :
    Function.update (erased last image) (last + 1) zeroSector = erased (last + 1) image := by
  funext sector
  by_cases equal : sector = last + 1
  · subst equal
    rw [Function.update_self, erased, if_pos (by omega)]
  · rw [Function.update_of_ne equal]
    unfold erased
    congr 1
    simp only [eq_iff_iff]
    omega

theorem Passed.same (passed : Passed before last s) (same : Same s s') :
    Passed before last s' := by
  intro number positive atMost
  rcases passed number positive atMost with ⟨sectors, member, isErased⟩
  exact ⟨sectors, same.grows.subset member, isErased⟩

theorem blockWrite_erased (purpose : Purpose) (low : last + 1 < 2 ^ 19)
    (erasedTo : ErasedTo before last s) :
    Meets (blockWrite purpose (last + 1) zeroSector) s
      (fun _ s' => Still s s' ∧ ErasedTo before (last + 1) s') fun _ _ => ¬ s.Quiet := by
  refine (blockWrite_low purpose zeroSector low).mono ?_ fun _ _ failed => failed.2.1
  rintro _ s' ⟨still, disk, _, _, _, _, written⟩
  have isErased : s'.disk = erased (last + 1) before := by
    rw [disk, erasedTo.disk, erased_succ]
  refine ⟨still, isErased, fun number positive atMost => ?_⟩
  by_cases latest : number = last + 1
  · subst latest
    exact ⟨s'.sectors, written, isErased⟩
  · exact erasedTo.passed.same still.same number positive (by omega)

theorem blocksWrite_erased (purpose : Purpose) (count : Nat) :
    ∀ {s : Fs} {last : Nat}, last + 1 + count ≤ 2 ^ 19 → ErasedTo before last s →
    Meets (blocksWrite purpose (last + 1) (List.replicate count zeroSector)) s
      (fun _ s' => ErasedTo before (last + count) s') fun _ _ => ¬ s.Quiet := by
  induction count with
  | zero => exact fun _ erasedTo => .pure erasedTo
  | succ count induction =>
      intro s last low erasedTo
      rw [List.replicate_succ]
      unfold blocksWrite
      refine .bind (.attempt ((blockWrite_erased purpose (by omega) erasedTo).mono ?_ ?_))
      · rintro _ s1 ⟨still, erasedTo1⟩
        refine .bind (.attempt ((induction (by omega) erasedTo1).mono ?_ ?_))
        · intro _ s2 erasedTo2
          rw [Nat.add_assoc, Nat.add_comm 1 count] at erasedTo2
          exact .pure erasedTo2
        · exact fun _ _ loud => .throw (still.same.not_quiet loud)
      · intro _ s1 loud
        refine .bind (.attempt ((blocksWrite_wiped purpose count (by omega)).mono ?_ ?_))
        · exact fun _ _ _ => .throw loud
        · exact fun _ _ _ => .throw loud

theorem eraseFat_erased {fat : Nat} (low : fat ≤ 2 ^ 18) (rounds : Nat) :
    ∀ {s : Fs} {index : Nat}, fat - index ≤ rounds →
    ErasedTo before (min index fat) s →
    Meets (eraseFat fat rounds index) s (fun _ s' => ErasedTo before fat s')
      fun _ _ => ¬ s.Quiet := by
  have batch : zeroBatch = 8 := rfl
  induction rounds with
  | zero =>
      intro s index enough erasedTo
      rw [Nat.min_eq_right (by omega)] at erasedTo
      exact .pure erasedTo
  | succ rounds induction =>
      intro s index enough erasedTo
      unfold eraseFat
      refine .ite (fun less => ?_) fun done => ?_
      · rw [Nat.min_eq_left (by omega)] at erasedTo
        rw [Nat.add_comm 1 index]
        refine ((blocksWrite_wiped .fat (min (fat - index) zeroBatch)
          (by omega)).and (blocksWrite_erased .fat (min (fat - index) zeroBatch)
            (by omega) erasedTo)).seq ?_ fun _ _ failed => failed.2
        rintro _ s1 ⟨⟨wiped, _⟩, erasedTo1⟩
        have reached : index + min (fat - index) zeroBatch = min (index + zeroBatch) fat := by
          omega
        rw [reached] at erasedTo1
        exact (induction (by omega) erasedTo1).mono (fun _ _ holds => holds)
          fun _ _ loud => wiped.still.same.not_quiet loud
      · rw [Nat.min_eq_right (by omega)] at erasedTo
        exact .pure erasedTo

theorem zeroSectors_erased (count : Nat) :
    ∀ {s : Fs} {last : Nat}, last + 1 + count ≤ 2 ^ 19 → ErasedTo before last s →
    Meets (zeroSectors count (last + 1)) s
      (fun _ s' => ErasedTo before (last + count) s') fun _ _ => ¬ s.Quiet := by
  induction count with
  | zero => exact fun _ erasedTo => .pure erasedTo
  | succ count induction =>
      intro s last low erasedTo
      unfold zeroSectors
      refine (blockWrite_erased .directory (by omega) erasedTo).seq ?_ fun _ _ loud => loud
      rintro _ s1 ⟨still, erasedTo1⟩
      refine (induction (by omega) erasedTo1).mono ?_ fun _ _ loud => still.same.not_quiet loud
      intro _ s2 erasedTo2
      rw [Nat.add_assoc, Nat.add_comm 1 count] at erasedTo2
      exact erasedTo2

theorem fatFlush_grows (s : Fs) :
    Meets fatFlush s (fun _ s' => Same s s') fun _ _ => ¬ s.Quiet := by
  unfold fatFlush
  refine .bind (.get (.ite (fun _ => ?_) fun _ => .pure (.refl s)))
  refine (blockWrite_spec s .fat s.fatCacheSector s.fatCache).seq ?_ fun _ _ failed => failed.2.1
  rintro _ s1 rfl
  exact .modify ⟨rfl, rfl, rfl, rfl, rfl, rfl, List.suffix_cons _ _⟩

theorem formatRoot_passed {total shift : Nat} (laidOut : LaidOut total shift)
    (isSb : s.sb = formatLayout total) (isShift : s.clusterShift = shift)
    (empty : s.fatCacheSector = noSector) (clean : s.fatDirty = false)
    (erasedTo : ErasedTo before (formatLayout total).fatSectors s) :
    Meets formatRoot s
      (fun _ s' => Passed before ((formatLayout total).fatSectors + 2 ^ shift) s')
      fun _ _ => ¬ s.Quiet := by
  have low := laidOut.low
  have power := Nat.two_pow_pos shift
  have isStart : (formatLayout total).dataStart = (formatLayout total).fatSectors + 1 :=
    Nat.add_comm 1 _
  have isRoot : s.sb.rootCluster = 1 := by
    rw [isSb]
    rfl
  have nonempty : 1 ≤ s.sb.clusterCount := by
    rw [isSb]
    exact Nat.le_trans (by decide : 1 ≤ 48) laidOut.enough
  unfold formatRoot
  refine .bind (.get ?_)
  rw [isRoot]
  refine (fatSet_first empty clean nonempty).seq ?_ fun _ _ failed => failed.2.1
  rintro _ s1 ⟨still1, disk1, _⟩
  have erasedTo1 : ErasedTo before (formatLayout total).fatSectors s1 :=
    ⟨disk1.trans erasedTo.disk, erasedTo.passed.same still1.same⟩
  have isSb1 : s1.sb = formatLayout total := still1.same.sb.trans isSb
  have isFirst : clusterSector s1 1 = (formatLayout total).fatSectors + 1 := by
    rw [clusterSector_one, isSb1, isStart]
    rw [isSb1]
    simp only [wordSize]
    omega
  unfold clusterZero
  refine .bind (.bind (.get ?_))
  rw [isFirst, still1.same.clusterShift, isShift]
  refine ((zeroSectors_wiped (2 ^ shift) (by omega)).and
    (zeroSectors_erased (2 ^ shift) (by omega) erasedTo1)).mono ?_ ?_
  · rintro _ s2 ⟨⟨wiped, _⟩, erasedTo2⟩
    refine (fatFlush_grows s2).seq ?_ ?_
    · intro _ s3 same3
      refine (blockWrite_low .superblock _ (by decide)).mono ?_ ?_
      · rintro _ s4 ⟨still4, _⟩
        exact (erasedTo2.passed.same same3).same still4.same
      · rintro _ s4 ⟨_, loud, _⟩
        exact still1.same.not_quiet (wiped.still.same.not_quiet (same3.not_quiet loud))
    · exact fun _ _ loud => still1.same.not_quiet (wiped.still.same.not_quiet loud)
  · exact fun _ _ failed => still1.same.not_quiet failed.2

theorem formatNow_passed {shift : Nat} (large : minDiskSectors ≤ s.diskSectors)
    (laidOut : LaidOut (s.diskSectors - fsLbaStart) shift) (quiet : s.Quiet) :
    Meets formatNow s
      (fun _ s' => Passed s.disk
        ((formatLayout (s.diskSectors - fsLbaStart)).fatSectors + 2 ^ shift) s')
      fun _ _ => False := by
  have few := laidOut.few
  have isShift : shiftFor (formatLayout (s.diskSectors - fsLbaStart)).clusterSectors =
      shift := by
    rw [laidOut.sectors]
    exact shiftFor_pow laidOut.shift_le
  have fewFat : (formatLayout (s.diskSectors - fsLbaStart)).fatSectors ≤ 2 ^ 18 := by
    rw [laidOut.fat]
    simp only [fatPerSector]
    omega
  unfold formatNow
  refine .bind (.get (.bind (.require (fun _ => ?_) fun small => absurd large small)))
  dsimp only
  refine .bind (.require (fun _ => ?_) fun few => absurd
    (Nat.le_trans (by decide : minClusters ≤ 48) laidOut.enough) few)
  refine .bind (.modify ?_)
  have nothing : ErasedTo s.disk (min 0 (formatLayout (s.diskSectors - fsLbaStart)).fatSectors)
      { s with
        mounted := false
        fatCacheSector := noSector
        fatDirty := false
        nextFree := 1
        sb := formatLayout (s.diskSectors - fsLbaStart)
        clusterShift :=
          shiftFor (formatLayout (s.diskSectors - fsLbaStart)).clusterSectors } := by
    rw [Nat.zero_min]
    exact ⟨(erased_zero s.disk).symm, fun _ positive none => absurd positive (by omega)⟩
  refine ((eraseFat_wiped fewFat _ (Nat.sub_le _ _)).and
    (eraseFat_erased fewFat _ (Nat.sub_le _ _) nothing)).seq ?_ fun _ _ failed =>
      failed.2 quiet
  rintro _ s1 ⟨⟨wiped, _⟩, erasedTo⟩
  refine .bind (.modify (.bind (.attempt ?_)))
  refine (@formatRoot_passed s.disk _ _ shift laidOut ?_ ?_ ?_ ?_ ?_).mono ?_ ?_
  · exact wiped.still.same.sb
  · exact wiped.still.same.clusterShift.trans isShift
  · exact wiped.cacheSector
  · exact wiped.dirty
  · exact ⟨erasedTo.disk, erasedTo.passed⟩
  · exact fun _ s2 passed => .pure passed
  · intro error s2 loud
    refine absurd (fun number => ?_) loud
    change s1.fails number = false
    rw [wiped.still.same.fails]
    exact quiet number

theorem fsFormat_passed {shift : Nat} (device : s.diskSectors = 0 ∨ s.diskSectors = s.total)
    (large : minDiskSectors ≤ s.total) (laidOut : LaidOut (s.total - fsLbaStart) shift)
    (quiet : s.Quiet) :
    Passed s.disk ((formatLayout (s.total - fsLbaStart)).fatSectors + 2 ^ shift)
      (finalState fsFormat s) := by
  have isMin : minDiskSectors = 4160 := rfl
  have rest : Meets (do
      let s ← get
      require (s.diskSectors ≠ 0) .nodev
      formatNow : FsM Unit) s.sized
      (fun _ s' => Passed s.disk
        ((formatLayout (s.total - fsLbaStart)).fatSectors + 2 ^ shift) s')
      fun _ _ => False := by
    refine .bind (.get (.bind (.require (fun _ => ?_) fun none => ?_)))
    · exact @formatNow_passed s.sized shift large laidOut quiet
    · have zero : s.total = 0 := Classical.not_not.mp none
      omega
  have meets : Meets fsFormat s (fun _ s' => Passed s.disk
      ((formatLayout (s.total - fsLbaStart)).fatSectors + 2 ^ shift) s')
      fun _ _ => False := by
    unfold fsFormat
    refine .bind (.get (.ite (fun _ => .bind (.modify rest)) fun known => ?_))
    rw [Fs.sized_eq (device.resolve_left known)] at rest
    exact rest
  exact finalState_of_meets (meets.mono (fun _ _ passed => passed) fun _ _ => False.elim)

end Erasing

/-! ## The next start -/

/-- `fs_init` ends with a well-formed filesystem mounted, or with nothing mounted. -/
def StartsSafely (t : Fs) : Prop :=
  Mounts t ∨ ∃ error t', fsInit t = .error error t' ∧ t'.mounted = false

/-- The clusters of the directory and of the files. -/
def Taken (own : Ownership) (cluster : Nat) : Prop :=
  cluster ∈ own .root ∨ ∃ location, cluster ∈ own (.slot location)

/-- The next start is safe, and it does not find the old superblock with a FAT from which a
cluster in use was erased. -/
structure SafeStop (s t : Fs) : Prop where
  starts : StartsSafely t
  chains : ∀ F own, F.total = s.total → Volume F s.disk own →
    (∃ shift, Fresh (formatLayout (s.total - fsLbaStart)) shift t.disk) ∨
      ∀ cluster, Taken own cluster → fatAt t.disk cluster = fatAt s.disk cluster

/-- Formatting does not clear the FAT entry of a cluster that the old filesystem uses. -/
def OldChainsKept (s : Fs) : Prop :=
  ∀ F own, F.total = s.total → Volume F s.disk own → ∀ cluster, Taken own cluster →
    (formatLayout (s.total - fsLbaStart)).dataStart +
      (formatLayout (s.total - fsLbaStart)).clusterSectors ≤ 1 + cluster / fatPerSector

section Starting

variable {F : Format} {s t : Fs} {image : Image} {own own' : Ownership} {last cluster : Nat}

/-- The superblock on the disk decides about the format. -/
theorem Volume.recast {G : Format} (volume : Volume G image own)
    (isLabel : image 0 = F.label) : Volume F image own := by
  have label : G.label = F.label := volume.label.symm.trans isLabel
  have sb : G.sb = F.sb := by
    rw [← G.decoded, label, F.decoded]
  have shift : G.shift = F.shift := by
    rw [← G.shifted, sb, F.shifted]
  have holds : ∀ location, Holds F image (own .root) location →
      Holds G image (own .root) location := by
    intro location held
    refine ⟨?_, held.used⟩
    have inDir := held.inDir
    simp only [Format.InDir, Format.InCluster, Format.sectorOf] at inDir ⊢
    rw [sb, shift]
    exact inDir
  have before := volume.directory
  have bytes : G.clusterBytes = F.clusterBytes := by
    unfold Format.clusterBytes
    rw [shift]
  refine ⟨isLabel, ?_, ?_⟩
  · rw [← sb]
    exact volume.accounted
  constructor
  case root =>
    rw [← sb]
    exact before.root
  case first => exact fun location held => before.first location (holds location held)
  case size =>
    rw [← bytes]
    exact fun location held => before.size location (holds location held)
  case vacant =>
    intro location empty
    refine before.vacant location fun held => empty ⟨?_, held.used⟩
    have inDir := held.inDir
    simp only [Format.InDir, Format.InCluster, Format.sectorOf] at inDir ⊢
    rw [← sb, ← shift]
    exact inDir
  case valid => exact fun location held => before.valid location (holds location held)
  case distinct =>
    exact fun location other held held' =>
      before.distinct location other (holds location held) (holds other held')

theorem Volume.mounts (volume : Volume F t.disk own) (quiet : t.Quiet)
    (isTotal : t.total = F.total) : Mounts t := by
  refine ⟨_, _, F, own, fsInit_mounts quiet isTotal volume.label, rfl, ?_, ?_⟩
  · exact (label_eq volume.label).symm
  · rw [remounted_image]
    exact volume

/-- What a mount finds is the filesystem that the superblock describes. -/
theorem StartsSafely.volume (starts : StartsSafely t) (quiet : t.Quiet)
    (isTotal : t.total = F.total) (isLabel : t.disk 0 = F.label) :
    ∃ own, Volume F t.disk own := by
  have run := fsInit_mounts quiet isTotal isLabel
  rcases starts with ⟨result, t', G, own, run', _, _, volume⟩ | ⟨error, t', run', _⟩
  · rw [run] at run'
    injection run' with _ isState
    subst isState
    rw [remounted_image] at volume
    exact ⟨own, volume.recast isLabel⟩
  · rw [run] at run'
    cases run'

/-! ## Clearing the FAT of a filesystem -/

theorem fatAt_erased (last : Nat) (image : Image) (cluster : Nat) :
    fatAt (erased last image) cluster = fatAt image cluster ∨
      fatAt (erased last image) cluster = 0 := by
  unfold fatAt erased
  split
  · exact Or.inr (wordAt_zeroSector _)
  · exact Or.inl rfl

/-- A chain that both disks have from the same cluster on was not touched. -/
theorem Volume.spared (volume : Volume F image own)
    (after : Volume F (erased last image) own') {owner : Owner}
    (head : (own' owner).head? = (own owner).head?) (member : cluster ∈ own owner) :
    linkOf (erased last image) cluster = linkOf image cluster := by
  by_contra changed
  have linked := volume.accounted.chains.linked owner
  have linked' := after.accounted.chains.linked owner
  rw [head] at linked'
  rcases linked.common_change linked' member changed with ⟨common, member', differs⟩
  rcases fatAt_erased last image common with same | free
  · apply differs
    simp only [linkOf, same]
  · exact after.accounted.taken member' free

theorem Accounted.linkOf_ne {exact : Prop} {owner : Owner}
    (accounted : Accounted exact F.sb image own) (member : cluster ∈ own owner)
    (free : fatAt (erased last image) cluster = 0) :
    linkOf (erased last image) cluster ≠ linkOf image cluster := by
  have taken := accounted.taken member
  have notEnd : (0 : Nat) ≠ chainEnd := by decide
  simp only [linkOf, free, notEnd, if_false]
  split
  · exact Option.some_ne_none 0
  · exact fun same => taken (Option.some.inj same).symm

/-- A disk on which the FAT entry of a cluster in use was cleared holds no filesystem. -/
theorem Volume.not_erased (volume : Volume F image own) (taken : Taken own cluster)
    (after : Volume F (erased (1 + cluster / fatPerSector) image) own') : False := by
  have free : fatAt (erased (1 + cluster / fatPerSector) image) cluster = 0 := by
    unfold fatAt erased
    rw [if_pos ⟨Nat.le_add_right 1 _, Nat.le_refl _⟩]
    exact wordAt_zeroSector _
  have rootHead : (own' .root).head? = (own .root).head? := by
    rw [after.directory.root, volume.directory.root]
  rcases taken with inRoot | ⟨location, inFile⟩
  · exact volume.accounted.linkOf_ne inRoot free (volume.spared after rootHead inRoot)
  · have bounds := volume.accounted.bounds _ cluster inFile
    have fat := F.geometry.fat
    have inFat : 1 + cluster / fatPerSector ≤ F.sb.fatSectors := by
      have quotient := Nat.div_le_div_right (c := fatPerSector) bounds.2
      omega
    -- The directory is behind the FAT, so its slots are as before.
    have sameRoot : own' .root = own .root := by
      have linked := volume.accounted.chains.linked .root
      have linked' := after.accounted.chains.linked .root
      rw [rootHead] at linked'
      exact linked'.unique (linked.congr fun _ => volume.spared after rootHead)
    have held : Holds F image (own .root) location := by
      by_contra vacant
      rw [volume.directory.vacant location vacant] at inFile
      cases inFile
    have sameSlot : erased (1 + cluster / fatPerSector) image location.sector =
        image location.sector := by
      have behind := held.inDir.fat_lt
      exact if_neg (by omega)
    have held' : Holds F (erased (1 + cluster / fatPerSector) image) (own' .root) location := by
      rw [sameRoot]
      exact (Directory.holds_congr fun _ => sameSlot).mpr held
    have first := after.directory.first location held'
    rw [entryOf_congr sameSlot, ← volume.directory.first location held] at first
    have fileHead : (own' (.slot location)).head? = (own (.slot location)).head? := by
      have positive := volume.accounted.firstOf_pos (List.ne_nil_of_mem inFile)
      cases files : own (.slot location) with
      | nil =>
          rw [files] at inFile
          cases inFile
      | cons head rest =>
          rw [files, firstOf_cons] at first positive
          cases files' : own' (.slot location) with
          | nil =>
              rw [files', firstOf_nil] at first
              omega
          | cons head' rest' =>
              rw [files', firstOf_cons] at first
              rw [first]
              rfl
    exact volume.accounted.linkOf_ne inFile free (volume.spared after fileHead inFile)

/-- The files whose slots are still there. -/
noncomputable def Ownership.remaining (F : Format) (image : Image) (own : Ownership) : Ownership :=
  open Classical in
  fun owner => match owner with
    | .root => own .root
    | .slot location => if Holds F image (own .root) location then own (.slot location) else []
    | _ => []

/-- Entries behind the cleared sectors stay. -/
theorem Begun.fatAt_eq {layout : SuperBlock} {shift : Nat} {image' : Image}
    (begun : Begun layout shift image image')
    (far : layout.dataStart + 2 ^ shift ≤ 1 + cluster / fatPerSector) :
    fatAt image' cluster = fatAt image cluster := by
  unfold fatAt
  rcases begun.rest (1 + cluster / fatPerSector) with same | ⟨near, _⟩
  · rw [same]
  · omega

/-- Before its superblock is replaced, a filesystem whose chains are not touched only loses
files. -/
theorem Volume.begun {layout : SuperBlock} {shift : Nat} {image' : Image}
    (volume : Volume F image own) (begun : Begun layout shift image image')
    (kept : ∀ cluster, Taken own cluster →
      layout.dataStart + 2 ^ shift ≤ 1 + cluster / fatPerSector) :
    Volume F image' (own.remaining F image') := by
  have someFat : 1 ≤ F.sb.fatSectors := by
    rw [F.geometry.fat]
    exact Nat.le_add_left 1 _
  have slots : ∀ location, own.remaining F image' (.slot location) = own (.slot location) ∨
      own.remaining F image' (.slot location) = [] := by
    intro location
    unfold Ownership.remaining
    dsimp only
    split
    · exact Or.inl rfl
    · exact Or.inr rfl
  have less : ∀ owner, own.remaining F image' owner = own owner ∨
      own.remaining F image' owner = [] := by
    intro owner
    cases owner with
    | root => exact Or.inl rfl
    | slot location => exact slots location
    | handle => exact Or.inr rfl
    | spare => exact Or.inr rfl
  have isTaken : ∀ owner, ∀ cluster ∈ own.remaining F image' owner, Taken own cluster := by
    intro owner cluster member
    cases owner with
    | root => exact Or.inl member
    | slot location =>
        rcases slots location with same | empty
        · rw [same] at member
          exact Or.inr ⟨location, member⟩
        · rw [empty] at member
          cases member
    | handle => cases member
    | spare => cases member
  -- A slot that is still in use was not cleared.
  have sameSlot : ∀ location, Holds F image' (own .root) location →
      image' location.sector = image location.sector := by
    intro location held
    have behind := held.inDir.fat_lt
    rcases begun.rest location.sector with same | ⟨_, zero | ⟨isFirst, _⟩⟩
    · exact same
    · have used := held.used
      unfold Used entryOf at used
      rw [zero, entryAt_zeroSector] at used
      cases used
    · omega
  have wasHeld : ∀ location, Holds F image' (own .root) location →
      Holds F image (own .root) location := by
    intro location held
    exact (Directory.holds_congr fun _ => (sameSlot location held).symm).mpr held
  have sameFile : ∀ location, Holds F image' (own .root) location →
      own.remaining F image' (.slot location) = own (.slot location) := by
    intro location held
    exact if_pos held
  refine ⟨begun.label.trans volume.label, ⟨?_, ?_, nofun⟩, ?_⟩
  · refine (volume.accounted.chains.shrink less).congr fun owner cluster member => ?_
    have same := begun.fatAt_eq (kept cluster (isTaken owner cluster member))
    simp only [linkOf, same]
  · intro owner cluster member
    rcases less owner with same | empty
    · rw [same] at member
      exact volume.accounted.bounds owner cluster member
    · rw [empty] at member
      cases member
  · constructor
    case root => exact volume.directory.root
    case first =>
      intro location held
      rw [sameFile location held, entryOf_congr (sameSlot location held)]
      exact volume.directory.first location (wasHeld location held)
    case size =>
      intro location held
      rw [sameFile location held, entryOf_congr (sameSlot location held)]
      exact volume.directory.size location (wasHeld location held)
    case vacant => exact fun location vacant => if_neg vacant
    case valid =>
      intro location held
      rw [entryOf_congr (sameSlot location held)]
      exact volume.directory.valid location (wasHeld location held)
    case distinct =>
      intro location other held held' same
      rw [entryOf_congr (sameSlot location held), entryOf_congr (sameSlot other held')] at same
      exact volume.directory.distinct location other (wasHeld location held)
        (wasHeld other held') same

/-! ## Stopping anywhere -/

/-- A disk that is too small is left alone. -/
theorem startsSafely_of_small (small : t.total < minDiskSectors) : StartsSafely t := by
  have meets : Meets fsInit t (fun _ _ => False) fun _ t' => t'.mounted = false := by
    unfold fsInit
    refine .bind (.modify (.bind (.get (.bind (.require (fun _ => ?_) fun _ => rfl)))))
    refine .bind (.require (fun large => ?_) fun _ => rfl)
    exact absurd large (Nat.not_le.mpr small)
  cases run : fsInit t with
  | ok result t' => exact (meets.ok_of_run run).elim
  | error error t' => exact Or.inr ⟨error, t', run, meets.error_of_run run⟩

/-- What the disk holds when `fs_format` stops, whichever transfers fail. -/
theorem fsFormat_during {sectors : Nat → Sector}
    (device : s.diskSectors = 0 ∨ s.diskSectors = s.total) (isWord : s.total < wordSize)
    (during : During fsFormat s sectors) :
    volumeOf sectors = s.disk ∨ minDiskSectors ≤ s.total ∧
      ∃ shift, LaidOut (s.total - fsLbaStart) shift ∧
        (Begun (formatLayout (s.total - fsLbaStart)) shift s.disk (volumeOf sectors) ∨
          Fresh (formatLayout (s.total - fsLbaStart)) shift (volumeOf sectors)) := by
  rcases during with rfl | member
  · exact Or.inl rfl
  have spec := @fsFormat_spec { s with history := [] } device isWord
  unfold finalState at member
  cases run : fsFormat { s with history := [] } with
  | ok value s' =>
      rw [run] at member
      rcases spec.ok_of_run run with ⟨large, shift, laidOut, new⟩
      rcases new.reformats.history sectors member with before | new
      · cases before
      · exact Or.inr ⟨large, shift, laidOut, new⟩
  | error error s' =>
      rw [run] at member
      rcases spec.error_of_run run with ⟨_, rfl⟩ | ⟨_, large, shift, laidOut, failed⟩
      · cases member
      · rcases failed.reformats.history sectors member with before | new
        · cases before
        · exact Or.inr ⟨large, shift, laidOut, new⟩

theorem Fresh.mounts {total shift : Nat} (laidOut : LaidOut total shift) (large : 64 ≤ total)
    (small : total < 2 ^ 32 - 2 ^ 19) (fresh : Fresh (formatLayout total) shift t.disk)
    (quiet : t.Quiet) (isTotal : t.total = fsLbaStart + total) : Mounts t := by
  have volume : Volume (laidOut.format large small []) t.disk freshOwn :=
    Fresh.volume fresh rfl rfl
  exact volume.mounts quiet isTotal

/-- A filesystem of which a cluster's FAT entry is among the cleared sectors does not
survive a stop behind that entry. -/
theorem format_breaks (device : s.diskSectors = 0 ∨ s.diskSectors = s.total)
    (small : s.total ≤ 0x0FFFFFFF) (isTotal : F.total = s.total)
    (volume : Volume F s.disk own) (taken : Taken own cluster)
    (near : 1 + cluster / fatPerSector < (formatLayout (s.total - fsLbaStart)).dataStart +
      (formatLayout (s.total - fsLbaStart)).clusterSectors) :
    ∃ sectors, During fsFormat { s with fails := fun _ => false } sectors ∧
      ∀ t : Fs, t.sectors = sectors → t.total = s.total → t.Quiet → ¬ StartsSafely t := by
  have isMin : minDiskSectors = 4160 := rfl
  have isStart : fsLbaStart = 4096 := rfl
  have isWord : wordSize = 2 ^ 32 := rfl
  have large : minDiskSectors ≤ s.total := by
    rw [← isTotal]
    exact F.large
  rcases @formatLayout_laidOut (s.total - fsLbaStart) (by omega) (by omega) with
    ⟨shift, laidOut⟩
  have passed := @fsFormat_passed { s with fails := fun _ => false, history := [] } shift
    device large laidOut fun _ => rfl
  have isData : (formatLayout (s.total - fsLbaStart)).dataStart =
    1 + (formatLayout (s.total - fsLbaStart)).fatSectors := rfl
  rw [laidOut.sectors, isData] at near
  rcases passed (1 + cluster / fatPerSector) (Nat.le_add_right 1 _)
    (by change _ ≤ (formatLayout (s.total - fsLbaStart)).fatSectors + 2 ^ shift; omega) with
    ⟨sectors, member, isErased⟩
  refine ⟨sectors, Or.inr member, ?_⟩
  rintro t rfl isTotal' quiet safe
  have disk : t.disk = erased (1 + cluster / fatPerSector) s.disk := isErased
  have isLabel : t.disk 0 = F.label := by
    rw [disk, erased, if_neg (by omega)]
    exact volume.label
  rcases safe.volume quiet (isTotal'.trans isTotal.symm) isLabel with ⟨own', after⟩
  rw [disk] at after
  exact volume.not_erased taken after

/-- Wherever the formatting of a disk is stopped, the next start is safe, if and only if
the sectors that it clears have no FAT entry of a cluster that the old filesystem uses. -/
theorem interrupted_format_iff (device : s.diskSectors = 0 ∨ s.diskSectors = s.total)
    (small : s.total ≤ 0x0FFFFFFF)
    (known : s.label.magic ≠ magicValue ∨ ∃ F own, F.total = s.total ∧ Volume F s.disk own) :
    (∀ fails sectors, During fsFormat { s with fails := fails } sectors →
      ∀ t : Fs, t.sectors = sectors → t.total = s.total → t.Quiet → SafeStop s t) ↔
      OldChainsKept s := by
  have isMin : minDiskSectors = 4160 := rfl
  have isStart : fsLbaStart = 4096 := rfl
  have isWord : wordSize = 2 ^ 32 := rfl
  constructor
  · intro safe F own isTotal volume cluster taken
    by_contra near
    rcases format_breaks device small isTotal volume taken (by omega) with
      ⟨sectors, during, breaks⟩
    let t : Fs := { s with sectors := sectors, fails := fun _ => false }
    have stop := safe _ sectors during t rfl rfl fun _ => rfl
    exact breaks t rfl rfl (fun _ => rfl) stop.starts
  · intro kept fails sectors during t isSectors isTotal quiet
    have disk : t.disk = volumeOf sectors := by
      unfold Fs.disk
      rw [isSectors]
    have word : s.total < wordSize := by omega
    have blank : t.disk 0 = s.disk 0 → s.label.magic ≠ magicValue → StartsSafely t := by
      intro same other
      by_cases large : minDiskSectors ≤ t.total
      · refine Or.inl (mounts_of_blank quiet large (by omega) ?_)
        unfold Fs.label
        rw [same]
        exact other
      · exact startsSafely_of_small (Nat.not_le.mp large)
    rcases @fsFormat_during { s with fails := fails } sectors device word during with
      same | ⟨large, shift, laidOut, begun | fresh⟩
    · have same : t.disk = s.disk := disk.trans same
      refine ⟨?_, fun F own _ _ => Or.inr fun cluster _ => by rw [same]⟩
      rcases known with other | ⟨F, own, isTotal', volume⟩
      · exact blank (by rw [same]) other
      · rw [← same] at volume
        exact Or.inl (volume.mounts quiet (isTotal.trans isTotal'.symm))
    · have begun : Begun (formatLayout (s.total - fsLbaStart)) shift s.disk t.disk := by
        rw [disk]
        exact begun
      have far : ∀ F own, F.total = s.total → Volume F s.disk own → ∀ cluster,
          Taken own cluster → (formatLayout (s.total - fsLbaStart)).dataStart + 2 ^ shift ≤
            1 + cluster / fatPerSector := by
        rw [← laidOut.sectors]
        exact kept
      refine ⟨?_, fun F own isTotal' volume => Or.inr fun cluster taken =>
        begun.fatAt_eq (far F own isTotal' volume cluster taken)⟩
      rcases known with other | ⟨F, own, isTotal', volume⟩
      · exact blank begun.label other
      · have after := volume.begun begun (far F own isTotal' volume)
        exact Or.inl (after.mounts quiet (isTotal.trans isTotal'.symm))
    · dsimp only at large laidOut fresh
      rw [← disk] at fresh
      exact ⟨Or.inl (fresh.mounts laidOut (by omega) (by omega) quiet (by omega)),
        fun _ _ _ _ => Or.inl ⟨shift, fresh⟩⟩

/-- A blank disk has no chains to lose. -/
theorem interrupted_format_blank :
    OldChainsKept (Fs.blank minDiskSectors) ∧ ∀ fails sectors,
      During fsFormat { Fs.blank minDiskSectors with fails := fails } sectors →
      ∀ t : Fs, t.sectors = sectors → t.total = minDiskSectors → t.Quiet →
        SafeStop (Fs.blank minDiskSectors) t := by
  have other : (Fs.blank minDiskSectors).label.magic ≠ magicValue := by decide +kernel
  have kept : OldChainsKept (Fs.blank minDiskSectors) := by
    intro F own _ volume
    exact absurd F.magic (by rw [← label_eq volume.label]; exact other)
  exact ⟨kept, (interrupted_format_iff (Or.inl rfl) (by decide) (Or.inl other)).mpr kept⟩

/-- A filesystem that was just made does not survive when it is made again. -/
theorem reformat_breaks :
    ∃ (s : Fs) (F : Format) (own : Ownership), Formatted s ∧ F.total = s.total ∧
      Volume F s.disk own ∧ ∃ fails sectors,
        During fsFormat { s with fails := fails } sectors ∧
        ∃ t : Fs, t.sectors = sectors ∧ t.total = s.total ∧ t.Quiet ∧ ¬ StartsSafely t := by
  rcases blank_formatted with ⟨s, formatted, quiet, isTotal⟩
  rcases formatted.ready with ⟨F, _, _, _, ready, _⟩
  have inv := ready.between.inv
  have volume : Volume F s.disk freshOwn := by
    rw [← Fs.image_of_clean (ready.clean quiet)]
    exact inv.volume
  have taken : Taken freshOwn 1 := Or.inl (List.mem_singleton_self 1)
  rcases format_breaks (Or.inr ready.device) (by rw [isTotal]; decide) inv.total.symm volume
    taken (by rw [isTotal]; decide) with ⟨sectors, during, breaks⟩
  exact ⟨s, F, freshOwn, formatted, inv.total.symm, volume, _, sectors, during,
    { s with sectors := sectors }, rfl, rfl, quiet, breaks _ rfl rfl quiet⟩

end Starting

end Katela.Filesystem
