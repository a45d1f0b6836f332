import Katela.Filesystem.CrashSafety
import Katela.Filesystem.HostileDisk

/-! # Runs on a hostile disk

A run of calls stays within the filesystem as long as each of its calls starts at a number
in range. The numbers that a call starts at are those of its handle or its iterator, or,
where the call opens a file on its own, those of the entry that it finds. -/

namespace Katela.Filesystem

/-- The directory has an entry with the given name. -/
def Finds (s : Fs) (name : Option CString) (location : Location) (entry : DirEntry) : Prop :=
  ∃ accepted res s', name = some accepted ∧ dirLookup accepted s = .ok res s' ∧
    res.found = some (location, entry)

/-- The number of the first cluster that an entry has is none or in range. -/
def DirEntry.InRange (sb : SuperBlock) (entry : DirEntry) : Prop :=
  entry.first = 0 ∨ Filesystem.InRange sb entry.first

/-- The place of an iterator is within a cluster of the directory. -/
def FsIter.Sound (sb : SuperBlock) (shift : Nat) (it : FsIter) : Prop :=
  it.cluster = 0 ∨ InRange sb it.cluster ∧ it.sector < 2 ^ shift

section Calls

variable {sb : SuperBlock} {shift : Nat} {s : Fs} {file : FileRef} {iter : Nat}
variable {Handle : FsFile → Prop}
variable {Records : (FileRef → FsFile) → (Nat → FsIter) → Prop}

/-! ## Calls by name -/

/-- A program that keeps a state tame. -/
abbrev StaysTame {α : Type} (sb : SuperBlock) (shift : Nat) (program : FsM α) (s : Fs) :
    Prop :=
  Meets program s (fun _ s' => Tame sb shift (fun _ _ => True) s')
    fun _ s' => Tame sb shift (fun _ _ => True) s'

theorem staysTame_of_yields {α : Type} {program : FsM α}
    (yields : Yields (Tame sb shift fun _ _ => True) (fun _ => True) program)
    (tame : Tame sb shift (fun _ _ => True) s) : StaysTame sb shift program s :=
  (yields s tame).mono (fun _ _ still => still.1) fun _ _ still => still

theorem nameCheck_tame (name : Option CString) :
    Yields (Tame sb shift Records) (fun accepted => name = some accepted)
      (nameCheck name) := by
  cases name with
  | none => exact .throw
  | some name => exact .ite (fun _ => .pure rfl) fun _ => .throw

theorem fsCreate_tame (geometry : Geometry sb shift) (name : Option CString)
    (tame : Tame sb shift (fun _ _ => True) s) : StaysTame sb shift (fsCreate name) s := by
  refine finish_tame geometry (staysTame_of_yields ?_ tame)
  unfold createImpl
  refine .bind requireMounted_tame fun _ _ => .bind (nameCheck_tame name) fun name _ => ?_
  refine .bind (dirLookup_tame geometry name) fun res inside => .bind .require fun _ _ => ?_
  exact .bind (entryCreate_tame geometry name inside) fun _ _ => .pure trivial

theorem fsRemove_tame (geometry : Geometry sb shift) (name : Option CString)
    (tame : Tame sb shift (fun _ _ => True) s) : StaysTame sb shift (fsRemove name) s := by
  refine finish_tame geometry (staysTame_of_yields ?_ tame)
  unfold removeImpl
  refine .bind requireMounted_tame fun _ _ => .bind (nameCheck_tame name) fun name _ => ?_
  refine .bind (dirLookup_tame geometry name) fun res inside => ?_
  cases isFound : res.found with
  | none => exact .throw
  | some found =>
      exact .bind (slotStore_tame geometry (inside.found found.1 found.2 isFound) _)
        fun _ _ => chainFree_tame geometry _

theorem fsRename_tame (geometry : Geometry sb shift) (source target : Option CString)
    (tame : Tame sb shift (fun _ _ => True) s) :
    StaysTame sb shift (fsRename source target) s := by
  refine staysTame_of_yields ?_ tame
  unfold fsRename
  refine .bind requireMounted_tame fun _ _ => .bind (nameCheck_tame source) fun source _ =>
    .bind (nameCheck_tame target) fun target _ => ?_
  refine .bind (dirLookup_tame geometry target) fun _ _ => .bind .require fun _ _ => ?_
  refine .bind (dirLookup_tame geometry source) fun res inside => ?_
  cases isFound : res.found with
  | none => exact .throw
  | some found =>
      exact slotStore_tame geometry (inside.found found.1 found.2 isFound) _

/-! ## Opening -/

/-- A new handle is what the entry says that it is filled in from. -/
theorem openImpl_tame (geometry : Geometry sb shift) {name : Option CString}
    {creates : Bool} (tame : Tame sb shift (fun _ _ => True) s)
    (found : s.mounted = true → ∀ location entry, InData sb location.sector →
      Finds s name location entry → Handle (opened location entry))
    (made : ∀ location accepted, InData sb location.sector →
      Handle (opened location (newEntry accepted))) :
    Meets (openImpl name file creates) s
      (fun _ s' => Holding sb shift file Handle s')
      fun _ s' => Tame sb shift (fun _ _ => True) s' := by
  unfold openImpl
  refine .bind (requireMounted_meets (fun mounted => ?_) tame)
  cases name with
  | none => exact .bind (.throw tame)
  | some accepted =>
      refine .bind (.ite (fun _ => .pure ?_) fun _ => .throw tame)
      refine .bind (((dirLookup_tame geometry accepted s tame).and .run).mono ?_
        fun _ _ failed => failed.1)
      rintro res s1 ⟨⟨tame1, inside⟩, looked⟩
      cases isFound : res.found with
      | some pair =>
          rcases pair with ⟨location, entry⟩
          exact .modify (tame1.setFile (found mounted location entry
            (inside.found location entry isFound) ⟨accepted, res, s1, rfl, looked, isFound⟩))
      | none =>
          refine .bind (.require (fun _ => ?_) fun _ => tame1)
          refine (entryCreate_tame geometry accepted inside s1 tame1).seq ?_
            fun _ _ still => still
          rintro ⟨location, entry⟩ s2 ⟨tame2, inData, isNew⟩
          change entry = newEntry accepted at isNew
          subst isNew
          exact .modify (tame2.setFile (made location accepted inData))

theorem fsOpen_tame (Handle : FsFile → Prop) (geometry : Geometry sb shift)
    {name : Option CString} {creates : Bool}
    (tame : Tame sb shift (fun _ _ => True) s)
    (found : s.mounted = true → ∀ location entry, InData sb location.sector →
      Finds s name location entry → Handle (opened location entry))
    (made : ∀ location accepted, InData sb location.sector →
      Handle (opened location (newEntry accepted))) :
    Meets (fsOpen name file creates) s (fun _ s' => Holding sb shift file Handle s')
      fun _ s' => Tame sb shift (fun _ _ => True) s' :=
  finish_tame geometry (openImpl_tame geometry tame found made)

theorem opened_sound {location : Location} {entry : DirEntry}
    (inData : InData sb location.sector) (inRange : entry.InRange sb) :
    (opened location entry).Sound sb :=
  ⟨inData, inRange, inRange⟩

theorem newEntry_inRange (name : CString) : (newEntry name).InRange sb := Or.inl rfl

/-! ## Whole files -/

theorem readAllLoop_tame (geometry : Geometry sb shift) (size rounds : Nat) :
    ∀ out, Yields (Holding sb shift .stack (FsFile.Sound sb)) (fun _ => True)
      (readAllLoop size rounds out) := by
  have reads : ∀ offset count, Yields (Holding sb shift .stack (FsFile.Sound sb))
      (fun _ => True) (fsRead .stack offset count) := by
    intro offset count s holding
    exact (fsRead_tame geometry lasting_sound offset count holding fun _ _ _ =>
      holding.records.reachable _).mono (fun _ _ still => ⟨still, trivial⟩)
        fun _ _ still => still
  induction rounds with
  | zero => exact fun _ => .pure trivial
  | succ rounds induction =>
      intro out
      unfold readAllLoop
      refine .ite (fun _ => ?_) fun _ => .pure trivial
      exact .bind (reads _ _) fun _ _ => .bind .require fun _ _ => induction _

theorem fsReadAll_tame (geometry : Geometry sb shift) {name : Option CString}
    (tame : Tame sb shift (fun _ _ => True) s)
    (sound : s.mounted = true → ∀ location entry, Finds s name location entry →
      0 < entry.size → entry.size ≤ fsReadAllMax → entry.InRange sb) :
    StaysTame sb shift (fsReadAll name) s := by
  unfold fsReadAll
  refine (fsOpen_tame (fun handle => 0 < handle.size → handle.size ≤ fsReadAllMax →
    handle.Sound sb) geometry tame ?_ ?_).seq ?_ fun _ _ still => still
  · exact fun mounted location entry inData finds some small =>
      opened_sound inData (sound mounted location entry finds some small)
  · exact fun location accepted inData _ _ => opened_sound inData (newEntry_inRange accepted)
  · intro _ s1 holding
    refine .bind (.get (.bind (.require (fun small => ?_) fun _ => holding.any)))
    by_cases some : 0 < (s1.files .stack).size
    · have isSound : Holding sb shift .stack (FsFile.Sound sb) s1 :=
        holding.with (holding.records some small)
      exact (readAllLoop_tame geometry _ _ [] s1 isSound).mono
        (fun _ _ still => still.1.any) fun _ _ still => still.any
    · rw [Nat.eq_zero_of_not_pos some]
      exact .pure holding.any

theorem writeAllLoop_tame (geometry : Geometry sb shift) (buffer : Nat → UInt8)
    (size rounds : Nat) : ∀ (written : Nat) (s : Fs),
    Holding sb shift .stack (FsFile.Sound sb) s →
    StaysTame sb shift (writeAllLoop buffer size rounds written) s := by
  induction rounds with
  | zero => exact fun _ _ holding => .pure holding.any
  | succ rounds induction =>
      intro written s holding
      unfold writeAllLoop
      refine .ite (fun _ => ?_) fun _ => .pure holding.any
      refine (fsWrite_tame geometry lasting_sound (fun _ sound => sound.directory) _ _ _
        holding fun _ _ => holding.records.reachable _).seq ?_ fun _ _ still => still
      intro stored s1 holding1
      exact .bind (.require (fun _ => induction _ s1 holding1) fun _ => holding1.any)

theorem fsWriteAll_tame (geometry : Geometry sb shift) {name : Option CString}
    (buffer : Nat → UInt8) (size : Nat) (tame : Tame sb shift (fun _ _ => True) s)
    (sound : s.mounted = true → ∀ location entry, Finds s name location entry →
      0 < size → entry.size = 0 → entry.InRange sb) :
    StaysTame sb shift (fsWriteAll name buffer size) s := by
  unfold fsWriteAll
  refine (fsOpen_tame (fun handle => handle.Placed sb ∧ (0 < size → handle.size = 0 →
    handle.Sound sb)) geometry tame ?_ ?_).seq ?_ fun _ _ still => still
  · exact fun mounted location entry inData finds => ⟨inData, fun some empty =>
      opened_sound inData (sound mounted location entry finds some empty)⟩
  · exact fun location accepted inData => ⟨inData, fun _ _ =>
      opened_sound inData (newEntry_inRange accepted)⟩
  · intro _ s1 holding
    by_cases some : 0 < size
    · refine (fsTruncate_zero geometry (holding.with holding.records.1)
        (holding.records.2 some)).seq ?_ fun _ _ still => still
      exact fun _ s2 isSound => writeAllLoop_tame geometry buffer size size 0 s2 isSound
    · refine (fsTruncate_tame geometry 0 holding.any fun _ _ =>
        ⟨holding.records.1, fun impossible => absurd impossible (Nat.lt_irrefl 0)⟩).seq ?_
          fun _ _ still => still
      rw [Nat.eq_zero_of_not_pos some]
      exact fun _ s2 still => .pure still

/-! ## Listing and usage -/

/-- A tame state in which an iterator is within the directory. -/
abbrev Walking (sb : SuperBlock) (shift : Nat) (iter : Nat) : Fs → Prop :=
  Tame sb shift fun _ iters => (iters iter).Sound sb shift

theorem Tame.setIter (tame : Tame sb shift Records s) {change : FsIter → FsIter}
    (sound : (change (s.iters iter)).Sound sb shift) :
    Walking sb shift iter (s.setIter iter change) := by
  refine ⟨tame.isSb, tame.isShift, tame.disk, tame.cache, tame.confined, ?_⟩
  simp only [Fs.setIter, Function.update_self]
  exact sound

theorem Tame.moveIter (tame : Tame sb shift Records s) (iter : Nat)
    (change : FsIter → FsIter) :
    Tame sb shift (fun _ _ => True) (s.setIter iter change) :=
  ⟨tame.isSb, tame.isShift, tame.disk, tame.cache, tame.confined, trivial⟩

/-- The next sector of the directory is in range. -/
theorem iterAdvance_tame (geometry : Geometry sb shift) (tame : Tame sb shift Records s)
    (inRange : InRange sb (s.iters iter).cluster) :
    Meets (iterAdvance iter) s (fun _ s' => Walking sb shift iter s')
      fun _ s' => Tame sb shift (fun _ _ => True) s' := by
  unfold iterAdvance
  refine .bind (.modify (.bind (.get ?_)))
  have isNext : ((s.setIter iter fun it =>
      { it with slot := 0, sector := it.sector + 1 }).iters iter) =
      { s.iters iter with slot := 0, sector := (s.iters iter).sector + 1 } := by
    simp only [Fs.setIter, Function.update_self]
  have moved := tame.moveIter iter (fun it => { it with slot := 0, sector := it.sector + 1 })
  generalize s.setIter iter (fun it =>
    { it with slot := 0, sector := it.sector + 1 }) = s1 at isNext moved ⊢
  refine .ite (fun _ => .bind (.modify ?_)) fun inside => .pure (moved.with ?_)
  · have restarted : Tame sb shift (fun _ iters => (iters iter).sector = 0)
        (s1.setIter iter fun it => { it with sector := 0 }) :=
      (moved.moveIter iter fun it => { it with sector := 0 }).with (by
        simp only [Fs.setIter, Function.update_self])
    refine (chainNext_tame geometry _ _ restarted).seq ?_ fun _ _ still => still.any
    rintro next s2 ⟨tame2, range⟩
    have walking : Walking sb shift iter (s2.setIter iter fun it =>
        { it with cluster := next, steps := it.steps + 1 }) := by
      refine tame2.setIter (range.imp_right fun inRange => ⟨inRange, ?_⟩)
      rw [tame2.records]
      exact Nat.two_pow_pos shift
    exact .bind (.modify (.bind (.get (.require (fun _ => walking) fun _ => walking.any))))
  · rw [moved.isShift] at inside
    rw [isNext] at inside ⊢
    exact Or.inr ⟨inRange, Nat.lt_of_not_le inside⟩

theorem iterLoop_tame (geometry : Geometry sb shift) (rounds : Nat) : ∀ s : Fs,
    Walking sb shift iter s → StaysTame sb shift (iterLoop iter rounds) s := by
  induction rounds with
  | zero => exact fun _ walking => .pure walking.any
  | succ rounds induction =>
      intro s walking
      unfold iterLoop
      refine .bind (.get (.ite (fun _ => .pure walking.any) fun nonzero => ?_))
      rcases walking.records.resolve_left nonzero with ⟨inRange, inCluster⟩
      have bounds := walking.clusterSector_bounds geometry inRange
      have atCluster : Tame sb shift (fun _ iters => InRange sb (iters iter).cluster) s :=
        walking.with inRange
      refine (blockRead_tame geometry (by omega) s atCluster).seq ?_
        fun _ _ still => still.any
      rintro contents s1 ⟨tame1, _⟩
      cases nextUsed contents (slotsPerSector - (s.iters iter).slot) (s.iters iter).slot with
      | some slot => exact .bind (.modify (.pure (tame1.moveIter iter _)))
      | none =>
          refine (iterAdvance_tame geometry tame1 tame1.records).seq ?_
            fun _ _ still => still
          exact fun _ s2 walking => induction s2 walking

theorem fsIterNext_tame (geometry : Geometry sb shift)
    (tame : Tame sb shift (fun _ _ => True) s)
    (sound : s.mounted = true → (s.iters iter).Sound sb shift) :
    StaysTame sb shift (fsIterNext iter) s := by
  unfold fsIterNext
  refine .bind (requireMounted_meets (fun mounted => .bind (.get ?_)) tame)
  exact iterLoop_tame geometry _ s (tame.with (sound mounted))

theorem usageLoop_tame (geometry : Geometry sb shift) (rounds : Nat) : ∀ index count : Nat,
    index + rounds ≤ sb.fatSectors →
    Yields (Tame sb shift Records) (fun _ => True) (usageLoop rounds index count) := by
  induction rounds with
  | zero => exact fun _ _ _ => .pure trivial
  | succ rounds induction =>
      intro index count inFat
      have loads : Yields (Tame sb shift Records) (fun _ => True) (fatLoad (1 + index)) :=
        fun s tame => (fatLoad_tame geometry (Nat.le_add_right 1 index) (by omega) tame).mono
          (fun _ _ loaded => ⟨loaded.1, trivial⟩) fun _ _ still => still
      unfold usageLoop
      exact .bind loads fun _ _ => .bind .get fun s _ => induction _ _ (by omega)

theorem fsUsage_tame (geometry : Geometry sb shift)
    (tame : Tame sb shift (fun _ _ => True) s) : StaysTame sb shift fsUsage s := by
  refine staysTame_of_yields ?_ tame
  unfold fsUsage
  refine .bind requireMounted_tame fun _ _ => .bind .get fun s tame => ?_
  rw [tame.isSb]
  exact .bind (usageLoop_tame geometry _ 0 0 (by omega)) fun _ _ => .pure trivial

end Calls

/-! ## Starting up -/

/-- A disk with a superblock that `mount_now` accepts, to which all transfers so far were
confined. -/
structure Hosted (s : Fs) : Prop where
  small : s.total ≤ 0x0FFFFFFF
  label : Mountable s.total s.label
  confined : ∀ access ∈ s.accesses, access.Confined

/-- The state before a filesystem is in force. -/
structure Dormant (s : Fs) : Prop extends Hosted s where
  unmounted : s.mounted = false
  clean : s.fatDirty = false
  device : s.diskSectors = 0 ∨ s.diskSectors = s.total

/-- What holds after every call. -/
def Contained (s : Fs) : Prop :=
  Dormant s ∨ ∃ sb shift, Geometry sb shift ∧ Tame sb shift (fun _ _ => True) s

section Startup

variable {s : Fs}

theorem Tame.hosted {sb : SuperBlock} {shift : Nat}
    {Records : (FileRef → FsFile) → (Nat → FsIter) → Prop}
    (tame : Tame sb shift Records s) : Hosted s :=
  ⟨tame.disk.small, tame.disk.label, tame.confined⟩

theorem Contained.hosted (contained : Contained s) : Hosted s := by
  rcases contained with dormant | ⟨sb, shift, _, tame⟩
  · exact dormant.toHosted
  · exact tame.hosted

section Accepting

variable {total : Nat} {sb : SuperBlock}

theorem Mountable.sound (mountable : Mountable total sb) (large : minDiskSectors ≤ total)
    (small : total ≤ 0x0FFFFFFF) : SoundLayout total sb := by
  have isWrapping : wrappingDisk = 4261677070 := rfl
  exact (superblockCheck_iff.mp mountable.accepted).sound large (by omega)

theorem Mountable.fits (mountable : Mountable total sb) (large : minDiskSectors ≤ total)
    (small : total ≤ 0x0FFFFFFF) : fsLbaStart + sb.totalSectors ≤ total :=
  (mountable.sound large small).total

/-- A superblock that is accepted describes a filesystem on the disk. -/
theorem Mountable.geometry (mountable : Mountable total sb)
    (large : minDiskSectors ≤ total) (small : total ≤ 0x0FFFFFFF) :
    Geometry sb (shiftFor sb.clusterSectors) := by
  have accepted := superblockCheck_iff.mp mountable.accepted
  have isStart : fsLbaStart = 4096 := rfl
  have sound := mountable.sound large small
  rcases pow_of_and_pred accepted.nonzero accepted.small accepted.power with
    ⟨shift, shift_le, isPow⟩
  have isShift : shiftFor sb.clusterSectors = shift := by
    rw [isPow]
    exact shiftFor_pow shift_le
  have onDisk := sound.total
  have count : sb.clusterCount ≤ sb.totalSectors :=
    accepted.count.trans (Nat.div_le_self _ _)
  rw [isShift]
  refine ⟨isPow, shift_le, ?_, sound.start.symm, ?_, by omega, sound.root.1, sound.root.2⟩
  · rw [accepted.fat]
    exact fatSectorsFor_eq (by omega)
  · rw [← isPow]
    exact sound.fits

/-- A superblock is also accepted on a larger disk. -/
theorem Mountable.mono (mountable : Mountable total sb) {more : Nat} (le : total ≤ more) :
    Mountable more sb := by
  have accepted := superblockCheck_iff.mp mountable.accepted
  refine ⟨mountable.magic, mountable.version, superblockCheck_iff.mpr ?_⟩
  exact ⟨accepted.nonzero, accepted.small, accepted.power,
    accepted.total.trans (Nat.sub_le_sub_right le _), accepted.countPos, accepted.count,
    accepted.fat, accepted.start, accepted.fits, accepted.root⟩

end Accepting

/-- Reading the superblock stays in range, also before a filesystem is in force. -/
theorem Hosted.labelled (hosted : Hosted s) : Hosted s.sized.labelled := by
  refine ⟨hosted.small, hosted.label, fun access member => ?_⟩
  rcases List.mem_cons.mp member with rfl | before
  · have isLba : lbaOf 0 = fsLbaStart := rfl
    refine ⟨Nat.le_of_eq isLba.symm, ?_, by simp⟩
    change lbaOf 0 < fsLbaStart + max 1 s.sb.totalSectors
    omega
  · exact hosted.confined access before

/-- `fs_init` mounts the filesystem or leaves the disk alone. -/
theorem fsInit_contained (contained : Contained s) :
    Meets fsInit s (fun _ s' => Contained s') fun _ s' => Contained s' := by
  have hosted := contained.hosted
  have labelled := hosted.labelled
  by_cases large : minDiskSectors ≤ s.total
  · refine fsInit_spec large (fun mountable => Or.inr ?_) ?_ ?_ fun _ => ?_
    · refine ⟨s.label, _, mountable.geometry large hosted.small, ?_⟩
      exact ⟨rfl, rfl, ⟨large, hosted.small, rfl, mountable.fits large hosted.small,
        hosted.label⟩, nofun, labelled.confined, trivial⟩
    · exact fun other => absurd hosted.label.magic other
    · exact fun _ other => absurd hosted.label other
    · rcases contained with dormant | ⟨sb, shift, geometry, tame⟩
      · exact Or.inl ⟨labelled, rfl, rfl, Or.inr rfl⟩
      · exact Or.inr ⟨sb, shift, geometry, tame.isSb, tame.isShift, ⟨large, hosted.small,
          rfl, tame.disk.fits, hosted.label⟩, nofun, labelled.confined, trivial⟩
  · have still : Contained { s with
        mounted := false, fatCacheSector := noSector, fatDirty := false
        diskSectors := s.total } :=
      Or.inl ⟨⟨hosted.small, hosted.label, hosted.confined⟩, rfl, rfl, Or.inr rfl⟩
    unfold fsInit
    refine .bind (.modify (.bind (.get (.bind (.require (fun _ => ?_) fun _ => still)))))
    exact .bind (.require (fun large' => absurd large' large) fun _ => still)

/-! ## Formatting -/

section Formatting

variable {sb : SuperBlock} {shift : Nat}
variable {Records : (FileRef → FsFile) → (Nat → FsIter) → Prop}

/-- The superblock in force is written over the old one. -/
theorem superblockWrite_tame (geometry : Geometry sb shift) (words : sb.Words)
    (mountable : Mountable (fsLbaStart + sb.totalSectors) sb) :
    Yields (Tame sb shift Records) (fun _ => True)
      (blockWrite .superblock 0 sb.toSector) := by
  intro s tame
  have inside : 0 < sb.totalSectors :=
    Nat.zero_lt_of_lt (geometry.fat_lt_total (Nat.le_refl sb.fatSectors))
  have requested := tame.request geometry (some .superblock) inside (by simp)
  refine (blockWrite_spec s .superblock 0 sb.toSector).mono ?_ ?_
  · rintro _ s' rfl
    refine ⟨⟨requested.isSb, requested.isShift, ?_, requested.cache, requested.confined,
      requested.records⟩, trivial⟩
    have disk := Fs.disk_store (s.request 0 (some .superblock)) sb.toSector
      (geometry.lba_eq inside)
    unfold Fs.label
    rw [disk, Function.update_self, ofSector_toSector words]
    exact { requested.disk with label := mountable.mono requested.disk.fits }
  · rintro _ s' ⟨_, _, rfl⟩
    exact requested

theorem eraseFat_tame (geometry : Geometry sb shift) (rounds : Nat) : ∀ index : Nat,
    Yields (Tame sb shift Records) (fun _ => True) (eraseFat sb.fatSectors rounds index) := by
  have start := geometry.start
  have fits := geometry.fits
  induction rounds with
  | zero => exact fun _ => .pure trivial
  | succ rounds induction =>
      intro index
      unfold eraseFat
      refine .ite (fun more => ?_) fun _ => .pure trivial
      refine .bind (blocksWrite_tame geometry .fat _ (Nat.le_add_right 1 index) ?_ (by simp))
        fun _ _ => induction _
      rw [List.length_replicate]
      omega

theorem formatRoot_tame (geometry : Geometry sb shift) (words : sb.Words)
    (mountable : Mountable (fsLbaStart + sb.totalSectors) sb) :
    Yields (Tame sb shift Records) (fun _ => True) formatRoot := by
  unfold formatRoot
  refine .bind .get fun s tame => ?_
  rw [tame.isSb]
  refine .bind (fatSet_tame geometry _ _) fun _ inRange => ?_
  refine .bind (clusterZero_tame geometry inRange) fun _ _ => ?_
  exact .bind (flush_yields geometry) fun _ _ => superblockWrite_tame geometry words mountable

end Formatting

/-- `fs_format` stays within the filesystem that it makes. -/
theorem formatNow_contained (hosted : Hosted s) (device : s.diskSectors = s.total)
    (large : minDiskSectors ≤ s.total) :
    Meets formatNow s (fun _ s' => Contained s') fun _ s' => Contained s' := by
  have isMin : minDiskSectors = 4160 := rfl
  have isStart : fsLbaStart = 4096 := rfl
  have small := hosted.small
  have isTotal : fsLbaStart + (s.total - fsLbaStart) = s.total := by omega
  have isWord : s.total - fsLbaStart < wordSize := by
    simp only [wordSize]
    omega
  rcases @formatLayout_laidOut (s.total - fsLbaStart) (by omega) isWord with
    ⟨shift, laidOut⟩
  have geometry : Geometry (formatLayout (s.total - fsLbaStart)) shift :=
    (laidOut.format (by omega) (by omega) []).geometry
  have mountable : Mountable (fsLbaStart + (s.total - fsLbaStart))
    (formatLayout (s.total - fsLbaStart)) := ⟨rfl, rfl, laidOut.accepted isWord⟩
  have isShift : shiftFor (formatLayout (s.total - fsLbaStart)).clusterSectors = shift := by
    rw [laidOut.sectors]
    exact shiftFor_pow laidOut.shift_le
  have contained : ∀ s', Tame (formatLayout (s.total - fsLbaStart)) shift
      (fun _ _ => True) s' → Contained s' :=
    fun s' tame => Or.inr ⟨_, shift, geometry, tame⟩
  unfold formatNow
  refine .bind (.get ?_)
  rw [device]
  refine .bind (.require (fun _ => ?_) fun other => absurd large other)
  dsimp only
  refine .bind (.require (fun _ => ?_) fun few => absurd
    (Nat.le_trans (by decide : minClusters ≤ 48) laidOut.enough) few)
  have start : Tame (formatLayout (s.total - fsLbaStart)) shift (fun _ _ => True)
      { s with
        mounted := false
        fatCacheSector := noSector
        fatDirty := false
        nextFree := 1
        sb := formatLayout (s.total - fsLbaStart)
        clusterShift := shiftFor (formatLayout (s.total - fsLbaStart)).clusterSectors } :=
    ⟨rfl, isShift, ⟨large, small, device, Nat.le_of_eq isTotal, hosted.label⟩,
      fun dirty => Bool.noConfusion dirty, hosted.confined, trivial⟩
  refine .bind (.modify ((eraseFat_tame geometry _ 0 _ start).seq ?_
    fun _ s' tame => contained s' tame))
  rintro _ s1 ⟨tame1, _⟩
  have mounted : Tame (formatLayout (s.total - fsLbaStart)) shift (fun _ _ => True)
      { s1 with mounted := true } :=
    ⟨tame1.isSb, tame1.isShift, tame1.disk, tame1.cache, tame1.confined, trivial⟩
  refine .bind (.modify (.bind (.attempt ((formatRoot_tame geometry (laidOut.words isWord)
    mountable _ mounted).mono ?_ ?_))))
  · exact fun _ s2 tame2 => .pure (contained s2 tame2.1)
  · exact fun error s2 tame2 => .bind (.modify (.throw (contained _ ⟨tame2.isSb,
      tame2.isShift, tame2.disk, tame2.cache, tame2.confined, trivial⟩)))

theorem fsFormat_contained (contained : Contained s) :
    Meets fsFormat s (fun _ s' => Contained s') fun _ s' => Contained s' := by
  have isMin : minDiskSectors = 4160 := rfl
  have hosted := contained.hosted
  have sized : Contained s.sized := by
    rcases contained with dormant | ⟨sb, shift, geometry, tame⟩
    · exact Or.inl ⟨⟨hosted.small, hosted.label, hosted.confined⟩, dormant.unmounted,
        dormant.clean, Or.inr rfl⟩
    · rw [Fs.sized_eq tame.disk.device]
      exact Or.inr ⟨sb, shift, geometry, tame⟩
  have device : s.diskSectors = 0 ∨ s.diskSectors = s.total := by
    rcases contained with dormant | ⟨sb, shift, geometry, tame⟩
    · exact dormant.device
    · exact Or.inr tame.disk.device
  have rest : Meets (do
      let s ← get
      require (s.diskSectors ≠ 0) .nodev
      formatNow : FsM Unit) s.sized (fun _ s' => Contained s') fun _ s' => Contained s' := by
    refine .bind (.get (.bind (.require (fun _ => ?_) fun _ => sized)))
    by_cases large : minDiskSectors ≤ s.total
    · exact formatNow_contained (s := s.sized)
        ⟨hosted.small, hosted.label, hosted.confined⟩ rfl large
    · unfold formatNow
      exact .bind (.get (.bind (.require (fun large' => absurd large' large)
        fun _ => sized)))
  unfold fsFormat
  refine .bind (.get (.ite (fun _ => .bind (.modify rest)) fun known => ?_))
  rw [Fs.sized_eq (device.resolve_left known)] at rest
  exact rest

end Startup

/-! ## Runs -/

/-- Every number that the call uses without a check is in range. Calls that deliver or store
nothing use none. -/
def Call.StartsInRange (s : Fs) : Call → Prop
  | .read file offset count =>
      offset.toNat < (s.files (.caller file)).size → 0 < count.toNat →
        (s.files (.caller file)).Reachable s.sb (offset.toNat / clusterBytes s)
  | .write file offset _ count =>
      offset.toNat ≤ (s.files (.caller file)).size →
        0 < writeLimit offset.toNat count.toNat →
          (s.files (.caller file)).Placed s.sb ∧
            (s.files (.caller file)).Reachable s.sb (offset.toNat / clusterBytes s)
  | .truncate file size =>
      size.toNat < (s.files (.caller file)).size →
        (s.files (.caller file)).Placed s.sb ∧
          (0 < size.toNat →
            (s.files (.caller file)).Reachable s.sb ((size.toNat - 1) / clusterBytes s))
  | .readAll name =>
      ∀ location entry, Finds s name location entry → 0 < entry.size →
        entry.size ≤ fsReadAllMax → entry.InRange s.sb
  | .writeAll name _ size =>
      ∀ location entry, Finds s name location entry → 0 < size.toNat →
        entry.size = 0 → entry.InRange s.sb
  | .iterNext iter => (s.iters iter).Sound s.sb s.clusterShift
  | _ => True

section Runs

variable {s start : Fs}

/-- A call before a filesystem is in force. -/
theorem dormant_contained (dormant : Dormant s) (call : Call) :
    Contained (perform call s).2 := by
  have refused : (∃ error, perform call s = (.error error, s)) →
      Contained (perform call s).2 := by
    rintro ⟨error, performed⟩
    rw [performed]
    exact Or.inl dormant
  have unmounted : ∀ {α : Type} {rest : FsM α} {reply : α → Reply},
      call.run = reply <$> (requireMounted >>= fun _ => rest) →
      Contained (perform call s).2 := by
    intro α rest reply isRun
    refine perform_state Contained rfl isRun ((requireMounted_unmounted
      dormant.unmounted).mono (fun _ _ impossible => impossible.elim) ?_)
    rintro _ s' rfl
    exact Or.inl dormant
  cases call with
  | init => exact perform_state Contained rfl rfl (fsInit_contained (Or.inl dormant))
  | format => exact perform_state Contained rfl rfl (fsFormat_contained (Or.inl dormant))
  | iterBegin iter =>
      exact Or.inl ⟨⟨dormant.small, dormant.label, dormant.confined⟩, dormant.unmounted,
        dormant.clean, dormant.device⟩
  | iterNext iter => exact unmounted rfl
  | usage => exact unmounted rfl
  | _ => exact refused (onFiles_unmounted dormant.unmounted dormant.clean trivial)

/-- A call that starts at a number in range. -/
theorem tame_contained {sb : SuperBlock} {shift : Nat} (geometry : Geometry sb shift)
    (tame : Tame sb shift (fun _ _ => True) s) (call : Call)
    (inRange : s.mounted = true → call.StartsInRange s) : Contained (perform call s).2 := by
  have contained : ∀ s', Tame sb shift (fun _ _ => True) s' → Contained s' :=
    fun s' tame' => Or.inr ⟨sb, shift, geometry, tame'⟩
  have stays : ∀ {α : Type} {program : FsM α} {reply : α → Reply},
      call.run = reply <$> program → StaysTame sb shift program s →
      Contained (perform call s).2 := by
    intro α program reply isRun meets
    exact perform_state Contained rfl isRun
      (meets.mono (fun _ s' tame' => contained s' tame') fun _ s' tame' => contained s' tame')
  cases call with
  | init =>
      exact perform_state Contained rfl rfl (fsInit_contained (contained s tame))
  | format =>
      exact perform_state Contained rfl rfl (fsFormat_contained (contained s tame))
  | create name => exact stays rfl (fsCreate_tame geometry name tame)
  | remove name => exact stays rfl (fsRemove_tame geometry name tame)
  | rename source target => exact stays rfl (fsRename_tame geometry source target tame)
  | «open» name file creates =>
      exact stays rfl (fsOpen_tame (fun _ => True) geometry tame
        (fun _ _ _ _ _ => trivial) fun _ _ _ => trivial)
  | read file offset count =>
      refine stays rfl (fsRead_tame geometry lasting_true
        offset.toNat count.toNat tame fun mounted inside some => ?_)
      have reachable := inRange mounted inside some
      rw [tame.isSb] at reachable
      exact reachable
  | write file offset buffer count =>
      refine stays rfl ?_
      by_cases acts : s.mounted = true ∧ offset.toNat ≤ (s.files (.caller file)).size ∧
          0 < writeLimit offset.toNat count.toNat
      · have range := inRange acts.1 acts.2.1 acts.2.2
        rw [tame.isSb] at range
        exact (fsWrite_tame geometry lasting_placed (fun _ placed => placed) offset.toNat
          buffer count.toNat (tame.with range.1) fun _ _ => range.2).mono
            (fun _ _ still => still.any) fun _ _ still => still
      · refine finish_tame geometry ((writeImpl_refused offset.toNat buffer count.toNat
          acts).mono ?_ ?_)
        · rintro _ s' rfl
          exact tame
        · rintro _ s' rfl
          exact tame
  | truncate file size =>
      refine stays rfl (fsTruncate_tame geometry size.toNat tame fun mounted shorter => ?_)
      have range := inRange mounted shorter
      rw [tame.isSb] at range
      exact range
  | readAll name =>
      refine stays rfl (fsReadAll_tame geometry tame
        fun mounted location entry finds some small => ?_)
      have range := inRange mounted location entry finds some small
      rw [tame.isSb] at range
      exact range
  | writeAll name buffer size =>
      refine stays rfl (fsWriteAll_tame geometry buffer size.toNat tame
        fun mounted location entry finds some empty => ?_)
      have range := inRange mounted location entry finds some empty
      rw [tame.isSb] at range
      exact range
  | iterBegin iter => exact stays rfl (.modify (tame.moveIter iter _))
  | iterNext iter =>
      refine stays rfl (fsIterNext_tame geometry tame fun mounted => ?_)
      have sound := inRange mounted
      change (s.iters iter).Sound s.sb s.clusterShift at sound
      rw [tame.isSb, tame.isShift] at sound
      exact sound
  | usage => exact stays rfl (fsUsage_tame geometry tame)

/-- A disk with a superblock that `mount_now` accepts, as the program starts. -/
structure AtBoot (s : Fs) : Prop where
  small : s.total ≤ 0x0FFFFFFF
  label : Mountable s.total s.label
  unmounted : s.mounted = false
  clean : s.fatDirty = false
  unknown : s.diskSectors = 0
  accesses : s.accesses = []

/-- The states that calls of the allowed kind lead to. -/
inductive Leads (Allowed : Fs → Call → Prop) (start : Fs) : Fs → Prop where
  | start : Leads Allowed start start
  | call {s : Fs} {call : Call} (before : Leads Allowed start s) (allowed : Allowed s call) :
      Leads Allowed start (perform call s).2

/-- The calls that stay within the filesystem. -/
def Safe (s : Fs) (call : Call) : Prop := s.mounted = true → call.StartsInRange s

/-- Numbers that the FAT has no entry for are reported as `FS_ERR_CORRUPT` when the FAT
would be used with them, or when the FAT gives them. -/
structure Reports (s : Fs) : Prop where
  cluster : ∀ cluster, ¬ InRange s.sb cluster → fatGet cluster s = .error .corrupt s
  value : ∀ cluster value s', fatGet cluster s = .ok value s' → value ≠ chainEnd →
    ¬ InRange s.sb value → chainNext cluster s = .error .corrupt s'
  walk : ∀ file index allocate, (s.files file).first ≠ 0 →
    ((s.files file).walkStart index).2 < index →
      ¬ InRange s.sb ((s.files file).walkStart index).1 →
        fileReach file index allocate s = .error .corrupt s

/-- A program that fails without a change. -/
theorem error_of_meets {α : Type} {program : FsM α} {error : FsError}
    (fails : Meets program s (fun _ _ => False) fun error' s' => error' = error ∧ s' = s) :
    program s = .error error s := by
  unfold Meets at fails
  cases result : program s with
  | ok value s' =>
      rw [result] at fails
      exact fails.elim
  | error error' s' =>
      rw [result] at fails
      rw [fails.1, fails.2]

theorem fileReach_reports {file : FileRef} {index : Nat} {allocate : Bool}
    (nonzero : (s.files file).first ≠ 0)
    (follows : ((s.files file).walkStart index).2 < index)
    (outside : ¬ InRange s.sb ((s.files file).walkStart index).1) :
    Meets (fileReach file index allocate) s (fun _ _ => False)
      fun error s' => error = .corrupt ∧ s' = s := by
  unfold fileReach reachFirst
  refine .bind (.bind (.get (.ite (fun zero => absurd zero nonzero) fun _ => .pure ?_)))
  refine .bind (.get (.bind ?_))
  rcases Nat.exists_eq_add_of_lt follows with ⟨steps, isIndex⟩
  have isSteps : index - ((s.files file).walkStart index).2 = steps + 1 := by omega
  rw [isSteps]
  unfold reachLoop
  exact (chainNext_reports outside).seq (fun _ _ impossible => impossible.elim)
    fun _ _ fails => fails

theorem reports_of_tame {sb : SuperBlock} {shift : Nat} (geometry : Geometry sb shift)
    (tame : Tame sb shift (fun _ _ => True) s) : Reports s where
  cluster _ outside := error_of_meets (fatGet_reports outside)
  value cluster value s' given notEnd outside := by
    have isSb : s'.sb = s.sb := by
      rw [((fatGet_tame geometry cluster s tame).ok_of_run given).1.isSb, tame.isSb]
    have rest : Meets (do
        if value = chainEnd then return 0
        else do
          let s ← get
          require (1 ≤ value ∧ value ≤ s.sb.clusterCount) .corrupt
          return value : FsM Nat) s' (fun _ _ => False)
        fun error s'' => error = .corrupt ∧ s'' = s' := by
      refine .ite (fun isEnd => absurd isEnd notEnd) fun _ => ?_
      refine .bind (.get (.bind (.require (fun inRange => ?_) fun _ => ⟨rfl, rfl⟩)))
      rw [isSb] at inRange
      exact absurd ⟨inRange.1, inRange.2⟩ outside
    have stepped : chainNext cluster s = (do
        if value = chainEnd then return 0
        else do
          let s ← get
          require (1 ≤ value ∧ value ≤ s.sb.clusterCount) .corrupt
          return value : FsM Nat) s' := by
      unfold chainNext
      change EStateM.bind _ _ s = _
      unfold EStateM.bind
      rw [given]
    rw [stepped]
    exact error_of_meets rest
  walk _ _ _ nonzero follows outside :=
    error_of_meets (fileReach_reports nonzero follows outside)

theorem contained_of_leads (boot : AtBoot start) (leads : Leads Safe start s) :
    Contained s := by
  induction leads with
  | start =>
      refine Or.inl ⟨⟨boot.small, boot.label, fun access member => ?_⟩, boot.unmounted,
        boot.clean, Or.inl boot.unknown⟩
      rw [boot.accesses] at member
      cases member
  | call before safe induction =>
      rcases induction with dormant | ⟨sb, shift, geometry, tame⟩
      · exact dormant_contained dormant _
      · exact tame_contained geometry tame _ safe

end Runs

/-! ## A hostile entry -/

/-- The name "b". -/
def shortName : CString := ⟨[98], by decide⟩

/-- The number of the first cluster of this entry is far behind the end of the disk. -/
def hostileEntry : DirEntry := { newEntry shortName with first := 0xFFFFFFF0 }

/-- A small disk with the superblock of a new filesystem and this entry in its directory. -/
def Fs.hostile : Fs :=
  { Fs.blank minDiskSectors with
    sectors := fun lba =>
      if lba = fsLbaStart then (formatLayout (minDiskSectors - fsLbaStart)).toSector
      else if lba = fsLbaStart + (formatLayout (minDiskSectors - fsLbaStart)).dataStart then
        zeroSector.copyInto 0 dirEntrySize hostileEntry.toBytes
      else zeroSector }

theorem hostile_atBoot : AtBoot Fs.hostile where
  small := by decide
  label := ⟨by decide +kernel, by decide +kernel, by decide +kernel⟩
  unmounted := rfl
  clean := rfl
  unknown := rfl
  accesses := rfl

/-- The disk is mounted and the file is opened. -/
def Fs.hostileOpen : Fs :=
  (perform (.open (some shortName) 0 false) (perform .init .hostile).2).2

end Katela.Filesystem
