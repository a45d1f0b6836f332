import Katela.Filesystem.Transfer

/-! # The calls that take an open file

`fs_write` and `fs_truncate` change the handle first and the directory entry
after it; until then the handle can be ahead of the directory. -/

namespace Katela.Filesystem

section Files

variable {F : Format} {live : FileRef → Prop} {s s' s'' : Fs}
variable {own own' own'' : Ownership} {file : FileRef}

/-- The directory entry of an open file says what its handle says. -/
structure Agrees (s : Fs) (file : FileRef) : Prop where
  first : (entryOf s.image (s.files file).location).first = (s.files file).first
  size : (entryOf s.image (s.files file).location).size = (s.files file).size

/-! ## Storing the handle -/

/-- The slot of the open file takes over its chain. -/
structure Handover (F : Format) (s : Fs) (own own' : Ownership) (file : FileRef) :
    Prop where
  accounted : Accounted s.Quiet F.sb s.image own'
  root : own' .root = own .root
  slots : ∀ location, location ≠ (s.files file).location →
    own' (.slot location) = own (.slot location)
  handles : ∀ other, other ≠ file → own' (.handle other) = own (.handle other)
  mine : own' (.handle file) = []
  chain : own' (.slot (s.files file).location) = chainOf s own file

/-- The directory entry was brought up to date. -/
structure Synced (F : Format) (live : FileRef → Prop) (file : FileRef)
    (s s' : Fs) (own' : Ownership) : Prop where
  inv : Inv F live s' own'
  still : Still s s'
  clean : s'.fatDirty = false
  entry : entryOf s'.image (s.files file).location =
    { entryOf s.image (s.files file).location with
      first := (s.files file).first, size := (s.files file).size }
  entries : ∀ location, location ≠ (s.files file).location →
    entryOf s'.image location = entryOf s.image location
  image_eq : ∀ sector, sector ≠ (s.files file).dirSector →
    s'.image sector = s.image sector

theorem Synced.agrees (synced : Synced F live file s s' own') : Agrees s' file := by
  constructor
  · rw [synced.still.files, synced.entry]
  · rw [synced.still.files, synced.entry]

theorem Inv.first_lt (inv : Inv F live s own) (isLive : live file) :
    (s.files file).first < wordSize := by
  have first := (inv.handles.opened file isLive).first
  have count := F.count_lt
  have small := chainEnd_lt
  cases cells : own (ownerOf s.image file (s.files file)) with
  | nil =>
      rw [cells] at first
      rw [← first]
      decide
  | cons head rest =>
      rw [cells] at first
      have bounds := inv.accounted.bounds _ head (by rw [cells]; simp)
      rw [← first]
      simp only [firstOf_cons]
      omega

theorem fileSync_inv (inv : Inv F live s own) (isLive : live file)
    (handover : Handover F s own own' file) :
    Meets (fileSync file) s
      (fun _ s' => Synced F live file s s' own')
      fun error s' => error = .io ∧ ¬ s.Quiet ∧ Moved s s' s.image := by
  have opened := inv.handles.opened file isLive
  have bounds := inv.slot_bounds opened.holds.inDir
  have firstBound := inv.first_lt isLive
  have inside := opened.holds.inDir.1
  refine (fileSync_spec inv.geometry inv.coherent file bounds.1 bounds.2).mono ?_
    fun _ _ failed => failed
  intro _ s' stored
  have image := stored.image_eq
  generalize isContents : Block.setWordAt _ _ _ = contents at stored image
  have self : entryOf (Function.update s.image (s.files file).dirSector contents)
      (s.files file).location = { entryOf s.image (s.files file).location with
        first := (s.files file).first, size := (s.files file).size } := by
    rw [← isContents]
    simp only [entryOf, FsFile.location, Function.update_self]
    exact entryAt_sync_self inside firstBound opened.bounded
  have others : ∀ location, location ≠ (s.files file).location →
      entryOf (Function.update s.image (s.files file).dirSector contents) location =
        entryOf s.image location := by
    intro location different
    by_cases same : location.sector = (s.files file).dirSector
    · have slots : location.slot ≠ (s.files file).dirSlot := by
        intro equal
        apply different
        cases location
        simp only [FsFile.location, Location.mk.injEq]
        exact ⟨same, equal⟩
      rw [← isContents]
      simp only [entryOf, same, Function.update_self]
      exact entryAt_sync_other slots _ _
    · simp [entryOf, same]
  have used : Used (Function.update s.image (s.files file).dirSector contents)
      (s.files file).location := by
    simp only [Used, self]
    exact opened.holds.used
  have chainFirst : firstOf (chainOf s own file) = (s.files file).first :=
    opened.first
  have directory : Directory F
      (Function.update s.image (s.files file).dirSector contents) own' := by
    refine inv.directory.put opened.holds.inDir others handover.root handover.slots
      ?_ ?_ (fun unused => absurd used unused) ?_ ?_
    · intro _
      rw [self, handover.chain]
      exact chainFirst
    · intro _
      rw [self, handover.chain]
      exact opened.size
    · intro _
      rw [self]
      exact inv.directory.valid _ opened.holds
    · intro _ other different held same
      rw [self] at same
      exact different (inv.directory.distinct other _ held opened.holds same)
  have owner : ownerOf (Function.update s.image (s.files file).dirSector contents)
      file (s.files file) = .slot (s.files file).location := by
    apply if_pos
    rw [self]
  refine ⟨inv.stored stored (by rw [← inv.sb]; exact bounds.1) handover.accounted
    directory ?_, stored.still, stored.clean, ?_, ?_, ?_⟩
  · refine inv.handles.replace isLive
      (fun _ member => by rw [handover.root]; exact member)
      (fun location different _ => others location different) handover.slots
      handover.handles (fun _ _ => rfl) rfl ?_
    constructor
    case holds =>
      refine ⟨?_, used⟩
      rw [handover.root]
      exact opened.holds.inDir
    case first => rw [owner, handover.chain]; exact chainFirst
    case shown => exact fun _ => handover.mine
    case size => rw [owner, handover.chain]; exact opened.size
    case bounded => exact opened.bounded
    case cursor => rw [owner, handover.chain]; exact opened.cursor
  · rw [image]
    exact self
  · intro location different
    rw [image]
    exact others location different
  · intro sector elsewhere
    rw [image]
    exact Function.update_of_ne elsewhere _ _

/-- The chain moves from the handle to the slot, unless the slot shows it
already. What the slot had before is lost, which takes a failed transfer. -/
theorem Inv.handover (inv : Inv F live s own) (isLive : live file)
    (lost : s.Quiet → ownerOf s.image file (s.files file) = .handle file →
      own (.slot (s.files file).location) = []) :
    ∃ own', Handover F s own own' file ∧ own' .spare = own .spare := by
  have opened := inv.handles.opened file isLive
  rcases ownerOf_cases s.image file (s.files file) with ⟨owner, _⟩ | ⟨owner, _⟩
  · refine ⟨own, ⟨inv.accounted, rfl, fun _ _ => rfl, fun _ _ => rfl,
      opened.shown owner, ?_⟩, rfl⟩
    unfold chainOf
    rw [owner]
  · have accounted := inv.accounted.move
      (show Owner.handle file ≠ .slot (s.files file).location by simp)
      fun quiet => lost quiet owner
    refine ⟨_, ⟨accounted, by simp, ?_, ?_, by simp, ?_⟩, by simp⟩
    · intro location different
      simp [different]
    · intro other different
      simp [different]
    · unfold chainOf
      rw [owner]
      simp

/-- A call worked on one open file; the other files stay as they are. -/
structure Advanced (F : Format) (live : FileRef → Prop) (file : FileRef)
    (s s' : Fs) (own own' : Ownership) : Prop where
  between : Between F live s' own'
  same : Same s s'
  iters : s'.iters = s.iters
  files : ∀ other, other ≠ file → s'.files other = s.files other
  location : (s'.files file).location = (s.files file).location
  name : (entryOf s'.image (s.files file).location).name =
    (entryOf s.image (s.files file).location).name
  root : own' .root = own .root
  kept : ∀ location, location ≠ (s.files file).location →
    KeptAt F s.image s'.image own own' location

/-- The other open files stay as the directory says. -/
theorem Between.synced_others (before : Between F live s own) (isLive : live file)
    (same : Same s s') (files : ∀ other, other ≠ file →
      s'.files other = s.files other)
    (kept : ∀ location, location ≠ (s.files file).location →
      KeptAt F s.image s'.image own own' location)
    (quiet : s'.Quiet) (other : FileRef) (otherLive : live other)
    (different : other ≠ file) :
    (s'.files other).first = (entryOf s'.image (s'.files other).location).first ∧
      (s'.files other).size = (entryOf s'.image (s'.files other).location).size := by
  have apart : (s.files other).location ≠ (s.files file).location :=
    fun equal => different
      (before.inv.handles.single other file otherLive isLive equal)
  have held := (before.inv.handles.opened other otherLive).holds
  rw [files other different, (kept _ apart).entry held]
  exact before.synced (same.quiet_before quiet) other otherLive

/-- So far only the handle of one open file, its chain and its data have
changed. -/
structure Aside (F : Format) (live : FileRef → Prop) (file : FileRef)
    (s s' : Fs) (own own' : Ownership) : Prop where
  inv : Inv F live s' own'
  same : Same s s'
  iters : s'.iters = s.iters
  files : ∀ other, other ≠ file → s'.files other = s.files other
  location : (s'.files file).location = (s.files file).location
  root : own' .root = own .root
  handles : ∀ other, other ≠ file → own' (.handle other) = own (.handle other)
  entry : entryOf s'.image (s.files file).location =
    entryOf s.image (s.files file).location
  kept : ∀ location, location ≠ (s.files file).location →
    KeptAt F s.image s'.image own own' location

theorem Worked.aside (inv : Inv F live s own) (isLive : live file)
    (worked : Worked F live file s s' own own') : Aside F live file s s' own own' :=
  ⟨worked.inv, worked.same, worked.iters, worked.files, worked.location,
    worked.root, worked.handles, entryOf_congr (worked.entries _
      (inv.handles.opened file isLive).holds.inDir), worked.kept⟩

namespace Aside

/-- The handle changes as well. -/
theorem setFile {change : FsFile → FsFile} {own'' : Ownership}
    (aside : Aside F live file s s' own own')
    (location : (change (s'.files file)).location = (s'.files file).location)
    (root : own'' .root = own' .root)
    (slots : ∀ location, own'' (.slot location) = own' (.slot location))
    (handles : ∀ other, other ≠ file → own'' (.handle other) = own' (.handle other))
    (inv : Inv F live (s'.setFile file change) own'') :
    Aside F live file s (s'.setFile file change) own own'' where
  inv := inv
  same := ⟨aside.same.sb, aside.same.mounted, aside.same.diskSectors,
    aside.same.clusterShift, aside.same.total, aside.same.fails, aside.same.grows⟩
  iters := aside.iters
  files other different :=
    (s'.setFile_files_of_ne _ different).trans (aside.files other different)
  location := by
    rw [Fs.setFile_files_self, location]
    exact aside.location
  root := root.trans aside.root
  handles other different :=
    (handles other different).trans (aside.handles other different)
  entry := aside.entry
  kept other different :=
    (aside.kept other different).trans
      (.ofSectors root (slots other) fun _ _ => rfl)

/-- The call ends without a change of the directory. -/
theorem advanced (before : Between F live s own) (isLive : live file)
    (aside : Aside F live file s s' own own') (spare : own' .spare = [])
    (shown : s'.Quiet → own' (.handle file) = [])
    (agrees : s'.Quiet → Agrees s' file) : Advanced F live file s s' own own' := by
  refine ⟨⟨aside.inv, spare, ?_, ?_⟩, aside.same, aside.iters, aside.files,
    aside.location, by rw [aside.entry], aside.root, aside.kept⟩
  · intro quiet other
    by_cases equal : other = file
    · subst equal
      exact shown quiet
    · rw [aside.handles other equal]
      exact before.shown (aside.same.quiet_before quiet) other
  · intro quiet other otherLive
    by_cases equal : other = file
    · subst equal
      exact ⟨(agrees quiet).first.symm, (agrees quiet).size.symm⟩
    · exact before.synced_others isLive aside.same aside.files aside.kept quiet
        other otherLive equal

/-- A transfer failed. -/
theorem failed (before : Between F live s own) (isLive : live file)
    (aside : Aside F live file s s' own own') (spare : own' .spare = [])
    (loud : ¬ s.Quiet) : Advanced F live file s s' own own' :=
  aside.advanced before isLive spare
    (fun quiet => absurd (aside.same.quiet_before quiet) loud)
    fun quiet => absurd (aside.same.quiet_before quiet) loud

theorem unmoved (aside : Aside F live file s s' own own')
    (moved : Moved s' s'' s'.image) : Aside F live file s s'' own own' where
  inv := aside.inv.unmoved moved
  same := aside.same.trans moved.same
  iters := moved.iters.trans aside.iters
  files other different := by
    rw [moved.files]
    exact aside.files other different
  location := by
    rw [moved.files]
    exact aside.location
  root := aside.root
  handles := aside.handles
  entry := by
    rw [moved.image_eq]
    exact aside.entry
  kept := by
    rw [moved.image_eq]
    exact aside.kept

end Aside

/-- After the directory entry was brought up to date and clusters were
freed. -/
theorem Synced.advanced {s1 s2 : Fs} {own1 own2 : Ownership}
    (before : Between F live s own) (isLive : live file)
    (aside : Aside F live file s s1 own own1)
    (handover : Handover F s1 own1 own2 file)
    (synced : Synced F live file s1 s2 own2) (only : FatOnly F s2 s')
    (inv : Inv F live s' own') (spare : own' .spare = [])
    (root : own' .root = own2 .root)
    (slots : ∀ location, location ≠ (s.files file).location →
      own' (.slot location) = own2 (.slot location))
    (handles : ∀ other, own' (.handle other) = own2 (.handle other)) :
    Advanced F live file s s' own own' ∧ Agrees s' file := by
  have isSame := (aside.same.trans synced.still.same).trans only.same
  have held1 := (aside.inv.handles.opened file isLive).holds
  have sameFile : s'.files file = s1.files file := by
    rw [only.files, synced.still.files]
  have beyond : F.sb.fatSectors < (s1.files file).location.sector :=
    held1.inDir.fat_lt
  have entry : entryOf s'.image (s1.files file).location =
      entryOf s2.image (s1.files file).location :=
    entryOf_congr (only.image_eq _ (Or.inr beyond))
  have agrees : Agrees s' file := by
    constructor
    · rw [sameFile, entry, synced.entry]
    · rw [sameFile, entry, synced.entry]
  have kept : ∀ other, other ≠ (s.files file).location →
      KeptAt F s.image s'.image own own' other := by
    intro other different
    refine ((aside.kept other different).trans ?_).trans
      (.ofFatOnly only root (slots other different))
    rw [← aside.location] at different
    constructor
    case holds =>
      rw [handover.root]
      constructor
      · rintro ⟨inDir, used⟩
        refine ⟨inDir, ?_⟩
        simpa [Used, synced.entries other different] using used
      · rintro ⟨inDir, used⟩
        refine ⟨inDir, ?_⟩
        simpa [Used, synced.entries other different] using used
    case entry => exact fun _ => synced.entries other different
    case chain => exact handover.slots other different
    case data =>
      intro cluster member sector here
      apply synced.image_eq
      rintro rfl
      exact aside.inv.private_cluster member (by simp)
        |>.dir aside.inv.root_pos held1.inDir here
  have files : ∀ other, other ≠ file → s'.files other = s.files other := by
    intro other different
    rw [only.files, synced.still.files]
    exact aside.files other different
  refine ⟨⟨⟨inv, spare, ?_, ?_⟩, isSame, ?_, files, ?_, ?_, ?_, kept⟩, agrees⟩
  · intro quiet other
    rw [handles]
    by_cases equal : other = file
    · subst equal
      exact handover.mine
    · rw [handover.handles other equal, aside.handles other equal]
      exact before.shown (isSame.quiet_before quiet) other
  · intro quiet other otherLive
    by_cases equal : other = file
    · subst equal
      exact ⟨agrees.first.symm, agrees.size.symm⟩
    · exact before.synced_others isLive isSame files kept quiet other otherLive
        equal
  · exact (only.iters.trans synced.still.iters).trans aside.iters
  · rw [sameFile]
    exact aside.location
  · rw [← aside.location, entry, synced.entry, aside.location, aside.entry]
  · exact (root.trans handover.root).trans aside.root

/-- The file keeps its chain and its data when its entry is stored. -/
theorem Synced.byteAt_eq {s1 : Fs} {own1 : Ownership} (inv : Inv F live s1 own1)
    (isLive : live file) (handover : Handover F s1 own1 own' file)
    (synced : Synced F live file s1 s' own') :
    chainOf s' own' file = chainOf s1 own1 file ∧
      ∀ position, position < (chainOf s1 own1 file).length * F.clusterBytes →
        F.byteAt s'.image (chainOf s' own' file) position =
          F.byteAt s1.image (chainOf s1 own1 file) position := by
  have held := (inv.handles.opened file isLive).holds
  have chain : chainOf s' own' file = chainOf s1 own1 file := by
    have owner : ownerOf s'.image file (s'.files file) =
        .slot (s1.files file).location := by
      rw [synced.still.files]
      apply if_pos
      rw [synced.entry]
    unfold chainOf
    rw [owner]
    exact handover.chain
  refine ⟨chain, fun position inside => ?_⟩
  rw [chain]
  refine Format.byteAt_congr List.prefix_rfl inside ?_
  intro cluster member sector here
  apply synced.image_eq
  rintro rfl
  exact (inv.private_cluster member (ownerOf_ne_root _ _ _)).dir inv.root_pos
    held.inDir here

/-! ## Writing -/

/-- Bytes were written to an open file and its size was adapted. -/
structure Written (F : Format) (live : FileRef → Prop) (file : FileRef)
    (s s' : Fs) (own own' : Ownership) (offset done : Nat)
    (source : Nat → UInt8) : Prop where
  advanced : Advanced F live file s s' own own'
  size : (s'.files file).size = max (s.files file).size (offset + done)
  settled : Agrees s' file ∨ (s'.files file).first = (s.files file).first ∧
    (s'.files file).size = (s.files file).size ∧
    entryOf s'.image (s.files file).location =
      entryOf s.image (s.files file).location
  wrote : s.Quiet → Wrote F file s s' own own' offset done source

/-- The handle after `done` bytes were written at `offset`. -/
def FsFile.resized (offset done : Nat) (handle : FsFile) : FsFile :=
  if done > 0 ∧ offset + done > handle.size then
    { handle with size := offset + done }
  else handle

theorem FsFile.resized_frame (offset done : Nat) (handle : FsFile) :
    (handle.resized offset done).location = handle.location ∧
      (handle.resized offset done).first = handle.first ∧
      (handle.resized offset done).cursorIndex = handle.cursorIndex ∧
      (handle.resized offset done).cursorCluster = handle.cursorCluster := by
  unfold resized
  split
  · exact ⟨rfl, rfl, rfl, rfl⟩
  · exact ⟨rfl, rfl, rfl, rfl⟩

theorem FsFile.resized_size {offset : Nat} (done : Nat) {handle : FsFile}
    (start : offset ≤ handle.size) :
    (handle.resized offset done).size = max handle.size (offset + done) := by
  unfold resized
  split
  · dsimp only
    omega
  · omega

/-- The state of an open file after the loop of `write_impl` and the change of
its size. -/
theorem Looped.resized {s1 : Fs} {own1 : Ownership} {offset count : Nat}
    {source : Nat → UInt8} {result : Nat × Option FsError}
    (before : Between F live s own) (isLive : live file)
    (start : offset ≤ (s.files file).size) (bounded : offset + count < wordSize)
    (looped : Looped F live file s s1 own own1 offset count 0 source result) :
    Aside F live file s (s1.setFile file (·.resized offset result.1)) own own1 ∧
      chainOf (s1.setFile file (·.resized offset result.1)) own1 file =
        chainOf s1 own1 file := by
  have inv1 := looped.worked.inv
  have opened := inv1.handles.opened file isLive
  have frame := (s1.files file).resized_frame offset result.1
  have start1 : offset ≤ (s1.files file).size := by
    rw [looped.worked.size]
    exact start
  have size := FsFile.resized_size result.1 start1
  have upper := looped.upper
  have inside := looped.inside
  constructor
  · refine (looped.worked.aside before.inv isLive).setFile frame.1 rfl
      (fun _ => rfl) (fun _ _ => rfl) ?_
    have most := opened.size
    have small := opened.bounded
    change _ ≤ (chainOf s1 own1 file).length * _ at most
    refine inv1.setHandle isLive frame.1 frame.2.1 ?_ ?_ ?_
    · rw [size]
      omega
    · rw [size]
      omega
    · rw [frame.2.2.1, frame.2.2.2]
      exact opened.cursor
  · have owner : ownerOf s1.image file ((s1.files file).resized offset result.1) =
        ownerOf s1.image file (s1.files file) := by
      simp only [ownerOf, frame.1, frame.2.1]
    unfold chainOf
    rw [Fs.setFile_files_self]
    exact congrArg own1 owner

/-- Without failing transfers a slot gives way only if it was empty. -/
theorem Looped.lost {s1 : Fs} {own1 : Ownership} {offset count : Nat}
    {source : Nat → UInt8} {result : Nat × Option FsError}
    (before : Between F live s own) (isLive : live file)
    (looped : Looped F live file s s1 own own1 offset count 0 source result)
    (quiet : s.Quiet) {handle : FsFile} (first : handle.first = (s1.files file).first)
    (location : handle.location = (s1.files file).location)
    (owner : ownerOf s1.image file handle = .handle file) :
    own1 (.slot (s1.files file).location) = [] := by
  have synced := before.synced quiet file isLive
  have aside := looped.worked.aside before.inv isLive
  have inv1 := looped.worked.inv
  have held := (inv1.handles.opened file isLive).holds
  apply inv1.accounted.eq_nil_of_firstOf
  rw [inv1.directory.first _ held, aside.location, aside.entry, ← synced.1]
  rcases looped.worked.first with same | empty
  · rcases ownerOf_cases s1.image file handle with ⟨shown, _⟩ | ⟨_, different⟩
    · rw [owner] at shown
      cases shown
    · rw [first, location, same, aside.location, aside.entry] at different
      exact absurd synced.1 different
  · exact empty

/-- The FAT stays full when its sectors stay. -/
theorem Full.congr {image image' : Image} (full : Full F image)
    (same : ∀ sector, sector ≤ F.sb.fatSectors → image' sector = image sector) :
    Full F image' := by
  intro cluster positive inRange
  rw [F.fatAt_congr same inRange]
  exact full cluster positive inRange

theorem writeEnd_spec {s1 : Fs} {own1 : Ownership} {offset count : Nat}
    {source : Nat → UInt8} {result : Nat × Option FsError}
    (before : Between F live s own) (isLive : live file)
    (start : offset ≤ (s.files file).size) (bounded : offset + count < wordSize)
    (looped : Looped F live file s s1 own own1 offset count 0 source result) :
    Meets (writeEnd file (s.files file) offset result.1) s1
      (fun _ s' => ∃ own', Written F live file s s' own own' offset result.1
        source ∧ ∀ position, Exhausted F s1 own1 file position →
          Exhausted F s' own' file position)
      fun error s' => error = .io ∧ ¬ s.Quiet ∧
        ∃ own', Advanced F live file s s' own own' := by
  rcases looped.resized before isLive start bounded with ⟨aside, chain⟩
  have spare1 := looped.worked.spare.trans before.spare
  have frame := (s1.files file).resized_frame offset result.1
  have start1 : offset ≤ (s1.files file).size := by
    rw [looped.worked.size]
    exact start
  have size := FsFile.resized_size result.1 start1
  rw [looped.worked.size] at size
  have wrote : s.Quiet → Wrote F file s
      (s1.setFile file (·.resized offset result.1)) own own1 offset result.1
      source := by
    intro quiet
    have wrote := looped.wrote quiet
    simp only [Nat.add_zero, Nat.sub_zero, Nat.zero_add] at wrote
    refine ⟨?_, ?_, ?_, ?_⟩
    · rw [chain]
      exact wrote.inside
    · rw [chain]
      exact wrote.new
    · rw [chain]
      exact wrote.old
    · rw [chain]
      exact wrote.length
  unfold writeEnd
  refine .bind (.modify ?_)
  change Meets _ (s1.setFile file (·.resized offset result.1)) _ _
  generalize resized : s1.setFile file (·.resized offset result.1) = s2
    at aside chain wrote
  have handle : s2.files file = (s1.files file).resized offset result.1 := by
    rw [← resized, Fs.setFile_files_self]
  have image : s2.image = s1.image := by
    rw [← resized]
    rfl
  refine .bind (.get (.ite (fun changed => ?_) fun unchanged => ?_))
  · have lost : s2.Quiet → ownerOf s2.image file (s2.files file) = .handle file →
        own1 (.slot (s2.files file).location) = [] := by
      intro quiet owner
      rw [image, handle] at owner
      rw [handle, frame.1]
      exact looped.lost before isLive (aside.same.quiet_before quiet) frame.2.1
        frame.1 owner
    rcases aside.inv.handover isLive lost with ⟨own', handover, spare⟩
    refine (fileSync_inv aside.inv isLive handover).mono ?_ ?_
    · intro _ s' synced
      rcases synced.byteAt_eq aside.inv isLive handover with ⟨chain', bytes⟩
      have advanced := (synced.advanced before isLive aside handover (.refl s')
        synced.inv (spare.trans spare1) rfl (fun _ _ => rfl) fun _ => rfl).1
      refine ⟨own', ⟨advanced, ?_, Or.inl synced.agrees, ?_⟩, fun position exhausted =>
        ⟨?_, ?_⟩⟩
      · rw [synced.still.files, handle]
        exact size
      · intro quiet
        have wrote2 := wrote quiet
        have grown := Nat.mul_le_mul_right F.clusterBytes
          looped.worked.grows.length_le
        rw [← chain] at grown
        refine ⟨by rw [chain']; exact wrote2.inside, ?_, ?_,
          by rw [chain']; exact wrote2.length⟩
        · intro index less
          rw [bytes _ (by have inside := wrote2.inside; omega)]
          exact wrote2.new index less
        · intro other inside outside
          rw [bytes _ (by omega)]
          exact wrote2.old other inside outside
      · have full := exhausted.full
        rw [← image] at full
        refine full.congr fun sector inFat => synced.image_eq sector ?_
        have held := (aside.inv.handles.opened file isLive).holds
        have beyond : F.sb.fatSectors < (s2.files file).dirSector :=
          held.inDir.fat_lt
        omega
      · rw [chain', chain]
        exact exhausted.reached
    · rintro error s' ⟨isIo, loud, moved⟩
      have loud0 := aside.same.not_quiet loud
      exact ⟨isIo, loud0, own1, (aside.unmoved moved).failed before isLive spare1
        loud0⟩
  · -- Neither the first cluster nor the size differs from before the call.
    have same : (s2.files file).first = (s.files file).first ∧
        (s2.files file).size = (s.files file).size := by
      by_contra different
      apply unchanged
      by_contra none
      exact different ⟨by_contra fun other => none (Or.inl other),
        by_contra fun other => none (Or.inr other)⟩
    have agrees : s2.Quiet → Agrees s2 file := by
      intro quiet
      have synced := before.synced (aside.same.quiet_before quiet) file isLive
      constructor
      · rw [aside.location, aside.entry, same.1]
        exact synced.1.symm
      · rw [aside.location, aside.entry, same.2]
        exact synced.2.symm
    refine .pure ⟨own1, ⟨aside.advanced before isLive spare1 ?_ agrees, ?_,
      Or.inr ⟨same.1, same.2, aside.entry⟩, wrote⟩, fun position exhausted => ⟨?_, ?_⟩⟩
    · intro quiet
      have opened := aside.inv.handles.opened file isLive
      apply opened.shown
      apply if_pos
      exact (agrees quiet).first.symm
    · rw [handle]
      exact size
    · rw [image]
      exact exhausted.full
    · rw [chain]
      exact exhausted.reached

theorem Advanced.refl (before : Between F live s own) (file : FileRef) :
    Advanced F live file s s own own :=
  ⟨before, .refl s, rfl, fun _ _ => rfl, rfl, rfl, rfl,
    fun location _ => .refl F s.image own location⟩

theorem Written.nothing {offset : Nat} (source : Nat → UInt8)
    (before : Between F live s own) (isLive : live file)
    (start : offset ≤ (s.files file).size) :
    Written F live file s s own own offset 0 source where
  advanced := .refl before file
  size := by omega
  settled := Or.inr ⟨rfl, rfl, rfl⟩
  wrote _ := .nothing source (Nat.le_trans start
    (before.inv.handles.opened file isLive).size)

/-- Errors of `fs_write`. -/
structure WriteFailed (F : Format) (live : FileRef → Prop) (file : FileRef)
    (s s' : Fs) (own own' : Ownership) (offset count : Nat)
    (source : Nat → UInt8) (error : FsError) : Prop where
  advanced : Advanced F live file s s' own own'
  why : s.Quiet → error = .inval ∧ (s.files file).size < offset ∧ s' = s ∧
      own' = own ∨
    error = .nospc ∧ 0 < writeLimit offset count ∧
      offset ≤ (s.files file).size ∧ Exhausted F s' own' file offset ∧
      Written F live file s s' own own' offset 0 source

theorem writeImpl_spec {offset count : Nat} {source : Nat → UInt8}
    (before : Between F live s own) (isLive : live file) :
    Meets (writeImpl file offset source count) s
      (fun stored s' => ∃ own',
        Written F live file s s' own own' offset stored source ∧
        offset ≤ (s.files file).size ∧ stored ≤ writeLimit offset count ∧
        (0 < writeLimit offset count → 0 < stored) ∧
        pieceLength s offset (writeLimit offset count) ≤ stored ∧
        (s.Quiet → stored = writeLimit offset count ∨
          Exhausted F s' own' file (offset + stored)))
      fun error s' => ∃ own', WriteFailed F live file s s' own own' offset count
        source error := by
  have opened := before.inv.handles.opened file isLive
  unfold writeImpl
  refine (requireMounted_spec before.inv.mounted).seq ?_ fun _ _ => False.elim
  rintro _ s0 rfl
  refine .bind (.get (.bind (.require (fun start => ?_) fun beyond => ?_)))
  · have limit : min (min count maxIo) (0xFFFFFFFF - offset) =
        writeLimit offset count := rfl
    dsimp only
    rw [limit]
    refine .ite (fun nothing => ?_) fun some => ?_
    · refine .pure ⟨own, .nothing source before isLive start, start,
        Nat.zero_le _, fun positive => ?_, ?_, fun _ => Or.inl nothing.symm⟩
      · omega
      · rw [nothing, pieceLength, if_neg (by simp [sectorSize])]
        exact Nat.min_le_right _ _
    · have bounded : offset + writeLimit offset count < wordSize := by
        have small := opened.bounded
        simp only [writeLimit, wordSize] at *
        omega
      refine (writeLoop_spec (writeLimit offset count) before.inv before.spare
        isLive (Nat.le_trans start opened.size) (Nat.zero_le _) (by omega)).seq ?_
        fun _ _ => False.elim
      rintro result s1 ⟨own1, looped⟩
      refine (writeEnd_spec before isLive start bounded looped).seq ?_ ?_
      · rintro _ s2 ⟨own2, written, still⟩
        have upper := looped.upper
        have piece := looped.piece
        rw [Nat.add_zero, Nat.sub_zero, Nat.zero_add] at piece
        cases status : result.2 with
        | none =>
            have complete := looped.complete status
            refine .pure ⟨own2, written, start, upper, fun positive => ?_,
              piece (by omega), fun _ => Or.inl complete⟩
            omega
        | some error =>
            have why := looped.why error status
            refine .ite (fun positive => ?_) fun zero => ?_
            · refine .pure ⟨own2, written, start, upper, fun _ => positive,
                piece positive, ?_⟩
              intro quiet
              rcases why with ⟨_, loud⟩ | ⟨_, exhausted⟩
              · exact absurd quiet loud
              · exact Or.inr (still _ exhausted)
            · refine .throw ⟨own2, written.advanced, ?_⟩
              intro quiet
              rcases why with ⟨_, loud⟩ | ⟨isNospc, exhausted⟩
              · exact absurd quiet loud
              · have isZero : result.1 = 0 := by omega
                rw [isZero] at written exhausted
                exact Or.inr ⟨isNospc, by omega, start, still _ exhausted, written⟩
      · rintro error s2 ⟨_, loud, own2, advanced⟩
        exact ⟨own2, advanced, fun quiet => absurd quiet loud⟩
  · exact ⟨own, .refl before file, fun _ => Or.inl ⟨rfl, by omega, rfl, rfl⟩⟩

/-! ## Truncating to nothing -/

/-- The handle of an empty file. -/
def FsFile.emptied (handle : FsFile) : FsFile :=
  { handle with first := 0, size := 0, cursorIndex := 0, cursorCluster := 0 }

/-- The handle of a file becomes empty; a chain that only it had goes to the
running function. -/
theorem Inv.emptied (inv : Inv F live s own) (isLive : live file)
    (accounted : Accounted s.Quiet F.sb s.image own')
    (root : own' .root = own .root)
    (slots : ∀ location, own' (.slot location) = own (.slot location))
    (handles : ∀ other, other ≠ file → own' (.handle other) = own (.handle other))
    (mine : own' (.handle file) = []) :
    Inv F live (s.setFile file FsFile.emptied) own' ∧
      chainOf (s.setFile file FsFile.emptied) own' file = [] := by
  have opened := inv.handles.opened file isLive
  have first := inv.directory.first _ opened.holds
  have none : own' (ownerOf s.image file (s.files file).emptied) = [] := by
    rcases ownerOf_cases s.image file (s.files file).emptied with
      ⟨owner, empty⟩ | ⟨owner, _⟩
    · rw [owner]
      change own' (.slot (s.files file).location) = []
      rw [slots]
      apply inv.accounted.eq_nil_of_firstOf
      rw [first]
      exact empty.symm
    · rw [owner]
      exact mine
  refine ⟨⟨inv.sb, inv.shift, inv.total, inv.mounted, ⟨inv.coherent.sector,
    inv.coherent.clean, inv.coherent.dirty⟩, inv.label, accounted,
    inv.directory.congr_slots root slots fun _ _ => rfl, ?_,
    by rw [root]; exact inv.disk, inv.history⟩, ?_⟩
  · refine inv.handles.replace isLive (fun _ member => by rw [root]; exact member)
      (fun _ _ _ => rfl) (fun location _ => slots location) handles
      (fun other different => s.setFile_files_of_ne _ different)
      (by rw [Fs.setFile_files_self]; rfl) ?_
    rw [Fs.setFile_files_self]
    constructor
    case holds =>
      refine ⟨?_, opened.holds.used⟩
      rw [root]
      exact opened.holds.inDir
    case first => exact (congrArg firstOf none).trans rfl
    case shown => exact fun _ => mine
    case size => exact Nat.zero_le _
    case bounded => exact show 0 < wordSize by decide
    case cursor => exact Or.inl rfl
  · unfold chainOf
    rw [Fs.setFile_files_self]
    exact none

/-- Before the entry of an emptied file is stored, and who gets its clusters
then. -/
structure Emptied (F : Format) (live : FileRef → Prop) (file : FileRef) (s : Fs)
    (own own1 own2 : Ownership) : Prop where
  aside : Aside F live file s (s.setFile file FsFile.emptied) own own1
  spare : s.Quiet → own1 .spare = []
  handover : Handover F (s.setFile file FsFile.emptied) own1 own2 file
  tail : (s.files file).first = firstOf (own2 .spare)
  none : chainOf (s.setFile file FsFile.emptied) own1 file = []

theorem Between.emptied (before : Between F live s own) (isLive : live file)
    (nonempty : (s.files file).first ≠ 0) :
    ∃ own1 own2, Emptied F live file s own own1 own2 := by
  have inv := before.inv
  have opened := inv.handles.opened file isLive
  have start : Aside F live file s s own own :=
    (Worked.refl inv file).aside inv isLive
  have location : ((s.setFile file FsFile.emptied).files file).location =
      (s.files file).location := by
    rw [Fs.setFile_files_self]
    rfl
  rcases ownerOf_cases s.image file (s.files file) with ⟨owner, _⟩ | ⟨owner, _⟩
  · -- The slot keeps its chain until its entry is stored.
    have mine := opened.shown owner
    rcases inv.emptied isLive inv.accounted rfl (fun _ => rfl) (fun _ _ => rfl)
      mine with ⟨inv1, chain⟩
    have accounted := inv.accounted.move
      (show Owner.slot (s.files file).location ≠ .spare by simp)
      fun _ => before.spare
    refine ⟨own, _, start.setFile rfl rfl (fun _ => rfl) (fun _ _ => rfl) inv1,
      fun _ => before.spare, ⟨accounted, by simp, ?_, by simp, by simp [mine], ?_⟩, ?_,
      chain⟩
    · intro other different
      rw [location] at different
      simp [different]
    · rw [location, chain]
      simp
    · have first := opened.first
      rw [owner] at first
      simp [first]
  · -- The slot shows another chain, so a transfer has failed before.
    have first := opened.first
    rw [owner] at first
    have loud : ¬ s.Quiet := by
      intro quiet
      rw [before.shown quiet file] at first
      exact nonempty first.symm
    have accounted := inv.accounted.move
      (show Owner.handle file ≠ .spare by simp) fun _ => before.spare
    generalize owned : Function.update (Function.update own (.handle file) [])
      .spare (own (.handle file)) = own1 at accounted
    have slots : ∀ location, own1 (.slot location) = own (.slot location) := by
      simp [← owned]
    have handles : ∀ other, other ≠ file →
        own1 (.handle other) = own (.handle other) := by
      intro other different
      simp [← owned, different]
    have root : own1 .root = own .root := by simp [← owned]
    have mine : own1 (.handle file) = [] := by simp [← owned]
    have spare : own1 .spare = own (.handle file) := by simp [← owned]
    rcases inv.emptied isLive accounted root slots handles mine with ⟨inv1, chain⟩
    refine ⟨own1, Function.update own1 (.slot (s.files file).location) [],
      start.setFile rfl root slots handles inv1, fun quiet => absurd quiet loud,
      ⟨?_, by simp, ?_, by simp, by simp [mine], ?_⟩, ?_, chain⟩
    · exact accounted.drop _ fun quiet => absurd quiet loud
    · intro other different
      rw [location] at different
      simp [different]
    · rw [location, chain]
      simp
    · simp [spare, first]

/-- The file has the given size and the bytes that it had there. -/
structure Truncated (F : Format) (live : FileRef → Prop) (file : FileRef)
    (s s' : Fs) (own own' : Ownership) (target : Nat) : Prop where
  advanced : Advanced F live file s s' own own'
  size : (s'.files file).size = target
  shorter : target ≤ (s.files file).size
  settled : Agrees s' file ∨ (s'.files file).first = (s.files file).first ∧
    target = (s.files file).size ∧
    entryOf s'.image (s.files file).location =
      entryOf s.image (s.files file).location
  bytes : F.fileBytes s'.image (chainOf s' own' file) target =
    F.fileBytes s.image (chainOf s own file) target
  length : (chainOf s' own' file).length ≤ F.keeps target ∨
    target = (s.files file).size ∧ chainOf s' own' file = chainOf s own file

/-- A transfer failed while the file was truncated. -/
def TruncateFailed (F : Format) (live : FileRef → Prop) (file : FileRef)
    (s s' : Fs) (own : Ownership) : Prop :=
  ¬ s.Quiet ∧ ∃ own', Advanced F live file s s' own own'

theorem truncateAll_spec (before : Between F live s own) (isLive : live file)
    (nonempty : (s.files file).first ≠ 0) :
    Meets (truncateAll file) s
      (fun _ s' => ∃ own', Truncated F live file s s' own own' 0)
      fun _ s' => TruncateFailed F live file s s' own := by
  rcases before.emptied isLive nonempty with ⟨own1, own2, emptied⟩
  have aside := emptied.aside
  unfold truncateAll
  refine .bind (.get (.bind (.modify ?_)))
  change Meets _ (s.setFile file FsFile.emptied) _ _
  refine (fileSync_inv aside.inv isLive emptied.handover).seq ?_ ?_
  · intro _ s2 synced
    -- Whatever becomes of its clusters, the file is empty now.
    have done : ∀ {s3 : Fs}, FatOnly F s2 s3 →
        Inv F live s3 (Function.update own2 .spare []) →
        Advanced F live file s s3 own (Function.update own2 .spare []) ∧
          Agrees s3 file :=
      fun only inv => synced.advanced before isLive aside emptied.handover only
        inv (by simp) (by simp) (by simp) (by simp)
    refine (chainFree_inv synced.inv emptied.tail).mono ?_ ?_
    · rintro _ s3 ⟨inv3, only⟩
      rcases done only inv3 with ⟨advanced, agrees⟩
      refine ⟨_, advanced, ?_, Nat.zero_le _, Or.inl agrees, rfl, Or.inl ?_⟩
      · rw [only.files, synced.still.files, Fs.setFile_files_self]
        rfl
      · have isEmpty : chainOf s3 (Function.update own2 .spare []) file = [] := by
          have owner : ownerOf s3.image file (s3.files file) =
              .slot (s3.files file).location := if_pos agrees.first.symm
          have place : (s3.files file).location =
              ((s.setFile file FsFile.emptied).files file).location := by
            rw [advanced.location, Fs.setFile_files_self]
            rfl
          unfold chainOf
          rw [owner, Function.update_of_ne (by simp), place, emptied.handover.chain]
          exact emptied.none
        rw [isEmpty]
        exact Nat.zero_le _
    · rintro _ s3 ⟨loud, inv3, only⟩
      refine ⟨?_, _, (done only inv3).1⟩
      exact fun quiet => loud (synced.still.same.quiet (aside.same.quiet quiet))
  · rintro error s2 ⟨_, loud, moved⟩
    have loud0 : ¬ s.Quiet := aside.same.not_quiet loud
    have aside2 := aside.unmoved moved
    have inv2 := aside2.inv.dropSpare fun quiet =>
      absurd (aside2.same.quiet_before quiet) loud0
    refine ⟨loud0, Function.update own1 .spare [], Aside.failed before isLive
      ⟨inv2, aside2.same, aside2.iters, aside2.files, aside2.location, ?_, ?_,
        aside2.entry, ?_⟩ (by simp) loud0⟩
    · rw [Function.update_of_ne (by simp)]
      exact aside2.root
    · intro other different
      rw [Function.update_of_ne (by simp)]
      exact aside2.handles other different
    · intro location different
      exact (aside2.kept location different).trans
        (.ofSectors (by simp) (by simp) fun _ _ => rfl)

/-! ## Truncating to a part -/

/-- The chain of an open file is cut; the rest goes to the running function. -/
theorem Inv.cut {front back : List Nat} {last : Nat} (inv : Inv F live s own)
    (isLive : live file) (agrees : Agrees s file)
    (split : own (.slot (s.files file).location) = front ++ last :: back)
    (spare : own .spare = [])
    (size : (s.files file).size ≤ (front ++ [last]).length * F.clusterBytes)
    (index : (s.files file).cursorIndex = 0)
    (cluster : (s.files file).cursorCluster = (s.files file).first)
    (moved : Moved s s' (Filesystem.setFat s.image last chainEnd)) :
    Inv F live s' (Function.update (Function.update own
      (.slot (s.files file).location) (front ++ [last])) .spare back) := by
  have opened := inv.handles.opened file isLive
  have owner : ownerOf s.image file (s.files file) =
      .slot (s.files file).location := if_pos agrees.first.symm
  have bounds := inv.accounted.bounds _ last (by rw [split]; simp)
  have outside := F.setFat_outside s.image chainEnd bounds.2
  have dirSame : ∀ location, F.InDir (own .root) location →
      Filesystem.setFat s.image last chainEnd location.sector =
        s.image location.sector :=
    fun location inDir => outside _ (Or.inr inDir.fat_lt)
  have accounted := inv.accounted.cut (by simp) spare split
  generalize owned : Function.update (Function.update own
    (.slot (s.files file).location) (front ++ [last])) .spare back = own'
    at accounted
  have root : own' .root = own .root := by simp [← owned]
  have handles : ∀ other, own' (.handle other) = own (.handle other) := by
    simp [← owned]
  have slots : ∀ location, location ≠ (s.files file).location →
      own' (.slot location) = own (.slot location) := by
    intro location different
    simp [← owned, different]
  have mine : own' (.slot (s.files file).location) = front ++ [last] := by
    simp [← owned]
  have first : firstOf (front ++ [last]) =
      firstOf (own (.slot (s.files file).location)) := by
    rw [split]
    cases front with
    | nil => rfl
    | cons head rest => rfl
  refine inv.moved moved outside accounted ?_ ?_
    fun _ member => by rw [root]; exact member
  · refine inv.directory.congr root dirSame ?_ ?_ ?_
    · intro location _
      by_cases equal : location = (s.files file).location
      · rw [equal, mine, first]
      · rw [slots location equal]
    · intro location held
      by_cases equal : location = (s.files file).location
      · rw [equal, mine, agrees.size]
        exact size
      · rw [slots location equal]
        exact inv.directory.size location held
    · intro location vacant
      have different : location ≠ (s.files file).location := by
        rintro rfl
        exact vacant opened.holds
      rw [slots location different]
      exact inv.directory.vacant location vacant
  · have entry : entryOf (Filesystem.setFat s.image last chainEnd)
        (s.files file).location = entryOf s.image (s.files file).location :=
      entryOf_congr (dirSame _ opened.holds.inDir)
    have owner' : ownerOf (Filesystem.setFat s.image last chainEnd) file
        (s.files file) = .slot (s.files file).location := by
      rw [ownerOf_congr file (alike_of_eq entry)]
      exact owner
    refine inv.handles.replace isLive (fun _ member => by rw [root]; exact member)
      (fun location _ inDir => entryOf_congr (dirSame location inDir)) slots
      (fun other _ => handles other) (fun _ _ => rfl) rfl ?_
    constructor
    case holds =>
      refine ⟨by rw [root]; exact opened.holds.inDir, ?_⟩
      simp only [Used, entry]
      exact opened.holds.used
    case first =>
      have whole := opened.first
      rw [owner] at whole
      rw [owner', mine, first]
      exact whole
    case shown => exact fun _ => by rw [handles]; exact opened.shown owner
    case size => rw [owner', mine]; exact size
    case bounded => exact opened.bounded
    case cursor =>
      have whole := opened.first
      rw [owner] at whole
      rw [owner', mine, index, cluster, ← whole, ← first]
      right
      cases front with
      | nil => rfl
      | cons head rest => rfl

/-- The handle of a file that keeps a part of its clusters. -/
def FsFile.shrunk (target : Nat) (handle : FsFile) : FsFile :=
  { handle with
    size := target, cursorIndex := 0, cursorCluster := handle.first }

/-- Before the entry of a shorter file is stored. -/
theorem Visited.shrunk {target : Nat} (before : Between F live s own)
    (isLive : live file) (visited : Visited F live file s s' own own')
    (first : (s.files file).first ≠ 0) (shorter : target ≤ (s.files file).size) :
    Aside F live file s (s'.setFile file (·.shrunk target)) own own' ∧
      chainOf (s'.setFile file (·.shrunk target)) own' file = chainOf s own file := by
  have inv' := visited.worked.inv
  have opened := inv'.handles.opened file isLive
  have size := opened.size
  have bounded := opened.bounded
  have sameFirst : (s'.files file).first = (s.files file).first :=
    visited.worked.first.resolve_right first
  have most : target ≤ (s'.files file).size := by
    rw [visited.worked.size]
    exact shorter
  constructor
  · refine (visited.worked.aside before.inv isLive).setFile rfl rfl (fun _ => rfl)
      (fun _ _ => rfl) (inv'.setHandle isLive rfl rfl ?_ ?_ (Or.inr ?_))
    · exact Nat.le_trans most size
    · exact Nat.lt_of_le_of_lt most bounded
    · have isFirst := opened.first
      change (own' _)[0]? = some (s'.files file).first
      cases cells : own' (ownerOf s'.image file (s'.files file)) with
      | nil =>
          rw [cells, sameFirst] at isFirst
          exact absurd isFirst.symm first
      | cons head rest =>
          rw [cells] at isFirst
          exact congrArg some isFirst
  · rw [← visited.chain]
    unfold chainOf
    rw [Fs.setFile_files_self]
    rfl

/-- Bytes of the clusters that a file keeps. -/
theorem Format.fileBytes_kept {image image' : Image} {cells cells' : List Nat}
    {target : Nat} (kept : cells' <+: cells)
    (inside : target ≤ cells'.length * F.clusterBytes)
    (same : ∀ cluster ∈ cells', ∀ sector, F.InCluster cluster sector →
      image' sector = image sector) :
    F.fileBytes image' cells' target = F.fileBytes image cells target :=
  (Format.fileBytes_congr kept inside fun cluster member sector here =>
    (same cluster member sector here).symm).symm

/-- The entry of the shorter file is stored and `own'` is what remains of its
chain. -/
theorem Synced.truncated {s1 s2 : Fs} {own1 own2 : Ownership} {cells : List Nat}
    {target : Nat} (before : Between F live s own) (isLive : live file)
    (aside : Aside F live file s s1 own own1)
    (handover : Handover F s1 own1 own2 file)
    (synced : Synced F live file s1 s2 own2) (only : FatOnly F s2 s')
    (inv : Inv F live s' own') (spare : own' .spare = [])
    (remains : own' (.slot (s.files file).location) = cells)
    (others : ∀ owner, owner ≠ .slot (s.files file).location → owner ≠ .spare →
      own' owner = own2 owner)
    (kept : cells <+: chainOf s own file)
    (handle : (s1.files file).size = target)
    (size : target ≤ cells.length * F.clusterBytes)
    (length : cells.length ≤ F.keeps target)
    (shorter : target ≤ (s.files file).size)
    (data : ∀ cluster ∈ chainOf s own file, ∀ sector,
      F.InCluster cluster sector → s2.image sector = s.image sector) :
    Truncated F live file s s' own own' target := by
  rcases synced.advanced before isLive aside handover only inv spare
    (others .root (by simp) (by simp))
    (fun location different => others _ (by simp [different]) (by simp))
    (fun other => others _ (by simp) (by simp)) with ⟨advanced, agrees⟩
  have chain : chainOf s' own' file = cells := by
    have owner : ownerOf s'.image file (s'.files file) =
        .slot (s'.files file).location := if_pos agrees.first.symm
    unfold chainOf
    rw [owner, advanced.location]
    exact remains
  refine ⟨advanced, ?_, shorter, Or.inl agrees, ?_, Or.inl ?_⟩
  · rw [only.files, synced.still.files]
    exact handle
  · rw [chain]
    refine Format.fileBytes_kept kept size ?_
    intro cluster member sector here
    rw [only.image_eq sector (Or.inr (F.fat_lt_of_inCluster here))]
    exact data cluster (kept.subset member) sector here
  · rw [chain]
    exact length

/-- The part of `truncate_impl` that frees the clusters behind the new end. -/
theorem cutTail_spec {s1 s2 : Fs} {own1 own2 : Ownership} {front back : List Nat}
    {last target : Nat} (before : Between F live s own) (isLive : live file)
    (aside : Aside F live file s s1 own own1)
    (handover : Handover F s1 own1 own2 file) (spare : own2 .spare = [])
    (synced : Synced F live file s1 s2 own2)
    (chain : chainOf s1 own1 file = chainOf s own file)
    (split : chainOf s own file = front ++ last :: back)
    (handle : s1.files file = (s1.files file).shrunk target)
    (size : target ≤ (front ++ [last]).length * F.clusterBytes)
    (length : (front ++ [last]).length ≤ F.keeps target)
    (shorter : target ≤ (s.files file).size)
    (data : ∀ cluster ∈ chainOf s own file, ∀ sector,
      F.InCluster cluster sector → s1.image sector = s.image sector) :
    Meets (if firstOf back = 0 then pure ()
        else do
          fatSet last chainEnd
          chainFree (firstOf back) : FsM Unit) s2
      (fun _ s' => ∃ own', Truncated F live file s s' own own' target)
      fun _ s' => TruncateFailed F live file s s' own := by
  have inv2 := synced.inv
  have location : (s2.files file).location = (s.files file).location := by
    rw [synced.still.files]
    exact aside.location
  have mine : own2 (.slot (s2.files file).location) = front ++ last :: back := by
    rw [synced.still.files, handover.chain, chain]
    exact split
  have held1 := (aside.inv.handles.opened file isLive).holds
  have data2 : ∀ cluster ∈ chainOf s own file, ∀ sector,
      F.InCluster cluster sector → s2.image sector = s.image sector := by
    intro cluster member sector here
    rw [← data cluster member sector here]
    apply synced.image_eq
    rintro rfl
    rw [← chain] at member
    exact (aside.inv.private_cluster member (ownerOf_ne_root _ _ _)).dir
      aside.inv.root_pos held1.inDir here
  have target1 : (s1.files file).size = target := by
    rw [handle]
    rfl
  have loud2 : ¬ s2.Quiet → ¬ s.Quiet :=
    (aside.same.trans synced.still.same).not_quiet
  by_cases whole : back = []
  · subst whole
    rw [if_pos firstOf_nil]
    refine .pure ⟨own2, synced.truncated before isLive aside handover (.refl s2)
      inv2 spare (by rw [← location]; exact mine) (fun _ _ _ => rfl) ?_ target1
      size length shorter data2⟩
    simp only [split, List.prefix_rfl]
  · have positive : firstOf back ≠ 0 := by
      cases back with
      | nil => exact absurd rfl whole
      | cons head rest =>
          have bounds := inv2.accounted.bounds _ head (by rw [mine]; simp)
          simp only [firstOf_cons]
          omega
    have bounds := inv2.accounted.bounds _ last (by rw [mine]; simp)
    rw [if_neg positive]
    refine (fatSet_spec inv2.geometry.fatFits inv2.coherent bounds.1
      (by rw [inv2.sb]; exact bounds.2) chainEnd).seq ?_ ?_
    · intro _ s3 moved
      have only : FatOnly F s2 s3 :=
        .ofMoved moved (F.setFat_outside s2.image chainEnd bounds.2)
      have inv3 := inv2.cut isLive synced.agrees mine spare
        (by rw [synced.still.files, target1]; exact size)
        (by rw [synced.still.files, handle]; rfl)
        (by rw [synced.still.files, handle]; rfl) moved
      rw [location] at inv3
      generalize owned : Function.update (Function.update own2
        (.slot (s.files file).location) (front ++ [last])) .spare back = own3
        at inv3
      have done : ∀ {s4 : Fs}, FatOnly F s3 s4 →
          Inv F live s4 (Function.update own3 .spare []) →
          Truncated F live file s s4 own (Function.update own3 .spare [])
            target := by
        intro s4 only4 inv4
        refine synced.truncated before isLive aside handover (only.trans only4)
          inv4 (by simp) (by simp [← owned]) ?_ ⟨back, ?_⟩ target1 size length
          shorter data2
        · intro owner notSlot notSpare
          simp [← owned, notSlot, notSpare]
        · rw [split]
          simp
      refine (chainFree_inv inv3 (by simp [← owned])).mono ?_ ?_
      · rintro _ s4 ⟨inv4, only4⟩
        exact ⟨_, done only4 inv4⟩
      · rintro _ s4 ⟨loud, inv4, only4⟩
        exact ⟨loud2 (only.same.not_quiet loud), _, (done only4 inv4).advanced⟩
    · rintro error s3 ⟨_, loud, moved⟩
      exact ⟨loud2 loud, own2, (synced.advanced before isLive aside handover
        (.ofUnmoved moved) (inv2.unmoved moved) spare rfl (fun _ _ => rfl)
        fun _ => rfl).1⟩

theorem truncateTo_spec {keep target : Nat} (before : Between F live s own)
    (isLive : live file) (first : (s.files file).first ≠ 0) (some : 0 < keep)
    (enough : keep ≤ (chainOf s own file).length)
    (size : target ≤ keep * F.clusterBytes) (fits : keep ≤ F.keeps target)
    (shorter : target ≤ (s.files file).size) :
    Meets (truncateTo file target keep) s
      (fun _ s' => ∃ own', Truncated F live file s s' own own' target)
      fun _ s' => TruncateFailed F live file s s' own := by
  have opened := before.inv.handles.opened file isLive
  have failed : ∀ {s' : Fs} {own' : Ownership}, ¬ s.Quiet →
      Visited F live file s s' own own' →
      TruncateFailed F live file s s' own := by
    intro s' own' loud visited
    exact ⟨loud, own', (visited.worked.aside before.inv isLive).failed before
      isLive (visited.worked.spare.trans before.spare) loud⟩
  unfold truncateTo
  refine (fileReach_spec before.inv before.spare isLive
    (Or.inl (by omega : keep - 1 < _))).seq ?_ ?_
  · rintro _ s1 ⟨own1, positioned⟩
    have chain1 : chainOf s1 own1 file = chainOf s own file := by
      rcases positioned.chain with same | atEnd
      · exact same
      · omega
    have visited : Visited F live file s s1 own own1 :=
      ⟨positioned.worked, chain1, positioned.image_eq⟩
    have inv1 := visited.worked.inv
    have here := positioned.here
    have spare1 := visited.worked.spare.trans before.spare
    generalize isLast : (s1.files file).cursorCluster = last at here
    have split : chainOf s1 own1 file =
        (chainOf s1 own1 file).take (keep - 1) ++
          last :: (chainOf s1 own1 file).drop (keep - 1 + 1) := by
      rw [← (List.getElem?_eq_some_iff.mp here).2, List.getElem_cons_drop,
        List.take_append_drop]
    have length : ((chainOf s1 own1 file).take (keep - 1) ++ [last]).length =
        keep := by
      rw [List.length_append, List.length_take, chain1, List.length_singleton]
      omega
    generalize (chainOf s1 own1 file).take (keep - 1) = front at split length
    generalize (chainOf s1 own1 file).drop (keep - 1 + 1) = back at split
    refine .bind (.get ?_)
    rw [isLast]
    refine (chainNext_inv inv1 split).seq ?_ ?_
    · rintro next s2 ⟨inv2, only, image, rfl⟩
      have visited2 := visited.trans
        (.ofFatOnly (inv1.handles.opened file isLive) inv2 only)
      rcases visited2.shrunk before isLive first shorter with ⟨aside, chain3⟩
      refine .bind (.modify ?_)
      change Meets _ (s2.setFile file (·.shrunk target)) _ _
      have handle : (s2.setFile file (·.shrunk target)).files file =
          ((s2.setFile file (·.shrunk target)).files file).shrunk target := by
        rw [Fs.setFile_files_self]
        rfl
      have data : ∀ cluster ∈ chainOf s own file, ∀ sector,
          F.InCluster cluster sector →
          (s2.setFile file (·.shrunk target)).image sector = s.image sector :=
        fun _ _ sector here =>
          visited2.image_eq sector (F.fat_lt_of_inCluster here)
      have sameFirst : ((s2.setFile file (·.shrunk target)).files file).first =
          (s.files file).first := by
        rw [Fs.setFile_files_self]
        exact visited2.worked.first.resolve_right first
      generalize s2.setFile file (·.shrunk target) = s3
        at aside chain3 handle data sameFirst
      have lost : s3.Quiet → ownerOf s3.image file (s3.files file) =
          .handle file → own1 (.slot (s3.files file).location) = [] := by
        intro quiet owner
        have synced := before.synced (aside.same.quiet_before quiet) file isLive
        have shown : ownerOf s3.image file (s3.files file) =
            .slot (s3.files file).location := by
          apply if_pos
          rw [aside.location, aside.entry, sameFirst]
          exact synced.1
        rw [shown] at owner
        cases owner
      rcases aside.inv.handover isLive lost with ⟨own3, handover, spare3⟩
      refine (fileSync_inv aside.inv isLive handover).seq ?_ ?_
      · intro _ s4 synced
        exact cutTail_spec before isLive aside handover (spare3.trans spare1)
          synced chain3 (chain1.symm.trans split) handle
          (by rw [length]; exact size) (by rw [length]; exact fits) shorter data
      · rintro error s4 ⟨_, loud, moved⟩
        have loud0 := aside.same.not_quiet loud
        exact ⟨loud0, own1, (aside.unmoved moved).failed before isLive spare1
          loud0⟩
    · rintro error s2 ⟨_, loud, inv2, only, _⟩
      exact failed (visited.worked.same.not_quiet loud) (visited.trans
        (.ofFatOnly (inv1.handles.opened file isLive) inv2 only))
  · rintro error s1 reachFailed
    rcases reachFailed.why with ⟨_, loud⟩ | ⟨_, impossible, _⟩
    · exact failed loud (.ofFatOnly opened reachFailed.inv reachFailed.only)
    · omega

/-- Errors of `fs_truncate`. -/
structure TruncateError (F : Format) (live : FileRef → Prop) (file : FileRef)
    (s s' : Fs) (own own' : Ownership) (target : Nat) (error : FsError) :
    Prop where
  advanced : Advanced F live file s s' own own'
  why : s.Quiet → error = .inval ∧ (s.files file).size < target ∧ s' = s ∧
    own' = own

theorem truncateImpl_spec {target : Nat} (before : Between F live s own)
    (isLive : live file) :
    Meets (truncateImpl file target) s
      (fun _ s' => ∃ own', Truncated F live file s s' own own' target)
      fun error s' => ∃ own', TruncateError F live file s s' own own' target
        error := by
  have opened := before.inv.handles.opened file isLive
  have fails : ∀ error s', TruncateFailed F live file s s' own →
      ∃ own', TruncateError F live file s s' own own' target error := by
    rintro error s' ⟨loud, own', advanced⟩
    exact ⟨own', advanced, fun quiet => absurd quiet loud⟩
  unfold truncateImpl
  refine (requireMounted_spec before.inv.mounted).seq ?_ fun _ _ => False.elim
  rintro _ s0 rfl
  refine .bind (.get (.ite (fun same => ?_) fun different => ?_))
  · rw [same]
    exact .pure ⟨own, .refl before file, rfl, Nat.le_refl _, Or.inr ⟨rfl, rfl, rfl⟩,
      rfl, Or.inr ⟨rfl, rfl⟩⟩
  · refine .bind (.require (fun shorter => ?_) fun longer => ?_)
    · have first : (s0.files file).first ≠ 0 := by
        intro isEmpty
        have none : own (ownerOf s0.image file (s0.files file)) = [] := by
          apply before.inv.accounted.eq_nil_of_firstOf
          rw [opened.first, isEmpty]
        have size := opened.size
        rw [none, List.length_nil, Nat.zero_mul] at size
        omega
      have keeps : target / clusterBytes s0 +
          (if target % clusterBytes s0 ≠ 0 then 1 else 0) = F.keeps target := by
        rw [before.inv.clusterBytes_eq]
        rfl
      dsimp only
      rw [keeps]
      refine .ite (fun nothing => ?_) fun something => ?_
      · have isZero : target = 0 := by
          have most := F.le_keeps target
          rw [nothing, Nat.zero_mul] at most
          omega
        subst isZero
        exact (truncateAll_spec before isLive first).mono (fun _ _ done => done)
          fails
      · exact (truncateTo_spec before isLive first (Nat.pos_of_ne_zero something)
          (F.keeps_le (Nat.le_trans shorter opened.size)) (F.le_keeps target)
          (Nat.le_refl _) shorter).mono (fun _ _ done => done) fails
    · exact ⟨own, .refl before file, fun _ => ⟨rfl, by omega, rfl, rfl⟩⟩

end Files

end Katela.Filesystem
