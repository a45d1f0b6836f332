import Katela.Filesystem.Confinement

/-! # Calls on a hostile disk

`file_reach` starts at the cluster of the cursor or at the first cluster of the file. If it
has to follow the FAT from there, the number is checked; if not, the number is used as it is.
`open_impl` copies the number of the first cluster from the directory without a check, and
handles outlive `fs_format`, so not every call stays within the filesystem. Every public
call does that starts at a number in range. -/

namespace Katela.Filesystem

/-- The walk to a cluster of the file starts at a number in range, or it follows the FAT. -/
def FsFile.Starts (sb : SuperBlock) (handle : FsFile) (index : Nat) : Prop :=
  (handle.walkStart index).2 < index ∨ InRange sb (handle.walkStart index).1

/-- `file_reach` uses no number that it does not check. -/
def FsFile.Reachable (sb : SuperBlock) (handle : FsFile) (index : Nat) : Prop :=
  handle.first = 0 ∨ handle.Starts sb index

/-- The directory entry of the file is behind the FAT. -/
def FsFile.Placed (sb : SuperBlock) (handle : FsFile) : Prop :=
  InData sb handle.dirSector

/-- The numbers in a handle are those of a directory sector and of clusters. -/
structure FsFile.Sound (sb : SuperBlock) (handle : FsFile) : Prop where
  directory : handle.Placed sb
  first : handle.first = 0 ∨ InRange sb handle.first
  cursor : handle.cursorCluster = 0 ∨ InRange sb handle.cursorCluster

/-- A property of handles that holds again when the file grows and when the cursor moves. -/
structure Lasting (sb : SuperBlock) (Handle : FsFile → Prop) : Prop where
  first : ∀ handle cluster, Handle handle → InRange sb cluster →
    Handle { handle with first := cluster, cursorCluster := cluster, cursorIndex := 0 }
  cursor : ∀ handle cluster index, Handle handle → InRange sb cluster →
    Handle { handle with cursorCluster := cluster, cursorIndex := index }
  size : ∀ handle size, Handle handle → Handle { handle with size := size }

/-- A tame state in which a handle has the given property. -/
abbrev Holding (sb : SuperBlock) (shift : Nat) (file : FileRef) (Handle : FsFile → Prop) :
    Fs → Prop :=
  Tame sb shift fun files _ => Handle (files file)

section Files

variable {sb : SuperBlock} {shift : Nat} {s : Fs} {file : FileRef}
variable {Handle : FsFile → Prop}
variable {Records : (FileRef → FsFile) → (Nat → FsIter) → Prop}

/-! ## Handles -/

theorem lasting_true : Lasting sb fun _ => True :=
  ⟨fun _ _ _ _ => trivial, fun _ _ _ _ _ => trivial, fun _ _ _ => trivial⟩

theorem lasting_placed : Lasting sb (FsFile.Placed sb) :=
  ⟨fun _ _ placed _ => placed, fun _ _ _ placed _ => placed, fun _ _ placed => placed⟩

theorem lasting_sound : Lasting sb (FsFile.Sound sb) :=
  ⟨fun _ _ sound inRange => ⟨sound.directory, Or.inr inRange, Or.inr inRange⟩,
    fun _ _ _ sound inRange => ⟨sound.directory, sound.first, Or.inr inRange⟩,
    fun _ _ sound => ⟨sound.directory, sound.first, sound.cursor⟩⟩

theorem FsFile.Sound.reachable {handle : FsFile} (sound : handle.Sound sb) (index : Nat) :
    handle.Reachable sb index := by
  by_cases empty : handle.first = 0
  · exact Or.inl empty
  · refine Or.inr (Or.inr ?_)
    unfold FsFile.walkStart
    split
    · rename_i atCursor
      exact sound.cursor.resolve_left atCursor.1
    · exact sound.first.resolve_left empty

/-- From a cursor in range every later cluster can be reached. -/
theorem reachable_of_cursor {handle : FsFile} {index : Nat}
    (inRange : InRange sb handle.cursorCluster) (before : handle.cursorIndex ≤ index) :
    handle.Reachable sb index := by
  have nonzero : handle.cursorCluster ≠ 0 := Nat.ne_of_gt inRange.positive
  refine Or.inr (Or.inr ?_)
  unfold FsFile.walkStart
  rw [if_pos ⟨nonzero, before⟩]
  exact inRange

theorem Tame.setFile (tame : Tame sb shift Records s) {change : FsFile → FsFile}
    (holds : Handle (change (s.files file))) :
    Holding sb shift file Handle (s.setFile file change) := by
  refine ⟨tame.isSb, tame.isShift, tame.disk, tame.cache, tame.confined, ?_⟩
  simp only [Fs.setFile, Function.update_self]
  exact holds

theorem Tame.forget (tame : Tame sb shift Records s) :
    Holding sb shift file (fun _ => True) s :=
  tame.with trivial

theorem fileSync_tame (geometry : Geometry sb shift)
    (placed : ∀ handle, Handle handle → handle.Placed sb) :
    Yields (Holding sb shift file Handle) (fun _ => True) (fileSync file) := by
  unfold fileSync
  refine .bind (flush_yields geometry) fun _ _ => .bind .get fun s holding => ?_
  have inData : InData sb (s.files file).dirSector := placed _ holding.records
  exact .bind (blockRead_tame geometry inData.inside) fun contents _ =>
    blockWrite_tame geometry .directory _ (Nat.one_le_of_lt inData.behind) inData.inside
      fun _ => inData.behind

/-! ## Walks -/

theorem reachGrow_tame (geometry : Geometry sb shift) (allocate : Bool) (cluster : Nat) :
    Yields (Tame sb shift Records) (InRange sb) (reachGrow allocate cluster) := by
  unfold reachGrow
  refine .bind .require fun _ _ => .bind (clusterAlloc_tame geometry) fun next inRange => ?_
  refine .bind (.attempt (fatSet_tame geometry cluster next)) fun linked _ => ?_
  cases linked with
  | ok => exact .pure inRange
  | error => exact .bind (.attempt (clusterFree_tame geometry next)) fun _ _ => .throw

/-- A walk that follows the FAT ends in range, wherever it starts. -/
theorem reachLoop_tame (geometry : Geometry sb shift) (allocate : Bool) (steps : Nat) :
    ∀ {cluster : Nat}, 0 < steps ∨ InRange sb cluster →
      Yields (Tame sb shift Records) (InRange sb) (reachLoop allocate steps cluster) := by
  induction steps with
  | zero => exact fun start => .pure (start.resolve_left (Nat.lt_irrefl 0))
  | succ steps induction =>
      intro cluster _
      have onward : ∀ next, next = 0 ∨ InRange sb next →
          Yields (Tame sb shift Records) (InRange sb) (do
            let next ← if next = 0 then reachGrow allocate cluster else pure next
            reachLoop allocate steps next) := by
        intro next range
        exact .ite (fun _ => .bind (reachGrow_tame geometry allocate cluster)
          fun next inRange => induction (Or.inr inRange)) fun nonzero =>
            .bind (.pure (range.resolve_left nonzero)) fun next inRange =>
              induction (Or.inr inRange)
      unfold reachLoop
      exact .bind (chainNext_tame geometry cluster) onward

/-- After it the file has a first cluster. -/
theorem reachFirst_tame (geometry : Geometry sb shift) (lasting : Lasting sb Handle)
    (allocate : Bool) {index : Nat} (holding : Holding sb shift file Handle s)
    (reachable : (s.files file).Reachable sb index) :
    Meets (reachFirst file allocate) s
      (fun _ s' => Holding sb shift file Handle s' ∧ (s'.files file).Starts sb index)
      fun _ s' => Holding sb shift file Handle s' := by
  unfold reachFirst
  refine .bind (.get (.ite (fun _ => ?_) fun nonzero => ?_))
  · refine .bind (.require (fun _ => ?_) fun _ => holding)
    refine (clusterAlloc_tame geometry s holding).seq ?_ fun _ _ still => still
    rintro cluster s1 ⟨holding1, inRange⟩
    refine .modify ⟨holding1.setFile (lasting.first _ _ holding1.records inRange), ?_⟩
    have nonzero : cluster ≠ 0 := Nat.ne_of_gt inRange.positive
    simp only [Fs.setFile, Function.update_self, FsFile.Starts, FsFile.walkStart]
    rw [if_pos ⟨nonzero, Nat.zero_le index⟩]
    exact Or.inr inRange
  · exact .pure ⟨holding, reachable.resolve_left nonzero⟩

/-- After it the cursor is at the wanted cluster, and its number is in range. -/
theorem fileReach_tame (geometry : Geometry sb shift) (lasting : Lasting sb Handle)
    (index : Nat) (allocate : Bool) (holding : Holding sb shift file Handle s)
    (reachable : (s.files file).Reachable sb index) :
    Meets (fileReach file index allocate) s
      (fun _ s' => Holding sb shift file Handle s' ∧
        InRange sb (s'.files file).cursorCluster ∧ (s'.files file).cursorIndex = index)
      fun _ s' => Holding sb shift file Handle s' := by
  unfold fileReach
  refine (reachFirst_tame geometry lasting allocate holding reachable).seq ?_
    fun _ _ still => still
  rintro _ s1 ⟨holding1, starts⟩
  refine .bind (.get ?_)
  refine (reachLoop_tame geometry allocate _ (starts.imp_left Nat.sub_pos_of_lt) s1
    holding1).seq ?_ fun _ _ still => still
  rintro cluster s2 ⟨holding2, inRange⟩
  refine .modify ⟨holding2.setFile (lasting.cursor _ _ _ holding2.records inRange), ?_⟩
  simp only [Fs.setFile, Function.update_self]
  exact ⟨inRange, trivial⟩

/-! ## Contents -/

/-- A position within the cluster under the cursor. -/
theorem Tame.cursor_bounds (geometry : Geometry sb shift) (tame : Tame sb shift Records s)
    (inRange : InRange sb (s.files file).cursorCluster) (position remaining : Nat) :
    InData sb (cursorSector s file position) ∧
      cursorSector s file position + wholeSectors s position remaining ≤ sb.totalSectors := by
  have bounds := tame.clusterSector_bounds geometry inRange
  have isSize : clusterBytes s = 2 ^ shift * sectorSize := by
    unfold clusterBytes
    rw [tame.isShift, Nat.pow_add]
    rfl
  have inCluster : position % clusterBytes s / sectorSize < 2 ^ shift := by
    rw [isSize]
    apply Nat.div_lt_of_lt_mul
    rw [Nat.mul_comm]
    exact Nat.mod_lt _ (Nat.mul_pos (by decide) (Nat.two_pow_pos shift))
  unfold cursorSector wholeSectors
  rw [tame.isShift]
  generalize position % clusterBytes s / sectorSize = offset at inCluster ⊢
  exact ⟨⟨by omega, by omega⟩, by omega⟩

/-- The cursor is at a cluster of the file, and the number of this cluster is in range. -/
def FsFile.At (sb : SuperBlock) (handle : FsFile) (index : Nat) : Prop :=
  InRange sb handle.cursorCluster ∧ handle.cursorIndex = index

/-- A later position in the file can be reached from the one where the last round ended. -/
theorem FsFile.At.reachable {handle : FsFile} {position later bytes : Nat}
    (atCursor : handle.At sb (position / bytes)) (le : position ≤ later) :
    handle.Reachable sb (later / bytes) := by
  apply reachable_of_cursor atCursor.1
  rw [atCursor.2]
  exact Nat.div_le_div_right le

theorem Tame.clusterBytes_eq (tame : Tame sb shift Records s) :
    clusterBytes s = 2 ^ (shift + sectorShift) := by
  unfold clusterBytes
  rw [tame.isShift]

/-- The handle during a round of a transfer at a position. -/
abbrev Moving (sb : SuperBlock) (shift : Nat) (file : FileRef) (Handle : FsFile → Prop)
    (position : Nat) : Fs → Prop :=
  Holding sb shift file fun handle =>
    Handle handle ∧ handle.At sb (position / 2 ^ (shift + sectorShift))

theorem readRound_tame (geometry : Geometry sb shift) (lasting : Lasting sb Handle)
    (position remaining : Nat) (holding : Holding sb shift file Handle s)
    (reachable : (s.files file).Reachable sb (position / 2 ^ (shift + sectorShift))) :
    Meets (readRound file position remaining) s
      (fun _ s' => Moving sb shift file Handle position s')
      fun _ s' => Holding sb shift file Handle s' := by
  unfold readRound
  refine .bind (.get ?_)
  rw [holding.clusterBytes_eq]
  refine (fileReach_tame geometry lasting _ false holding reachable).seq ?_
    fun _ _ still => still
  rintro _ s1 ⟨holding1, atCursor⟩
  rcases holding1.cursor_bounds geometry atCursor.1 position remaining with
    ⟨inData, inTotal⟩
  have moving : Moving sb shift file Handle position s1 :=
    holding1.with ⟨holding1.records, atCursor⟩
  refine .bind (.get (.ite (fun _ => ?_) fun _ => ?_))
  · refine (blocksRead_tame geometry _ inTotal s1 moving).seq ?_
      fun _ _ still => still.with still.records.1
    exact fun blocks s2 still => .pure still.1
  · refine (blockRead_tame geometry inData.inside s1 moving).seq ?_
      fun _ _ still => still.with still.records.1
    exact fun block s2 still => .pure still.1

theorem readLoop_tame (geometry : Geometry sb shift) (lasting : Lasting sb Handle)
    (offset count rounds : Nat) : ∀ (out : List UInt8) (s : Fs),
    Holding sb shift file Handle s →
    (out.length < count →
      (s.files file).Reachable sb ((offset + out.length) / 2 ^ (shift + sectorShift))) →
    Meets (readLoop file offset count rounds out) s
      (fun _ s' => Holding sb shift file Handle s')
      fun _ s' => Holding sb shift file Handle s' := by
  induction rounds with
  | zero => exact fun _ _ holding _ => .pure holding
  | succ rounds induction =>
      intro out s holding reachable
      unfold readLoop
      refine .ite (fun more => ?_) fun _ => .pure holding
      refine .bind (.attempt ((readRound_tame geometry lasting _ _ holding
        (reachable more)).mono ?_ ?_))
      · intro bytes s1 moving
        refine induction _ s1 (moving.with moving.records.1) fun _ => ?_
        apply moving.records.2.reachable
        rw [List.length_append]
        omega
      · intro error s1 holding1
        exact .ite (fun _ => .pure holding1) fun _ => .throw holding1

theorem requireMounted_tame :
    Yields (Tame sb shift Records) (fun _ => True) requireMounted := by
  unfold requireMounted
  exact .bind .get fun s _ => Yields.require.mono fun _ _ => trivial

/-- Only a mounted filesystem does not refuse a call. -/
theorem requireMounted_meets {returned : Unit → Fs → Prop} {failed : FsError → Fs → Prop}
    (mounted : s.mounted = true → returned () s) (refused : failed .nofs s) :
    Meets requireMounted s returned failed := by
  unfold requireMounted
  exact .bind (.get (.require mounted fun _ => refused))

/-- A read is confined if it delivers nothing or starts in range. -/
theorem fsRead_tame (geometry : Geometry sb shift) (lasting : Lasting sb Handle)
    (offset count : Nat) (holding : Holding sb shift file Handle s)
    (reachable : s.mounted = true → offset < (s.files file).size → 0 < count →
      (s.files file).Reachable sb (offset / clusterBytes s)) :
    Meets (fsRead file offset count) s (fun _ s' => Holding sb shift file Handle s')
      fun _ s' => Holding sb shift file Handle s' := by
  unfold fsRead
  refine .bind (requireMounted_meets (fun mounted => ?_) holding)
  refine .bind (.get (.ite (fun _ => .pure holding) fun some => ?_))
  refine readLoop_tame geometry lasting offset _ _ [] s holding fun _ => ?_
  rw [← holding.clusterBytes_eq]
  exact reachable mounted (by omega) (by omega)

theorem writeRound_tame (geometry : Geometry sb shift) (lasting : Lasting sb Handle)
    (position : Nat) (source : Nat → UInt8) (remaining : Nat)
    (holding : Holding sb shift file Handle s)
    (reachable : (s.files file).Reachable sb (position / 2 ^ (shift + sectorShift))) :
    Meets (writeRound file position source remaining) s
      (fun _ s' => Moving sb shift file Handle position s')
      fun _ s' => Holding sb shift file Handle s' := by
  unfold writeRound
  refine .bind (.get ?_)
  rw [holding.clusterBytes_eq]
  refine (fileReach_tame geometry lasting _ true holding reachable).seq ?_
    fun _ _ still => still
  rintro _ s1 ⟨holding1, atCursor⟩
  rcases holding1.cursor_bounds geometry atCursor.1 position remaining with
    ⟨inData, inTotal⟩
  have positive := Nat.one_le_of_lt inData.behind
  have moving : Moving sb shift file Handle position s1 :=
    holding1.with ⟨holding1.records, atCursor⟩
  refine .bind (.get (.ite (fun _ => ?_) fun _ => ?_))
  · refine (blocksWrite_tame geometry .data _ positive ?_ (fun _ => inData.behind) s1
      moving).seq ?_ fun _ _ still => still.with still.records.1
    · rw [List.length_map, List.length_range]
      exact inTotal
    · exact fun _ s2 still => .pure still.1
  · refine (blockRead_tame geometry inData.inside s1 moving).seq ?_
      fun _ _ still => still.with still.records.1
    rintro block s2 ⟨moving2, _⟩
    refine (blockWrite_tame geometry .data _ positive inData.inside (fun _ => inData.behind)
      s2 moving2).seq ?_ fun _ _ still => still.with still.records.1
    exact fun _ s3 still => .pure still.1

theorem writeLoop_tame (geometry : Geometry sb shift) (lasting : Lasting sb Handle)
    (offset : Nat) (source : Nat → UInt8) (count rounds : Nat) : ∀ (done : Nat) (s : Fs),
    Holding sb shift file Handle s →
    (done < count →
      (s.files file).Reachable sb ((offset + done) / 2 ^ (shift + sectorShift))) →
    Meets (writeLoop file offset source count rounds done) s
      (fun _ s' => Holding sb shift file Handle s')
      fun _ s' => Holding sb shift file Handle s' := by
  induction rounds with
  | zero => exact fun _ _ holding _ => .pure holding
  | succ rounds induction =>
      intro done s holding reachable
      unfold writeLoop
      refine .ite (fun more => ?_) fun _ => .pure holding
      refine .bind (.attempt ((writeRound_tame geometry lasting _ _ _ holding
        (reachable more)).mono ?_ ?_))
      · intro stored s1 moving
        exact induction _ s1 (moving.with moving.records.1) fun _ =>
          moving.records.2.reachable (by omega)
      · exact fun error s1 holding1 => .pure holding1

theorem writeEnd_tame (geometry : Geometry sb shift) (lasting : Lasting sb Handle)
    (placed : ∀ handle, Handle handle → handle.Placed sb) (old : FsFile)
    (offset done : Nat) :
    Yields (Holding sb shift file Handle) (fun _ => True) (writeEnd file old offset done) := by
  unfold writeEnd
  refine .bind (.modify fun s holding => holding.setFile ?_) fun _ _ => ?_
  · split
    · exact lasting.size _ _ holding.records
    · exact holding.records
  · exact .bind .get fun s _ => .ite (fun _ => fileSync_tame geometry placed) fun _ =>
      .pure trivial

/-- A write is confined if it starts in range and its handle has a place in the directory. -/
theorem writeImpl_tame (geometry : Geometry sb shift) (lasting : Lasting sb Handle)
    (placed : ∀ handle, Handle handle → handle.Placed sb) (offset : Nat)
    (buffer : Nat → UInt8) (count : Nat) (holding : Holding sb shift file Handle s)
    (reachable : offset ≤ (s.files file).size → 0 < writeLimit offset count →
      (s.files file).Reachable sb (offset / clusterBytes s)) :
    Meets (writeImpl file offset buffer count) s
      (fun _ s' => Holding sb shift file Handle s')
      fun _ s' => Holding sb shift file Handle s' := by
  unfold writeImpl
  refine .bind (requireMounted_meets (fun _ => .bind (.get ?_)) holding)
  refine .bind (.require (fun inside => ?_) fun _ => holding)
  refine .ite (fun _ => .pure holding) fun some => ?_
  refine (writeLoop_tame geometry lasting offset buffer _ _ 0 s holding fun more => ?_).seq ?_
    fun _ _ still => still
  · rw [← holding.clusterBytes_eq]
    exact reachable inside more
  · intro outcome s1 holding1
    refine (writeEnd_tame geometry lasting placed _ _ _ s1 holding1).seq ?_
      fun _ _ still => still
    rintro _ s2 ⟨holding2, _⟩
    cases outcome.2 with
    | some error => exact .ite (fun _ => .pure holding2) fun _ => .throw holding2
    | none => exact .pure holding2

/-- A write to a place behind the end of the file, or of nothing, changes nothing. -/
theorem writeImpl_refused (offset : Nat) (buffer : Nat → UInt8) (count : Nat)
    (refused : ¬ (s.mounted = true ∧ offset ≤ (s.files file).size ∧
      0 < writeLimit offset count)) :
    Meets (writeImpl file offset buffer count) s (fun _ s' => s' = s)
      fun _ s' => s' = s := by
  unfold writeImpl
  refine .bind (requireMounted_meets (fun mounted => .bind (.get ?_)) rfl)
  refine .bind (.require (fun inside => ?_) fun _ => rfl)
  refine .ite (fun _ => .pure rfl) fun some => ?_
  exact absurd ⟨mounted, inside, Nat.pos_of_ne_zero some⟩ refused

/-- `finish` only writes the cache back. -/
theorem finish_tame {α : Type} {call : FsM α} (geometry : Geometry sb shift)
    (meets : Meets call s (fun _ s' => Tame sb shift Records s')
      fun _ s' => Tame sb shift (fun _ _ => True) s') :
    Meets (finish call) s (fun _ s' => Tame sb shift Records s')
      fun _ s' => Tame sb shift (fun _ _ => True) s' := by
  unfold finish
  refine .bind (.attempt (meets.mono ?_ ?_))
  · intro value s1 tame1
    refine .bind (.attempt ((flush_yields geometry s1 tame1).mono ?_ ?_))
    · exact fun _ s2 still => .pure still.1
    · exact fun _ s2 still => .throw still.any
  · intro error s1 tame1
    refine .bind (.attempt ((flush_yields geometry s1 tame1).mono ?_ ?_))
    · exact fun _ s2 still => .throw still.1
    · exact fun _ s2 still => .throw still

theorem fsWrite_tame (geometry : Geometry sb shift) (lasting : Lasting sb Handle)
    (placed : ∀ handle, Handle handle → handle.Placed sb) (offset : Nat)
    (buffer : Nat → UInt8) (count : Nat) (holding : Holding sb shift file Handle s)
    (reachable : offset ≤ (s.files file).size → 0 < writeLimit offset count →
      (s.files file).Reachable sb (offset / clusterBytes s)) :
    Meets (fsWrite file offset buffer count) s
      (fun _ s' => Holding sb shift file Handle s')
      fun _ s' => Tame sb shift (fun _ _ => True) s' :=
  finish_tame geometry ((writeImpl_tame geometry lasting placed offset buffer count holding
    reachable).mono (fun _ _ still => still) fun _ _ still => still.any)

/-! ## Truncation -/

theorem truncateAll_tame (geometry : Geometry sb shift)
    (holding : Holding sb shift file (FsFile.Placed sb) s) :
    Meets (truncateAll file) s (fun _ s' => Holding sb shift file (FsFile.Sound sb) s')
      fun _ s' => Tame sb shift (fun _ _ => True) s' := by
  unfold truncateAll
  refine .bind (.get (.bind (.modify ?_)))
  have emptied : Holding sb shift file (FsFile.Sound sb) (s.setFile file fun handle =>
      { handle with first := 0, size := 0, cursorIndex := 0, cursorCluster := 0 }) :=
    holding.setFile ⟨holding.records, Or.inl rfl, Or.inl rfl⟩
  refine (fileSync_tame geometry (fun _ sound => sound.directory) _ emptied).seq ?_
    fun _ _ still => still.any
  rintro _ s1 ⟨sound, _⟩
  exact (chainFree_tame geometry _ s1 sound).mono (fun _ _ still => still.1)
    fun _ _ still => still.any

theorem truncateTo_tame (geometry : Geometry sb shift) (size keep : Nat)
    (holding : Holding sb shift file (FsFile.Placed sb) s)
    (reachable : (s.files file).Reachable sb (keep - 1)) :
    Meets (truncateTo file size keep) s
      (fun _ s' => Holding sb shift file (FsFile.Placed sb) s')
      fun _ s' => Tame sb shift (fun _ _ => True) s' := by
  unfold truncateTo
  refine (fileReach_tame geometry lasting_placed _ false holding reachable).seq ?_
    fun _ _ still => still.any
  rintro _ s1 ⟨holding1, _⟩
  refine .bind (.get ?_)
  refine (chainNext_tame geometry _ s1 holding1).seq ?_ fun _ _ still => still.any
  rintro tail s2 ⟨holding2, _⟩
  refine .bind (.modify ?_)
  have shortened : Holding sb shift file (FsFile.Placed sb) (s2.setFile file fun handle =>
      { handle with size := size, cursorIndex := 0, cursorCluster := handle.first }) :=
    holding2.setFile holding2.records
  refine (fileSync_tame geometry (fun _ placed => placed) _ shortened).seq ?_
    fun _ _ still => still.any
  rintro _ s3 ⟨holding3, _⟩
  refine .ite (fun _ => .pure holding3) fun _ => ?_
  refine (fatSet_tame geometry _ _ s3 holding3).seq ?_ fun _ _ still => still.any
  rintro _ s4 ⟨holding4, _⟩
  exact (chainFree_tame geometry tail s4 holding4).mono (fun _ _ still => still.1)
    fun _ _ still => still.any

/-- The last cluster that is kept. -/
theorem keep_pred {size bytes : Nat} (positive : 0 < bytes)
    (kept : size / bytes + (if size % bytes ≠ 0 then 1 else 0) ≠ 0) :
    0 < size ∧
      size / bytes + (if size % bytes ≠ 0 then 1 else 0) - 1 = (size - 1) / bytes := by
  have parts := Nat.div_add_mod size bytes
  have less := Nat.mod_lt size positive
  by_cases whole : size % bytes = 0
  · rw [if_neg (by simp [whole]), Nat.add_zero] at kept ⊢
    rw [whole] at parts
    have some : 1 ≤ size / bytes := Nat.pos_of_ne_zero kept
    have product : bytes * (size / bytes) = bytes * (size / bytes - 1) + bytes := by
      rw [← Nat.mul_succ, Nat.succ_eq_add_one, Nat.sub_add_cancel some]
    refine ⟨by omega, ?_⟩
    symm
    apply Nat.div_eq_of_lt_le
    · rw [Nat.mul_comm]
      omega
    · rw [Nat.sub_add_cancel some, Nat.mul_comm]
      omega
  · rw [if_pos whole, Nat.add_sub_cancel]
    refine ⟨by omega, ?_⟩
    symm
    apply Nat.div_eq_of_lt_le
    · rw [Nat.mul_comm]
      omega
    · rw [Nat.mul_comm, Nat.mul_succ]
      omega

theorem truncateImpl_tame (geometry : Geometry sb shift) (size : Nat)
    (tame : Tame sb shift (fun _ _ => True) s)
    (reachable : s.mounted = true → size < (s.files file).size →
      (s.files file).Placed sb ∧
        (0 < size → (s.files file).Reachable sb ((size - 1) / clusterBytes s))) :
    Meets (truncateImpl file size) s (fun _ s' => Tame sb shift (fun _ _ => True) s')
      fun _ s' => Tame sb shift (fun _ _ => True) s' := by
  unfold truncateImpl
  refine .bind (requireMounted_meets (fun mounted => .bind (.get ?_)) tame)
  refine .ite (fun _ => .pure tame) fun different => ?_
  refine .bind (.require (fun shorter => ?_) fun _ => tame)
  rcases reachable mounted (by omega) with ⟨placed, starts⟩
  have holding : Holding sb shift file (FsFile.Placed sb) s := tame.with placed
  refine .ite (fun _ => ?_) fun kept => ?_
  · exact (truncateAll_tame geometry holding).mono (fun _ _ still => still.any)
      fun _ _ still => still
  · have positive : 0 < clusterBytes s := by
      rw [tame.clusterBytes_eq]
      exact Nat.two_pow_pos _
    rcases keep_pred positive kept with ⟨some, last⟩
    refine (truncateTo_tame geometry size _ holding ?_).mono (fun _ _ still => still.any)
      fun _ _ still => still
    rw [last]
    exact starts some

theorem fsTruncate_tame (geometry : Geometry sb shift) (size : Nat)
    (tame : Tame sb shift (fun _ _ => True) s)
    (reachable : s.mounted = true → size < (s.files file).size →
      (s.files file).Placed sb ∧
        (0 < size → (s.files file).Reachable sb ((size - 1) / clusterBytes s))) :
    Meets (fsTruncate file size) s (fun _ s' => Tame sb shift (fun _ _ => True) s')
      fun _ s' => Tame sb shift (fun _ _ => True) s' :=
  finish_tame geometry (truncateImpl_tame geometry size tame reachable)

/-- Emptying a file drops the numbers in its handle, unless it is empty already. -/
theorem fsTruncate_zero (geometry : Geometry sb shift)
    (holding : Holding sb shift file (FsFile.Placed sb) s)
    (sound : (s.files file).size = 0 → (s.files file).Sound sb) :
    Meets (fsTruncate file 0) s (fun _ s' => Holding sb shift file (FsFile.Sound sb) s')
      fun _ s' => Tame sb shift (fun _ _ => True) s' := by
  refine finish_tame geometry ?_
  unfold truncateImpl
  refine .bind (requireMounted_meets (fun _ => .bind (.get ?_)) holding.any)
  refine .ite (fun empty => .pure (holding.with (sound empty.symm))) fun _ => ?_
  refine .bind (.require (fun _ => ?_) fun _ => holding.any)
  refine .ite (fun _ => truncateAll_tame geometry holding) fun kept => absurd ?_ kept
  simp

end Files

end Katela.Filesystem
