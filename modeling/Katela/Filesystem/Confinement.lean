import Katela.Filesystem.Mounting

/-! # Confinement

Whatever the sectors behind the superblock contain, the filesystem stays within the sectors
that the superblock gives it: every cluster number that comes from the FAT is compared with
the number of clusters before it is used. The numbers in directory entries and in open files
are not, so calls that follow them are sound only if these numbers are in range. -/

namespace Katela.Filesystem

/-- The transfer stays in the filesystem, which has its superblock also before one is in
force, and what is written for a file or a directory slot stays out of the superblock and
the FAT. -/
def Access.Confined (access : Access) : Prop :=
  fsLbaStart ≤ access.lba ∧ access.lba < fsLbaStart + max 1 access.sb.totalSectors ∧
    (access.purpose = some .data ∨ access.purpose = some .directory →
      fsLbaStart + access.sb.fatSectors < access.lba)

/-- The sector is behind the FAT. -/
structure InData (sb : SuperBlock) (sector : Nat) : Prop where
  behind : sb.fatSectors < sector
  inside : sector < sb.totalSectors

/-- The superblock on the disk is one that `mount_now` accepts, and the filesystem in force
fits on the disk. -/
structure Hosts (sb : SuperBlock) (total diskSectors : Nat) (label : SuperBlock) : Prop where
  large : minDiskSectors ≤ total
  small : total ≤ 0x0FFFFFFF
  device : diskSectors = total
  fits : fsLbaStart + sb.totalSectors ≤ total
  label : Mountable total label

/-- A state in which the given superblock is in force. Its transfers so far were confined,
and the handles and iterators have the given property. -/
structure Tame (sb : SuperBlock) (shift : Nat)
    (Records : (FileRef → FsFile) → (Nat → FsIter) → Prop) (s : Fs) : Prop where
  isSb : s.sb = sb
  isShift : s.clusterShift = shift
  disk : Hosts sb s.total s.diskSectors s.label
  cache : s.fatDirty = true → 1 ≤ s.fatCacheSector ∧ s.fatCacheSector ≤ sb.fatSectors
  confined : ∀ access ∈ s.accesses, access.Confined
  records : Records s.files s.iters

section Layers

variable {sb : SuperBlock} {shift : Nat}
variable {Records Records' : (FileRef → FsFile) → (Nat → FsIter) → Prop} {s : Fs}

theorem Tame.with (tame : Tame sb shift Records s) (holds : Records' s.files s.iters) :
    Tame sb shift Records' s :=
  ⟨tame.isSb, tame.isShift, tame.disk, tame.cache, tame.confined, holds⟩

theorem Tame.any (tame : Tame sb shift Records s) : Tame sb shift (fun _ _ => True) s :=
  tame.with trivial

/-! ## Transfers -/

theorem Tame.request (geometry : Geometry sb shift) (tame : Tame sb shift Records s)
    {sector : Nat} (purpose : Option Purpose) (inside : sector < sb.totalSectors)
    (behind : purpose = some .data ∨ purpose = some .directory → sb.fatSectors < sector) :
    Tame sb shift Records (s.request sector purpose) := by
  refine ⟨tame.isSb, tame.isShift, tame.disk, tame.cache, ?_, tame.records⟩
  intro access member
  rcases List.mem_cons.mp member with rfl | before
  · have lba := geometry.lba_eq inside
    refine ⟨?_, ?_, fun kind => ?_⟩
    · change fsLbaStart ≤ lbaOf sector
      omega
    · change lbaOf sector < fsLbaStart + max 1 s.sb.totalSectors
      rw [tame.isSb]
      omega
    · have beyond := behind kind
      change fsLbaStart + s.sb.fatSectors < lbaOf sector
      rw [tame.isSb]
      omega
  · exact tame.confined access before

theorem blockRead_tame (geometry : Geometry sb shift) {sector : Nat}
    (inside : sector < sb.totalSectors) :
    Yields (Tame sb shift Records) (fun _ => True) (blockRead sector) := by
  intro s tame
  have requested := tame.request geometry none inside (by simp)
  refine (blockRead_spec s sector).mono ?_ ?_
  · rintro _ s' ⟨_, rfl⟩
    exact ⟨requested, trivial⟩
  · rintro _ s' ⟨_, _, rfl⟩
    exact requested

theorem blockWrite_tame (geometry : Geometry sb shift) (purpose : Purpose) {sector : Nat}
    (contents : Sector) (positive : 1 ≤ sector) (inside : sector < sb.totalSectors)
    (behind : purpose = .data ∨ purpose = .directory → sb.fatSectors < sector) :
    Yields (Tame sb shift Records) (fun _ => True) (blockWrite purpose sector contents) := by
  intro s tame
  have requested := tame.request geometry (some purpose) inside (by simpa using behind)
  refine (blockWrite_spec s purpose sector contents).mono ?_ ?_
  · rintro _ s' rfl
    refine ⟨⟨requested.isSb, requested.isShift, ?_, requested.cache, requested.confined,
      requested.records⟩, trivial⟩
    -- The superblock is not written.
    have disk := Fs.disk_store (s.request sector (some purpose)) contents
      (geometry.lba_eq inside)
    unfold Fs.label
    rw [disk, Function.update_of_ne (by omega)]
    exact requested.disk
  · rintro _ s' ⟨_, _, rfl⟩
    exact requested

theorem blocksRead_tame (geometry : Geometry sb shift) (count : Nat) :
    ∀ {sector : Nat}, sector + count ≤ sb.totalSectors →
    Yields (Tame sb shift Records) (fun _ => True) (blocksRead sector count) := by
  induction count with
  | zero => exact fun _ => .pure trivial
  | succ count induction =>
      intro sector inside
      unfold blocksRead
      refine .bind (.attempt (blockRead_tame geometry (by omega))) fun first _ =>
        .bind (.attempt (induction (by omega))) fun rest _ => ?_
      cases first with
      | error => exact .throw
      | ok => cases rest with
        | error => exact .throw
        | ok => exact .pure trivial

theorem blocksWrite_tame (geometry : Geometry sb shift) (purpose : Purpose)
    (blocks : List Sector) :
    ∀ {sector : Nat}, 1 ≤ sector → sector + blocks.length ≤ sb.totalSectors →
    (purpose = .data ∨ purpose = .directory → sb.fatSectors < sector) →
    Yields (Tame sb shift Records) (fun _ => True) (blocksWrite purpose sector blocks) := by
  induction blocks with
  | nil => exact fun _ _ _ => .pure trivial
  | cons contents others induction =>
      intro sector positive inside behind
      rw [List.length_cons] at inside
      unfold blocksWrite
      refine .bind (.attempt (blockWrite_tame geometry purpose contents positive (by omega)
        behind)) fun first _ => ?_
      refine .bind (.attempt (induction (by omega) (by omega) fun kind => ?_)) fun rest _ => ?_
      · have beyond := behind kind
        omega
      · cases first with
        | error => exact .throw
        | ok => cases rest with
          | error => exact .throw
          | ok => exact .pure trivial

/-! ## The FAT -/

theorem fatFlush_tame (geometry : Geometry sb shift) (tame : Tame sb shift Records s) :
    Meets fatFlush s (fun _ s' => Tame sb shift Records s' ∧ s'.fatDirty = false)
      fun _ s' => Tame sb shift Records s' := by
  unfold fatFlush
  refine .bind (.get (.ite (fun dirty => ?_) fun clean => ?_))
  · rcases tame.cache dirty with ⟨positive, inFat⟩
    refine (blockWrite_tame geometry .fat s.fatCache positive (geometry.fat_lt_total inFat)
      (by simp) s tame).seq ?_ fun _ _ still => still
    rintro _ s1 ⟨tame1, _⟩
    exact .modify ⟨⟨tame1.isSb, tame1.isShift, tame1.disk, nofun, tame1.confined,
      tame1.records⟩, rfl⟩
  · exact .pure ⟨tame, Bool.eq_false_iff.mpr clean⟩

theorem flush_yields (geometry : Geometry sb shift) :
    Yields (Tame sb shift Records) (fun _ => True) fatFlush :=
  fun _ tame => (fatFlush_tame geometry tame).mono (fun _ _ met => ⟨met.1, trivial⟩)
    fun _ _ still => still

theorem fatLoad_tame (geometry : Geometry sb shift) {sector : Nat} (positive : 1 ≤ sector)
    (inFat : sector ≤ sb.fatSectors) (tame : Tame sb shift Records s) :
    Meets (fatLoad sector) s
      (fun _ s' => Tame sb shift Records s' ∧ s'.fatCacheSector = sector)
      fun _ s' => Tame sb shift Records s' := by
  unfold fatLoad
  refine .bind (.get (.ite (fun cached => .pure ⟨tame, cached⟩) fun _ => ?_))
  refine (fatFlush_tame geometry tame).seq ?_ fun _ _ still => still
  rintro _ s1 ⟨tame1, clean⟩
  unfold fatFill
  refine .bind (.attempt (((blockRead_tame geometry (geometry.fat_lt_total inFat)) s1
    tame1).and (blockRead_spec s1 sector) |>.mono ?_ ?_))
  · rintro contents s2 ⟨⟨tame2, _⟩, _⟩
    exact .modify ⟨⟨tame2.isSb, tame2.isShift, tame2.disk, fun _ => ⟨positive, inFat⟩,
      tame2.confined, tame2.records⟩, rfl⟩
  · rintro error s2 ⟨tame2, _, _, rfl⟩
    refine .bind (.modify (.throw ?_))
    refine ⟨tame2.isSb, tame2.isShift, tame2.disk, fun dirty => ?_, tame2.confined,
      tame2.records⟩
    change s1.fatDirty = true at dirty
    rw [clean] at dirty
    cases dirty

/-- A cluster number that the FAT has an entry for. -/
structure InRange (sb : SuperBlock) (cluster : Nat) : Prop where
  positive : 1 ≤ cluster
  atMost : cluster ≤ sb.clusterCount

/-- A cluster without an entry is reported before anything is read. -/
theorem fatGet_reports {s : Fs} {cluster : Nat} (outside : ¬ InRange s.sb cluster) :
    Meets (fatGet cluster) s (fun _ _ => False)
      fun error s' => error = .corrupt ∧ s' = s := by
  unfold fatGet
  refine .bind (.get (.bind (.require (fun inRange => ?_) fun _ => ⟨rfl, rfl⟩)))
  exact absurd ⟨Nat.pos_of_ne_zero inRange.1, inRange.2⟩ outside

theorem chainNext_reports {s : Fs} {cluster : Nat} (outside : ¬ InRange s.sb cluster) :
    Meets (chainNext cluster) s (fun _ _ => False)
      fun error s' => error = .corrupt ∧ s' = s := by
  unfold chainNext
  exact (fatGet_reports outside).seq (fun _ _ impossible => impossible.elim)
    fun _ _ fails => fails

theorem fatGet_tame (geometry : Geometry sb shift) (cluster : Nat) :
    Yields (Tame sb shift Records) (fun _ => InRange sb cluster) (fatGet cluster) := by
  intro s tame
  unfold fatGet
  refine .bind (.get (.bind (.require (fun inRange => ?_) fun _ => tame)))
  rw [tame.isSb] at inRange
  refine (fatLoad_tame geometry (Nat.le_add_right 1 _) (geometry.fatFits.fatSector_le inRange.2)
    tame).seq ?_ fun _ _ still => still
  rintro _ s1 ⟨tame1, _⟩
  exact .bind (.get (.pure ⟨tame1, Nat.pos_of_ne_zero inRange.1, inRange.2⟩))

theorem fatSet_tame (geometry : Geometry sb shift) (cluster value : Nat) :
    Yields (Tame sb shift Records) (fun _ => InRange sb cluster) (fatSet cluster value) := by
  intro s tame
  unfold fatSet
  refine .bind (.get (.bind (.require (fun inRange => ?_) fun _ => tame)))
  rw [tame.isSb] at inRange
  have inFat := geometry.fatFits.fatSector_le inRange.2
  refine (fatLoad_tame geometry (Nat.le_add_right 1 _) inFat tame).seq ?_
    fun _ _ still => still
  rintro _ s1 ⟨tame1, cached⟩
  refine .modify ⟨⟨tame1.isSb, tame1.isShift, tame1.disk, fun _ => ?_, tame1.confined,
    tame1.records⟩, Nat.pos_of_ne_zero inRange.1, inRange.2⟩
  change 1 ≤ s1.fatCacheSector ∧ s1.fatCacheSector ≤ sb.fatSectors
  rw [cached]
  exact ⟨Nat.le_add_right 1 _, inFat⟩

/-- The successor in a chain is in range or the end. -/
theorem chainNext_tame (geometry : Geometry sb shift) (cluster : Nat) :
    Yields (Tame sb shift Records) (fun next => next = 0 ∨ InRange sb next)
      (chainNext cluster) := by
  unfold chainNext
  refine .bind (fatGet_tame geometry cluster) fun value _ => .ite (fun _ => ?_) fun _ => ?_
  · exact .pure (Or.inl rfl)
  · refine .bind .get fun s tame => .bind .require fun _ inRange => .pure (Or.inr ?_)
    rw [tame.isSb] at inRange
    exact ⟨inRange.1, inRange.2⟩

theorem Tame.withNextFree (tame : Tame sb shift Records s) (nextFree : Nat) :
    Tame sb shift Records { s with nextFree := nextFree } :=
  ⟨tame.isSb, tame.isShift, tame.disk, tame.cache, tame.confined, tame.records⟩

theorem allocLoop_tame (geometry : Geometry sb shift) (rounds : Nat) :
    ∀ candidate, Yields (Tame sb shift Records) (InRange sb)
      (allocLoop rounds candidate) := by
  induction rounds with
  | zero => exact fun _ => .throw
  | succ rounds induction =>
      intro candidate
      unfold allocLoop
      refine .bind (fatGet_tame geometry candidate) fun value inRange =>
        .ite (fun _ => ?_) fun _ => ?_
      · refine .bind (fatSet_tame geometry candidate chainEnd) fun _ _ => ?_
        exact .bind (.modify fun s tame => tame.withNextFree _) fun _ _ => .pure inRange
      · exact .bind .get fun s _ => induction _

theorem clusterAlloc_tame (geometry : Geometry sb shift) :
    Yields (Tame sb shift Records) (InRange sb) clusterAlloc := by
  unfold clusterAlloc
  exact .bind .get fun s _ => allocLoop_tame geometry _ _

theorem clusterFree_tame (geometry : Geometry sb shift) (cluster : Nat) :
    Yields (Tame sb shift Records) (fun _ => True) (clusterFree cluster) := by
  unfold clusterFree
  exact .bind (fatSet_tame geometry cluster 0) fun _ _ =>
    .modify fun s tame => tame.withNextFree _

theorem chainFreeLoop_tame (geometry : Geometry sb shift) (left : Nat) :
    ∀ cluster, Yields (Tame sb shift Records) (fun _ => True)
      (chainFreeLoop left cluster) := by
  induction left with
  | zero =>
      intro cluster
      unfold chainFreeLoop
      refine .ite (fun _ => .pure trivial) fun _ => ?_
      exact .bind (chainNext_tame geometry cluster) fun _ _ =>
        .bind (clusterFree_tame geometry cluster) fun _ _ => .throw
  | succ left induction =>
      intro cluster
      unfold chainFreeLoop
      refine .ite (fun _ => .pure trivial) fun _ => ?_
      exact .bind (chainNext_tame geometry cluster) fun next _ =>
        .bind (clusterFree_tame geometry cluster) fun _ _ => induction next

theorem chainFree_tame (geometry : Geometry sb shift) (first : Nat) :
    Yields (Tame sb shift Records) (fun _ => True) (chainFree first) := by
  unfold chainFree
  exact .bind .get fun s _ => chainFreeLoop_tame geometry _ first

/-! ## Clusters and slots -/

/-- The sectors of a cluster in range are behind the FAT. -/
theorem Tame.clusterSector_bounds (geometry : Geometry sb shift)
    (tame : Tame sb shift Records s) {cluster : Nat} (inRange : InRange sb cluster) :
    sb.fatSectors < clusterSector s cluster ∧
      clusterSector s cluster + 2 ^ shift ≤ sb.totalSectors := by
  have inForce : Geometry s.sb s.clusterShift := by
    rw [tame.isSb, tame.isShift]
    exact geometry
  have power := Nat.two_pow_pos shift
  have last := geometry.sector_lt inRange.atMost inRange.positive
    (Nat.sub_lt power Nat.one_pos)
  have start := geometry.start
  rw [clusterSector_eq inForce inRange.positive (by rw [tame.isSb]; exact inRange.atMost),
    tame.isSb, tame.isShift]
  unfold sectorOf at last ⊢
  omega

theorem Tame.inData (geometry : Geometry sb shift) (tame : Tame sb shift Records s)
    {cluster : Nat} (inRange : InRange sb cluster) {offset : Nat}
    (inCluster : offset < 2 ^ shift) :
    InData sb (clusterSector s cluster + offset) := by
  have bounds := tame.clusterSector_bounds geometry inRange
  constructor
  · omega
  · omega

theorem zeroSectors_tame (geometry : Geometry sb shift) (count : Nat) :
    ∀ {sector : Nat}, sb.fatSectors < sector → sector + count ≤ sb.totalSectors →
    Yields (Tame sb shift Records) (fun _ => True) (zeroSectors count sector) := by
  induction count with
  | zero => exact fun _ _ => .pure trivial
  | succ count induction =>
      intro sector behind inside
      unfold zeroSectors
      exact .bind (blockWrite_tame geometry .directory zeroSector (by omega) (by omega)
        fun _ => behind) fun _ _ => induction (by omega) (by omega)

theorem clusterZero_tame (geometry : Geometry sb shift) {cluster : Nat}
    (inRange : InRange sb cluster) :
    Yields (Tame sb shift Records) (fun _ => True) (clusterZero cluster) := by
  unfold clusterZero
  refine .bind .get fun s tame => ?_
  have bounds := tame.clusterSector_bounds geometry inRange
  rw [tame.isShift]
  exact zeroSectors_tame geometry _ bounds.1 bounds.2

theorem slotStore_tame (geometry : Geometry sb shift) {location : Location}
    (inData : InData sb location.sector) (entry : DirEntry) :
    Yields (Tame sb shift Records) (fun _ => True) (slotStore location entry) := by
  unfold slotStore
  refine .bind (flush_yields geometry) fun _ _ =>
    .bind (blockRead_tame geometry inData.inside) fun contents _ => ?_
  exact blockWrite_tame geometry .directory _ (Nat.one_le_of_lt inData.behind) inData.inside
    fun _ => inData.behind

/-! ## The directory -/

/-- The slots that a lookup reports are behind the FAT. -/
structure LookupResult.Inside (sb : SuperBlock) (res : LookupResult) : Prop where
  found : ∀ location entry, res.found = some (location, entry) → InData sb location.sector
  free : ∀ location, res.free = some location → InData sb location.sector

theorem scanSlots_inside (name : CString) (contents : Sector) {sector : Nat}
    (inData : InData sb sector) (rounds : Nat) :
    ∀ slot (res : LookupResult), res.Inside sb →
      (scanSlots name contents sector rounds slot res).Inside sb := by
  induction rounds with
  | zero => exact fun _ _ inside => inside
  | succ rounds induction =>
      intro slot res inside
      unfold scanSlots
      dsimp only
      split
      · refine induction _ _ ⟨inside.found, fun location isFree => ?_⟩
        cases before : res.free with
        | none =>
            rw [before] at isFree
            cases isFree
            exact inData
        | some other =>
            rw [before] at isFree
            cases isFree
            exact inside.free _ before
      · split
        · refine ⟨fun location entry isFound => ?_, inside.free⟩
          cases isFound
          exact inData
        · exact induction _ _ inside

theorem scanSectors_tame (geometry : Geometry sb shift) (name : CString) (count : Nat) :
    ∀ {sector : Nat} {res : LookupResult}, sb.fatSectors < sector →
    sector + count ≤ sb.totalSectors → res.Inside sb →
    Yields (Tame sb shift Records) (LookupResult.Inside sb)
      (scanSectors name count sector res) := by
  induction count with
  | zero => exact fun _ _ inside => .pure inside
  | succ count induction =>
      intro sector res behind inTotal inside
      unfold scanSectors
      refine .bind (blockRead_tame geometry (by omega)) fun contents _ => ?_
      have scanned := scanSlots_inside name contents ⟨behind, by omega⟩ slotsPerSector 0 res
        inside
      exact .ite (fun _ => .pure scanned) fun _ => induction (by omega) (by omega) scanned

theorem lookupLoop_tame (geometry : Geometry sb shift) (name : CString) (left : Nat) :
    ∀ {cluster : Nat} {res : LookupResult}, cluster = 0 ∨ InRange sb cluster →
    res.Inside sb → Yields (Tame sb shift Records) (LookupResult.Inside sb)
      (lookupLoop name left cluster res) := by
  induction left with
  | zero =>
      intro cluster res range inside
      unfold lookupLoop
      refine .ite (fun _ => .pure inside) fun nonzero => .bind .get fun s tame => ?_
      have bounds := tame.clusterSector_bounds geometry (range.resolve_left nonzero)
      rw [tame.isShift]
      refine .bind (scanSectors_tame geometry name _ bounds.1 bounds.2
        ⟨inside.found, inside.free⟩) fun res' inside' => ?_
      exact .ite (fun _ => .pure inside') fun _ =>
        .bind (chainNext_tame geometry cluster) fun _ _ => .throw
  | succ left induction =>
      intro cluster res range inside
      unfold lookupLoop
      refine .ite (fun _ => .pure inside) fun nonzero => .bind .get fun s tame => ?_
      have bounds := tame.clusterSector_bounds geometry (range.resolve_left nonzero)
      rw [tame.isShift]
      refine .bind (scanSectors_tame geometry name _ bounds.1 bounds.2
        ⟨inside.found, inside.free⟩) fun res' inside' => ?_
      exact .ite (fun _ => .pure inside') fun _ =>
        .bind (chainNext_tame geometry cluster) fun next inRange => induction inRange inside'

theorem dirLookup_tame (geometry : Geometry sb shift) (name : CString) :
    Yields (Tame sb shift Records) (LookupResult.Inside sb) (dirLookup name) := by
  unfold dirLookup
  refine .bind .get fun s tame => ?_
  rw [tame.isSb]
  exact lookupLoop_tame geometry name _ (Or.inr ⟨geometry.root_pos, geometry.root_le⟩)
    ⟨nofun, nofun⟩

theorem dirGrow_tame (geometry : Geometry sb shift) (lastCluster : Nat) :
    Yields (Tame sb shift Records) (fun location => InData sb location.sector)
      (dirGrow lastCluster) := by
  unfold dirGrow
  refine .bind (clusterAlloc_tame geometry) fun cluster inRange => ?_
  refine .bind (.attempt (.bind (clusterZero_tame geometry inRange) fun _ _ =>
    fatSet_tame geometry lastCluster cluster)) fun linked _ => ?_
  cases linked with
  | ok =>
      refine .bind .get fun s tame => .pure ?_
      have inData := tame.inData geometry inRange (Nat.two_pow_pos shift)
      rw [Nat.add_zero] at inData
      exact inData
  | error => exact .bind (.attempt (clusterFree_tame geometry cluster)) fun _ _ => .throw

theorem entryCreate_tame (geometry : Geometry sb shift) (name : CString)
    {res : LookupResult} (inside : res.Inside sb) :
    Yields (Tame sb shift Records)
      (fun made => InData sb made.1.sector ∧ made.2 = newEntry name)
      (entryCreate name res) := by
  have stored : ∀ location, InData sb location.sector →
      Yields (Tame sb shift Records)
        (fun made => InData sb made.1.sector ∧ made.2 = newEntry name) (do
          slotStore location (newEntry name)
          return (location, newEntry name)) :=
    fun location inData => .bind (slotStore_tame geometry inData _) fun _ _ =>
      .pure ⟨inData, rfl⟩
  unfold entryCreate
  cases isFree : res.free with
  | some location => exact .bind (.pure (inside.free location isFree)) stored
  | none => exact .bind (dirGrow_tame geometry _) stored

end Layers

end Katela.Filesystem
