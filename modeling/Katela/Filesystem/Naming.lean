import Katela.Filesystem.Directory

/-! # Creating, removing and renaming files -/

namespace Katela.Filesystem

/-! ## A new cluster for the directory -/

/-- The directory gets a cluster of zeros, which adds no file. -/
theorem Directory.grow {F : Format} {image image' : Image} {own own' : Ownership}
    {cluster : Nat} (before : Directory F image own)
    (root : own' .root = own .root ++ [cluster])
    (slots : ∀ location, own' (.slot location) = own (.slot location))
    (zeros : ∀ sector, F.InCluster cluster sector → image' sector = zeroSector)
    (same : ∀ location, F.InDir (own .root) location →
      image' location.sector = image location.sector) :
    Directory F image' own' ∧
      ∀ location, Holds F image' (own' .root) location ↔
        Holds F image (own .root) location := by
  have holds : ∀ location, Holds F image' (own' .root) location ↔
      Holds F image (own .root) location := by
    intro location
    constructor
    · rintro ⟨⟨inside, other, member, here⟩, used⟩
      rw [root] at member
      rcases List.mem_append.mp member with isOld | isNew
      · have inDir : F.InDir (own .root) location := ⟨inside, other, isOld, here⟩
        refine ⟨inDir, ?_⟩
        simpa [Used, entryOf_congr (same location inDir)] using used
      · rw [List.mem_singleton] at isNew
        subst isNew
        simp [Used, entryOf, zeros _ here, entryAt_zeroSector] at used
    · rintro ⟨inDir, used⟩
      refine ⟨inDir.mono ?_, ?_⟩
      · intro other member
        rw [root]
        exact List.mem_append_left _ member
      · simpa [Used, entryOf_congr (same location inDir)] using used
  have entries : ∀ location, Holds F image (own .root) location →
      entryOf image' location = entryOf image location :=
    fun location held => entryOf_congr (same location held.inDir)
  refine ⟨?_, holds⟩
  constructor
  case root =>
    have first := before.root
    rw [root]
    cases cells : own .root with
    | nil =>
        rw [cells] at first
        cases first
    | cons head rest =>
        rw [cells] at first
        exact first
  case first =>
    intro location held
    have old := (holds location).mp held
    rw [slots, entries location old]
    exact before.first location old
  case size =>
    intro location held
    have old := (holds location).mp held
    rw [slots, entries location old]
    exact before.size location old
  case vacant =>
    intro location empty
    rw [slots]
    exact before.vacant location fun held => empty ((holds location).mpr held)
  case valid =>
    intro location held
    have old := (holds location).mp held
    rw [entries location old]
    exact before.valid location old
  case distinct =>
    intro location other held held' equal
    have old := (holds location).mp held
    have old' := (holds other).mp held'
    rw [entries location old, entries other old'] at equal
    exact before.distinct location other old old' equal

section Naming

variable {F : Format} {live : FileRef → Prop} {s : Fs} {own : Ownership}

/-- Errors of functions that take a cluster: a transfer failed, or the disk was
full and nothing happened. -/
def NoRoom (F : Format) (s s' : Fs) (own own' : Ownership) (error : FsError) :
    Prop :=
  error = .io ∧ ¬ s.Quiet ∨
    error = .nospc ∧ Full F s.image ∧ s'.image = s.image ∧ own' = own

/-- The directory has one more cluster, all zeros. -/
structure Grown (F : Format) (s s' : Fs) (own own' : Ownership) (cluster : Nat) :
    Prop where
  root : own' .root = own .root ++ [cluster]
  others : ∀ owner, owner ≠ .root → own' owner = own owner
  positive : 1 ≤ cluster
  free : fatAt s.image cluster = 0
  zeros : ∀ sector, F.InCluster cluster sector → s'.image sector = zeroSector
  same : ∀ sector, F.sb.fatSectors < sector → ¬ F.InCluster cluster sector →
    s'.image sector = s.image sector

/-- The cluster that `dirGrow` cannot use is given back. -/
theorem giveBack_inv {cluster : Nat} {error : FsError}
    (inv : Inv F live s (Function.update own .spare [cluster]))
    (empty : own .spare = []) :
    Meets (do
        let _ ← attempt (clusterFree cluster)
        throw error : FsM Location) s
      (fun _ _ => False)
      fun error' s' => error' = error ∧ Inv F live s' own ∧ Still s s' := by
  have held : Function.update own .spare [cluster] .spare = [cluster] := by simp
  have restored : Function.update (Function.update own .spare [cluster])
      .spare [] = own := by
    rw [Function.update_idem, ← empty]
    exact Function.update_eq_self _ _
  refine .bind (.attempt ((clusterFree_inv inv held).mono ?_ ?_))
  · rintro _ s' ⟨inv', only⟩
    rw [restored] at inv'
    exact .throw ⟨rfl, inv', only.still⟩
  · rintro _ s' ⟨_, loud, inv', only⟩
    have dropped := inv'.dropSpare fun quiet =>
      absurd (only.same.quiet_before quiet) loud
    rw [restored] at dropped
    exact .throw ⟨rfl, dropped, only.still⟩

/-- A spare cluster of zeros becomes the last one of the directory. -/
theorem linkSpare_inv {s' : Fs} {cluster lastCluster : Nat}
    (inv : Inv F live s (Function.update own .spare [cluster]))
    (empty : own .spare = []) (last : (own .root).getLast? = some lastCluster)
    (inRange : lastCluster ≤ F.sb.clusterCount)
    (zeros : ∀ sector, F.InCluster cluster sector → s.image sector = zeroSector)
    (moved : Moved s s' (setFat s.image lastCluster cluster)) :
    ∃ own', Inv F live s' own' ∧ own' .root = own .root ++ [cluster] ∧
      ∀ owner, owner ≠ .root → own' owner = own owner := by
  have held : Function.update own .spare [cluster] .spare = [cluster] := by simp
  rcases List.getLast?_eq_some_iff.mp last with ⟨front, split⟩
  have split' : Function.update own .spare [cluster] .root =
      front ++ [lastCluster] := by simpa using split
  have outside := F.setFat_outside s.image cluster inRange
  have accounted := inv.accounted.append F.count_lt (by simp) split' held
  generalize owned : Function.update (Function.update
    (Function.update own .spare [cluster]) .spare []) .root _ = own' at accounted
  have root : own' .root = own .root ++ [cluster] := by
    rw [← owned]
    simp
  have others : ∀ owner, owner ≠ .root → own' owner = own owner := by
    intro owner notRoot
    rw [← owned, Function.update_of_ne notRoot]
    by_cases isSpare : owner = .spare
    · subst isSpare
      simp [empty]
    · simp [isSpare]
  have zeros' : ∀ sector, F.InCluster cluster sector →
      setFat s.image lastCluster cluster sector = zeroSector := by
    intro sector here
    rw [outside sector (Or.inr (F.fat_lt_of_inCluster here))]
    exact zeros sector here
  have sameDir : ∀ location,
      F.InDir (Function.update own .spare [cluster] .root) location →
      setFat s.image lastCluster cluster location.sector = s.image location.sector :=
    fun location inDir => outside _ (Or.inr inDir.fat_lt)
  have grown := inv.directory.grow (by simpa using root)
    (fun location => by rw [others _ (by simp)]; simp) zeros' sameDir
  refine ⟨own', inv.moved moved outside accounted grown.1 ?_ ?_, root, others⟩
  · refine inv.handles.congr ?_ ?_ ?_ ?_
    · intro c inRoot
      rw [root]
      exact List.mem_append_left _ (by simpa using inRoot)
    · intro location held
      exact alike_of_eq (entryOf_congr (sameDir location held.inDir))
    · intro location
      rw [others _ (by simp)]
      simp
    · intro file
      rw [others _ (by simp)]
      simp
  · intro c inRoot
    rw [root]
    exact List.mem_append_left _ (by simpa using inRoot)

theorem dirGrow_inv {lastCluster : Nat} (inv : Inv F live s own)
    (empty : own .spare = [])
    (last : (own .root).getLast? = some lastCluster) :
    Meets (dirGrow lastCluster) s
      (fun location s' => ∃ cluster own', location = ⟨F.sectorOf cluster, 0⟩ ∧
        Inv F live s' own' ∧ Still s s' ∧ Grown F s s' own own' cluster)
      fun error s' => ∃ own', Inv F live s' own' ∧ Still s s' ∧
        own' = own ∧ NoRoom F s s' own own' error := by
  unfold dirGrow
  refine (clusterAlloc_inv inv empty).seq ?_ ?_
  · rintro cluster s1 ⟨inv1, only, free⟩
    have member : cluster ∈ Function.update own .spare [cluster] .spare := by simp
    refine .bind (.attempt ((clusterZero_inv inv1 member).seq ?_ ?_))
    · rintro _ s2 ⟨inv2, scribbled, zeros⟩
      have inOwn : lastCluster ∈ own .root := List.mem_of_getLast? last
      have lastBounds := inv.accounted.bounds .root lastCluster inOwn
      have outside := F.setFat_outside s2.image cluster lastBounds.2
      have still2 := only.still.trans scribbled.still
      refine (fatSet_spec inv2.geometry.fatFits inv2.coherent lastBounds.1
        (by rw [inv2.sb]; exact lastBounds.2) cluster).mono ?_ ?_
      · intro _ s3 moved
        rcases linkSpare_inv inv2 empty last lastBounds.2 zeros moved
          with ⟨own', inv3, root, others⟩
        refine .bind (.get (.pure ⟨cluster, own', ?_, inv3,
          still2.trans moved.still, root, others,
          (inv1.accounted.bounds .spare cluster member).1, free, ?_, ?_⟩))
        · have inRoot : cluster ∈ own' .root := by simp [root]
          rw [inv3.clusterSector_eq inRoot]
        · intro sector here
          rw [moved.image_eq, outside sector (Or.inr (F.fat_lt_of_inCluster here))]
          exact zeros sector here
        · intro sector beyond away
          rw [moved.image_eq, outside sector (Or.inr beyond),
            scribbled.image_eq sector away, only.image_eq sector (Or.inr beyond)]
      · rintro error s3 ⟨isIo, loud, moved⟩
        refine (giveBack_inv (inv2.unmoved moved) empty).mono
          (fun _ _ impossible => impossible.elim) ?_
        rintro _ s' ⟨rfl, inv', still⟩
        exact ⟨own, inv', (still2.trans moved.still).trans still, rfl,
          Or.inl ⟨isIo, still2.same.not_quiet loud⟩⟩
    · rintro error s2 ⟨isIo, loud, inv2, scribbled⟩
      refine (giveBack_inv inv2 empty).mono
        (fun _ _ impossible => impossible.elim) ?_
      rintro _ s' ⟨rfl, inv', still⟩
      exact ⟨own, inv', (only.still.trans scribbled.still).trans still, rfl,
        Or.inl ⟨isIo, only.same.not_quiet loud⟩⟩
  · rintro error s1 ⟨inv1, only, image, why⟩
    refine ⟨own, inv1, only.still, rfl, ?_⟩
    rcases why with isIo | ⟨isFull, full⟩
    · exact Or.inl isIo
    · exact Or.inr ⟨isFull, full, image, rfl⟩

/-- The new cluster is none of those in use. -/
theorem Grown.away {s' : Fs} {own' : Ownership} {cluster used sector : Nat}
    {owner : Owner} (inv : Inv F live s own)
    (grown : Grown F s s' own own' cluster) (member : used ∈ own owner)
    (here : F.InCluster used sector) : ¬ F.InCluster cluster sector := by
  intro there
  have positive := (inv.accounted.bounds owner used member).1
  have equal := F.inCluster_unique grown.positive positive there here
  exact inv.accounted.taken member (equal ▸ grown.free)

theorem Grown.kept {s' : Fs} {own' : Ownership} {cluster : Nat}
    (inv : Inv F live s own) (grown : Grown F s s' own own' cluster)
    (location : Location) : KeptAt F s.image s'.image own own' location := by
  have sameDir : ∀ other, F.InDir (own .root) other →
      s'.image other.sector = s.image other.sector := by
    intro other inDir
    refine grown.same _ inDir.fat_lt ?_
    rcases inDir with ⟨_, dirCluster, member, there⟩
    exact grown.away inv member there
  constructor
  case holds =>
    exact (inv.directory.grow grown.root (fun other => grown.others _ (by simp))
      grown.zeros sameDir).2 location
  case entry =>
    intro held
    exact entryOf_congr (sameDir location held.inDir)
  case chain => exact grown.others _ (by simp)
  case data =>
    intro used member sector here
    exact grown.same sector (F.fat_lt_of_inCluster here)
      (grown.away inv member here)

/-! ## A new file -/

theorem Inv.slot_bounds {location : Location} (inv : Inv F live s own)
    (inDir : F.InDir (own .root) location) :
    s.sb.fatSectors < location.sector ∧ location.sector < s.sb.totalSectors := by
  rw [inv.sb]
  refine ⟨inDir.fat_lt, ?_⟩
  rcases inDir with ⟨_, cluster, member, here⟩
  have bounds := inv.accounted.bounds .root cluster member
  exact F.lt_total_of_inCluster bounds.1 bounds.2 here

/-- The directory has the clusters that it had, or it was full and has one more, of which
only the first slot is in use. -/
def Extends (F : Format) (image image' : Image) (root root' : List Nat) : Prop :=
  root' = root ∨
    (∃ cluster, root' = root ++ [cluster] ∧
      ∀ location, F.InDir [cluster] location → Used image' location →
        location = ⟨F.sectorOf cluster, 0⟩) ∧
    NoSlot F image root

/-- A new empty file was entered in a slot. -/
structure Created (F : Format) (live : FileRef → Prop) (s s' : Fs)
    (own own' : Ownership) (name : CString) (location : Location) : Prop where
  inv : Inv F live s' own'
  still : Still s s'
  clean : s'.fatDirty = false
  fresh : ¬ Holds F s.image (own .root) location
  holds : Holds F s'.image (own' .root) location
  entry : entryOf s'.image location = newEntry name
  chain : own' (.slot location) = []
  kept : ∀ other, other ≠ location →
    KeptAt F s.image s'.image own own' other
  spare : own' .spare = own .spare
  handles : ∀ file, own' (.handle file) = own (.handle file)
  root : Extends F s.image s'.image (own .root) (own' .root)

/-- Storing a new entry in a slot that no file uses. -/
theorem slotStore_create {name : CString} {location : Location}
    (valid : nameOk name = true) (inv : Inv F live s own)
    (inDir : F.InDir (own .root) location) (unused : ¬ Used s.image location)
    (absent : ∀ other, Holds F s.image (own .root) other →
      storedName (entryOf s.image other) ≠ name) :
    Meets (slotStore location (newEntry name)) s
      (fun _ s' => Created F live s s' own own name location)
      fun error s' => error = .io ∧ ¬ s.Quiet ∧ Inv F live s' own ∧
        Still s s' := by
  have bounds := inv.slot_bounds inDir
  refine (slotStore_spec inv.geometry inv.coherent (newEntry name) bounds.1
    bounds.2).mono ?_ ?_
  · intro _ s' stored
    have image : s'.image = putEntry s.image location (newEntry name) :=
      stored.image_eq
    have self := entryOf_putEntry_self s.image inDir.1 (newEntry_bounded name)
    have used : Used (putEntry s.image location (newEntry name)) location := by
      simp only [Used, self]
      rfl
    have empty : own (.slot location) = [] :=
      inv.directory.vacant location fun held => unused held.used
    have named := storedName_nameField valid
      (show (newEntry name).name = nameField name from rfl)
    have directory : Directory F (putEntry s.image location (newEntry name)) own := by
      refine inv.directory.put inDir
        (fun other different => entryOf_putEntry_other s.image _ different) rfl
        (fun _ _ => rfl) ?_ ?_ (fun absurd => (absurd used).elim) ?_ ?_
      · intro _
        rw [self, empty]
        rfl
      · intro _
        rw [self]
        exact Nat.zero_le _
      · intro _
        rw [self, named]
        exact valid
      · intro _ other _ held
        rw [self, named]
        exact absent other held
    have after : Inv F live s' own := by
      refine inv.stored stored (by rw [← inv.sb]; exact bounds.1) inv.accounted
        directory ?_
      refine inv.handles.congr (fun _ member => member) ?_ (fun _ => rfl)
        fun _ => rfl
      intro other held
      apply alike_of_eq
      apply entryOf_putEntry_other
      rintro rfl
      exact unused held.used
    refine ⟨after, stored.still, stored.clean, fun held => unused held.used,
      ⟨inDir, ?_⟩, ?_, empty, ?_, rfl, fun _ => rfl, Or.inl rfl⟩
    · rw [image]
      exact used
    · rw [image]
      exact self
    · intro other different
      rw [image]
      exact .put inv.accounted inDir different rfl rfl
  · rintro error s' ⟨isIo, loud, moved⟩
    exact ⟨isIo, loud, inv.unmoved moved, moved.still⟩

/-- Errors of `entry_create` and what calls it. -/
structure CreateFailed (F : Format) (live : FileRef → Prop) (s s' : Fs)
    (own own' : Ownership) (error : FsError) : Prop where
  inv : Inv F live s' own'
  still : Still s s'
  spare : own' .spare = own .spare
  handles : ∀ file, own' (.handle file) = own (.handle file)
  why : NoRoom F s s' own own' error
  crowded : error = .nospc → NoSlot F s.image (own .root)

theorem entryCreate_inv {name : CString} {res : LookupResult}
    (valid : nameOk name = true) (inv : Inv F live s own)
    (empty : own .spare = []) (looked : Looked F s.image (own .root) name res)
    (missing : res.found = none) :
    Meets (entryCreate name res) s
      (fun found s' => found.2 = newEntry name ∧
        ∃ own', Created F live s s' own own' name found.1)
      fun error s' => ∃ own', CreateFailed F live s s' own own' error := by
  have absent := looked.missing missing
  unfold entryCreate
  cases free : res.free with
  | some location =>
      rcases looked.free location free with ⟨inDir, unused⟩
      refine .bind (.pure ((slotStore_create valid inv inDir unused absent).seq
        ?_ ?_))
      · intro _ s' created
        exact .pure ⟨rfl, own, created⟩
      · rintro error s' ⟨isIo, loud, after, still⟩
        refine ⟨own, after, still, rfl, fun _ => rfl, Or.inl ⟨isIo, loud⟩, ?_⟩
        rw [isIo]
        exact nofun
  | none =>
      refine (dirGrow_inv inv empty (looked.last missing)).seq ?_ ?_
      · rintro location s1 ⟨cluster, own1, rfl, inv1, still, grown⟩
        have member : cluster ∈ own1 .root := by simp [grown.root]
        have first : F.InCluster cluster (F.sectorOf cluster) :=
          ⟨Nat.le_refl _, Nat.lt_add_of_pos_right (Nat.two_pow_pos F.shift)⟩
        have inDir : F.InDir (own1 .root) ⟨F.sectorOf cluster, 0⟩ :=
          ⟨Nat.zero_lt_succ 3, cluster, member, first⟩
        have unused : ¬ Used s1.image ⟨F.sectorOf cluster, 0⟩ := by
          simp [Used, entryOf, grown.zeros _ first, entryAt_zeroSector]
        have kept := grown.kept inv
        have absent1 : ∀ other, Holds F s1.image (own1 .root) other →
            storedName (entryOf s1.image other) ≠ name := by
          intro other held
          have old := (kept other).holds.mp held
          rw [(kept other).entry old]
          exact absent other old
        refine (slotStore_create valid inv1 inDir unused absent1).seq ?_ ?_
        · intro _ s' created
          refine .pure ⟨rfl, own1, created.inv, still.trans created.still,
            created.clean, ?_, created.holds, created.entry, created.chain, ?_, ?_, ?_, ?_⟩
          · intro held
            exact created.fresh ((kept _).holds.mpr held)
          · intro other different
            exact (kept other).trans (created.kept other different)
          · exact grown.others _ (by simp)
          · intro file
            exact grown.others _ (by simp)
          · refine Or.inr ⟨⟨cluster, grown.root, ?_⟩, looked.full missing free⟩
            rintro location ⟨slot, other, isCluster, here⟩ used
            rw [List.mem_singleton.mp isCluster] at here
            by_contra different
            have held : Holds F s'.image (own1 .root) location :=
              ⟨⟨slot, cluster, member, here⟩, used⟩
            have used1 := ((created.kept location different).holds.mp held).used
            simp [Used, entryOf, grown.zeros _ here, entryAt_zeroSector] at used1
        · rintro error s' ⟨isIo, loud, after, still'⟩
          exact ⟨own1, after, still.trans still', grown.others _ (by simp),
            fun file => grown.others _ (by simp),
            Or.inl ⟨isIo, still.same.not_quiet loud⟩, fun _ => looked.full missing free⟩
      · rintro error s1 ⟨own', inv1, still, rfl, why⟩
        exact ⟨own', inv1, still, rfl, fun _ => rfl, why, fun _ => looked.full missing free⟩

/-! ## Closing open files -/

/-- Which open files are in use matters only up to equivalence. -/
theorem Inv.live_congr {live' : FileRef → Prop} (inv : Inv F live s own)
    (same : ∀ file, live' file ↔ live file) : Inv F live' s own := by
  have equal : live' = live := funext fun file => propext (same file)
  rw [equal]
  exact inv

/-- Only chains that open files had to themselves were given up. -/
structure Closed (own own' : Ownership) : Prop where
  root : own' .root = own .root
  slots : ∀ location, own' (.slot location) = own (.slot location)
  spare : own' .spare = own .spare
  handles : ∀ file, own' (.handle file) = own (.handle file) ∨
    own' (.handle file) = []

/-- Some handles are not used any more. -/
theorem Inv.restrict {live' : FileRef → Prop} (inv : Inv F live s own)
    (less : ∀ file, live' file → live file)
    (shown : s.Quiet → ∀ file, own (.handle file) = []) :
    ∃ own', Closed own own' ∧ Inv F live' s own' := by
  classical
  have owned : ∃ own' : Ownership, Closed own own' ∧
      (∀ file, live' file → own' (.handle file) = own (.handle file)) ∧
      ∀ file, ¬ live' file → own' (.handle file) = [] := by
    refine ⟨fun
      | .handle file => if live' file then own (.handle file) else []
      | owner => own owner, ⟨rfl, fun _ => rfl, rfl, fun file => ?_⟩,
      fun file isLive => if_pos isLive, fun file notLive => if_neg notLive⟩
    by_cases isLive : live' file
    · exact Or.inl (if_pos isLive)
    · exact Or.inr (if_neg isLive)
  rcases owned with ⟨own', closed, kept, gone⟩
  have rootMember : ∀ cluster ∈ own .root, cluster ∈ own' .root := by
    intro cluster member
    rw [closed.root]
    exact member
  refine ⟨own', closed, { inv with
    accounted := inv.accounted.shrink ?_
    directory := inv.directory.congr_slots closed.root closed.slots fun _ _ => rfl
    handles := ⟨?_, ?_, gone⟩
    disk := by rw [closed.root]; exact inv.disk }⟩
  · intro owner
    cases owner with
    | root => exact Or.inl closed.root
    | slot location => exact Or.inl (closed.slots location)
    | handle file =>
        exact (closed.handles file).imp_right fun empty =>
          ⟨empty, fun quiet => shown quiet file⟩
    | spare => exact Or.inl closed.spare
  · intro file isLive
    have opened := inv.handles.opened file (less file isLive)
    have owner : own' (ownerOf s.image file (s.files file)) =
        own (ownerOf s.image file (s.files file)) := by
      unfold ownerOf
      split
      · exact closed.slots _
      · exact kept file isLive
    refine opened.congr rootMember (alike_of_eq rfl) (by rw [owner])
      (by simp only [owner, List.prefix_rfl]) ?_
    intro isShown
    rw [kept file isLive]
    exact opened.shown isShown
  · intro one two oneLive twoLive same
    exact inv.handles.single one two (less one oneLive) (less two twoLive) same

theorem Closed.shown {own' : Ownership} (closed : Closed own own')
    (shown : ∀ file, own (.handle file) = []) (file : FileRef) :
    own' (.handle file) = [] := by
  rcases closed.handles file with same | empty
  · rw [same]
    exact shown file
  · exact empty

/-! ## Removing a file -/

/-- Clearing a slot hands the chain of its file to the running function. -/
structure Cleared (F : Format) (live : FileRef → Prop) (s s' : Fs)
    (own own' : Ownership) (location : Location) : Prop where
  inv : Inv F live s' own'
  still : Still s s'
  gone : ¬ Used s'.image location
  spare : own' .spare = own (.slot location)
  handles : ∀ file, own' (.handle file) = own (.handle file)
  kept : ∀ other, other ≠ location →
    KeptAt F s.image s'.image own own' other

theorem slotStore_remove {location : Location} (inv : Inv F live s own)
    (held : Holds F s.image (own .root) location) (empty : own .spare = [])
    (nobody : ∀ file, live file → (s.files file).location ≠ location) :
    Meets (slotStore location DirEntry.zero) s
      (fun _ s' => ∃ own', Cleared F live s s' own own' location)
      fun error s' => error = .io ∧ ¬ s.Quiet ∧ Moved s s' s.image := by
  have bounds := inv.slot_bounds held.inDir
  refine (slotStore_spec inv.geometry inv.coherent DirEntry.zero bounds.1
    bounds.2).mono ?_ ?_
  · intro _ s' stored
    have image : s'.image = putEntry s.image location DirEntry.zero :=
      stored.image_eq
    have self := entryOf_putEntry_self s.image held.inDir.1 zero_bounded
    have unused : ¬ Used (putEntry s.image location DirEntry.zero) location := by
      simp only [Used, self]
      decide
    have accounted : Accounted s.Quiet F.sb s.image (Function.update
        (Function.update own (.slot location) []) .spare (own (.slot location))) :=
      inv.accounted.move (by simp) fun _ => empty
    generalize owned : Function.update (Function.update own (.slot location) [])
      .spare (own (.slot location)) = own' at accounted
    have root : own' .root = own .root := by simp [← owned]
    have slots : ∀ other, other ≠ location →
        own' (.slot other) = own (.slot other) := by
      intro other different
      simp [← owned, different]
    have handles : ∀ file, own' (.handle file) = own (.handle file) := by
      simp [← owned]
    have vacated : own' (.slot location) = [] := by simp [← owned]
    have directory : Directory F (putEntry s.image location DirEntry.zero) own' := by
      refine inv.directory.put held.inDir
        (fun other different => entryOf_putEntry_other s.image _ different) root
        slots (fun used => (unused used).elim) (fun used => (unused used).elim)
        (fun _ => vacated) (fun used => (unused used).elim)
        fun used => (unused used).elim
    have others : ∀ file, live file →
        entryOf (putEntry s.image location DirEntry.zero) (s.files file).location =
          entryOf s.image (s.files file).location :=
      fun file isLive => entryOf_putEntry_other s.image _ (nobody file isLive)
    refine ⟨own', inv.stored stored (by rw [← inv.sb]; exact bounds.1) accounted
      directory ⟨?_, inv.handles.single, ?_⟩, stored.still, ?_, by simp [← owned],
      handles, ?_⟩
    · intro file isLive
      have opened := inv.handles.opened file isLive
      have owner : own' (ownerOf s.image file (s.files file)) =
          own (ownerOf s.image file (s.files file)) := by
        unfold ownerOf
        split
        · exact slots _ (nobody file isLive)
        · exact handles file
      refine opened.congr (fun _ member => by rw [root]; exact member)
        (alike_of_eq (others file isLive)) (by rw [owner])
        (by simp only [owner, List.prefix_rfl]) ?_
      intro isShown
      rw [handles]
      exact opened.shown isShown
    · intro file notLive
      rw [handles]
      exact inv.handles.closed file notLive
    · rw [image]
      exact unused
    · intro other different
      rw [image]
      exact .put inv.accounted held.inDir different root (slots other different)
  · exact fun _ _ failed => failed

end Naming

end Katela.Filesystem
