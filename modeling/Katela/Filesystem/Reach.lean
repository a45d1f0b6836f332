import Katela.Filesystem.NameCalls

/-! # Walking through an open file

`file_reach` follows the chain of an open file and appends a cluster at its
end if it has to. The chain belongs to the directory slot if the slot shows it
and to the handle otherwise. -/

namespace Katela.Filesystem

/-- The chain of an open file. -/
def chainOf (s : Fs) (own : Ownership) (file : FileRef) : List Nat :=
  own (ownerOf s.image file (s.files file))

section Reach

variable {F : Format} {live : FileRef → Prop} {s s' s'' : Fs}
variable {own own' own'' : Ownership} {file : FileRef}

theorem ownerOf_cases (image : Image) (file : FileRef) (handle : FsFile) :
    ownerOf image file handle = .slot handle.location ∧
        handle.first = (entryOf image handle.location).first ∨
      ownerOf image file handle = .handle file ∧
        handle.first ≠ (entryOf image handle.location).first := by
  unfold ownerOf
  split
  · exact Or.inl ⟨rfl, ‹_›⟩
  · exact Or.inr ⟨rfl, ‹_›⟩

theorem ownerOf_ne_root (image : Image) (file : FileRef) (handle : FsFile) :
    ownerOf image file handle ≠ .root := by
  rcases ownerOf_cases image file handle with ⟨owner, _⟩ | ⟨owner, _⟩
  · simp [owner]
  · simp [owner]

theorem ownerOf_ne_spare (image : Image) (file : FileRef) (handle : FsFile) :
    ownerOf image file handle ≠ .spare := by
  rcases ownerOf_cases image file handle with ⟨owner, _⟩ | ⟨owner, _⟩
  · simp [owner]
  · simp [owner]

/-- Chains of files got longer at their ends. -/
theorem Inv.grow {cluster value : Nat} (inv : Inv F live s own)
    (moved : Moved s s' (Filesystem.setFat s.image cluster value))
    (inRange : cluster ≤ F.sb.clusterCount)
    (accounted : Accounted s.Quiet F.sb (Filesystem.setFat s.image cluster value)
      own')
    (root : own' .root = own .root)
    (grows : ∀ owner, owner ≠ .root → owner ≠ .spare → own owner <+: own' owner)
    (empty : ∀ owner, owner ≠ .root → owner ≠ .spare → own owner = [] →
      own' owner = []) : Inv F live s' own' := by
  have outside := F.setFat_outside s.image value inRange
  have dirSame : ∀ location, F.InDir (own .root) location →
      Filesystem.setFat s.image cluster value location.sector =
        s.image location.sector :=
    fun location inDir => outside _ (Or.inr inDir.fat_lt)
  have first : ∀ owner, owner ≠ .root → owner ≠ .spare →
      firstOf (own' owner) = firstOf (own owner) := by
    intro owner notRoot notSpare
    by_cases isEmpty : own owner = []
    · rw [empty owner notRoot notSpare isEmpty, isEmpty]
    · rcases grows owner notRoot notSpare with ⟨more, equal⟩
      rw [← equal]
      exact firstOf_append isEmpty
  have rootMember : ∀ member ∈ own .root, member ∈ own' .root := by
    intro member isIn
    rw [root]
    exact isIn
  refine inv.moved moved outside accounted ?_ ⟨?_, inv.handles.single, ?_⟩
    rootMember
  · refine inv.directory.congr root dirSame ?_ ?_ ?_
    · intro location _
      exact first _ (by simp) (by simp)
    · intro location held
      refine Nat.le_trans (inv.directory.size location held) ?_
      exact Nat.mul_le_mul_right _
        (grows (.slot location) (by simp) (by simp)).length_le
    · intro location vacant
      exact empty _ (by simp) (by simp) (inv.directory.vacant location vacant)
  · intro other isLive
    have opened := inv.handles.opened other isLive
    have notRoot := ownerOf_ne_root s.image other (s.files other)
    have notSpare := ownerOf_ne_spare s.image other (s.files other)
    refine opened.congr rootMember
      (alike_of_eq (entryOf_congr (dirSame _ opened.holds.inDir)))
      (first _ notRoot notSpare) (grows _ notRoot notSpare) ?_
    intro shown
    exact empty _ (by simp) (by simp) (opened.shown shown)
  · intro other notLive
    exact empty _ (by simp) (by simp) (inv.handles.closed other notLive)

/-- The running function appends the cluster that it holds to a chain. -/
theorem Inv.append {owner : Owner} {front : List Nat} {last cluster : Nat}
    (inv : Inv F live s own) (notRoot : owner ≠ .root) (notSpare : owner ≠ .spare)
    (split : own owner = front ++ [last]) (held : own .spare = [cluster])
    (moved : Moved s s' (Filesystem.setFat s.image last cluster)) :
    Inv F live s' (Function.update (Function.update own .spare []) owner
      (own owner ++ [cluster])) := by
  have bounds := inv.accounted.bounds owner last (by simp [split])
  have accounted := inv.accounted.append F.count_lt notSpare.symm split held
  rw [held] at accounted
  refine inv.grow moved bounds.2 accounted ?_ ?_ ?_
  · simp [notRoot.symm]
  · intro other _ otherSpare
    by_cases equal : other = owner
    · subst equal
      simp
    · simp [equal, otherSpare]
  · intro other _ otherSpare empty
    by_cases equal : other = owner
    · subst equal
      rw [split] at empty
      simp at empty
    · simp [equal, otherSpare, empty]

/-! ## The walk -/

/-- The walk arrived at a cluster of a chain, perhaps one that it appended. -/
structure Reached (F : Format) (live : FileRef → Prop) (s s' : Fs)
    (own own' : Ownership) (owner : Owner) (index cluster : Nat) : Prop where
  inv : Inv F live s' own'
  only : FatOnly F s s'
  others : ∀ other, other ≠ owner → own' other = own other
  chain : own' owner = own owner ∨
    own' owner = own owner ++ [cluster] ∧ index = (own owner).length
  here : (own' owner)[index]? = some cluster

/-- Errors of a walk: a transfer failed, or a cluster was `Missing`. -/
structure ReachFailed (F : Format) (live : FileRef → Prop) (s s' : Fs)
    (own : Ownership) (Missing : Prop) (error : FsError) : Prop where
  inv : Inv F live s' own
  only : FatOnly F s s'
  why : error = .io ∧ ¬ s.Quiet ∨ error = .nospc ∧ Missing ∧ Full F s'.image

theorem Reached.since {s1 : Fs} {owner : Owner} {index cluster : Nat}
    (reached : Reached F live s1 s' own own' owner index cluster)
    (only : FatOnly F s s1) : Reached F live s s' own own' owner index cluster :=
  ⟨reached.inv, only.trans reached.only, reached.others, reached.chain,
    reached.here⟩

theorem ReachFailed.since {s1 : Fs} {Missing Missing' : Prop} {error : FsError}
    (failed : ReachFailed F live s1 s' own Missing error) (only : FatOnly F s s1)
    (missing : Missing → Missing') : ReachFailed F live s s' own Missing' error := by
  refine ⟨failed.inv, only.trans failed.only, ?_⟩
  rcases failed.why with ⟨isIo, loud⟩ | ⟨isFull, isMissing, full⟩
  · exact Or.inl ⟨isIo, only.same.not_quiet loud⟩
  · exact Or.inr ⟨isFull, missing isMissing, full⟩

theorem reachGrow_inv {owner : Owner} {front : List Nat} {last : Nat}
    (inv : Inv F live s own) (spare : own .spare = []) (notRoot : owner ≠ .root)
    (notSpare : owner ≠ .spare) (split : own owner = front ++ [last]) :
    Meets (reachGrow true last) s
      (fun cluster s' => ∃ own', Reached F live s s' own own' owner
        (own owner).length cluster)
      fun error s' => ReachFailed F live s s' own True error := by
  unfold reachGrow
  refine .bind (.require (fun _ => ?_) fun impossible => absurd rfl impossible)
  refine (clusterAlloc_inv inv spare).seq ?_ ?_
  · rintro cluster s1 ⟨inv1, only, free⟩
    have held : Function.update own .spare [cluster] .spare = [cluster] := by simp
    have split1 : Function.update own .spare [cluster] owner = front ++ [last] := by
      rw [Function.update_of_ne notSpare]
      exact split
    have restored : Function.update (Function.update own .spare [cluster])
        .spare [] = own := by
      rw [Function.update_idem, ← spare]
      exact Function.update_eq_self _ _
    have bounds := inv.accounted.bounds owner last (by simp [split])
    refine .bind (.attempt ((fatSet_spec inv1.geometry.fatFits inv1.coherent bounds.1
      (by rw [inv1.sb]; exact bounds.2) cluster).mono ?_ ?_))
    · intro _ s2 moved
      have inv2 := inv1.append notRoot notSpare split1 held moved
      rw [restored, Function.update_of_ne notSpare] at inv2
      have outside := F.setFat_outside s1.image cluster bounds.2
      refine .pure ⟨_, inv2, only.trans (.ofMoved moved outside), ?_,
        Or.inr ⟨by simp, rfl⟩, by simp⟩
      intro other different
      exact Function.update_of_ne different _ _
    · rintro error s2 ⟨isIo, loud, moved⟩
      have inv2 := inv1.unmoved moved
      have only2 : FatOnly F s s2 := only.trans (.ofUnmoved moved)
      have loud0 := only.same.not_quiet loud
      refine .bind (.attempt ((clusterFree_inv inv2 held).mono ?_ ?_))
      · rintro _ s3 ⟨inv3, only3⟩
        rw [restored] at inv3
        exact .throw ⟨inv3, only2.trans only3, Or.inl ⟨isIo, loud0⟩⟩
      · rintro _ s3 ⟨_, loud3, inv3, only3⟩
        have dropped := inv3.dropSpare fun quiet =>
          absurd (only3.same.quiet_before quiet) loud3
        rw [restored] at dropped
        exact .throw ⟨dropped, only2.trans only3, Or.inl ⟨isIo, loud0⟩⟩
  · rintro error s1 ⟨inv1, only, image, why⟩
    refine ⟨inv1, only, why.imp_right ?_⟩
    rintro ⟨isFull, full⟩
    rw [image]
    exact ⟨isFull, trivial, full⟩

/-- From the cluster with number `index` of a chain, `steps` clusters on. -/
theorem reachLoop_inv {owner : Owner} {allocate : Bool} (notRoot : owner ≠ .root)
    (notSpare : owner ≠ .spare) (steps : Nat) :
    ∀ {s : Fs} {own : Ownership} {index cluster : Nat}, Inv F live s own →
    own .spare = [] → (own owner)[index]? = some cluster →
    (index + steps < (own owner).length ∨
      allocate = true ∧ index + steps = (own owner).length) →
    Meets (reachLoop allocate steps cluster) s
      (fun reached s' => ∃ own', Reached F live s s' own own' owner
        (index + steps) reached)
      fun error s' => ReachFailed F live s s' own
        ((own owner).length ≤ index + steps) error := by
  induction steps with
  | zero =>
      intro s own index cluster inv _ here _
      exact .pure ⟨own, inv, .refl s, fun _ _ => rfl, Or.inl rfl, here⟩
  | succ steps induction =>
      intro s own index cluster inv spare here enough
      have inside := (List.getElem?_eq_some_iff.mp here).1
      have split : own owner =
          (own owner).take index ++ cluster :: (own owner).drop (index + 1) := by
        have value := (List.getElem?_eq_some_iff.mp here).2
        rw [← value, List.getElem_cons_drop, List.take_append_drop]
      unfold reachLoop
      refine (chainNext_inv inv split).seq ?_ ?_
      · rintro next s1 ⟨inv1, only, image, isNext⟩
        by_cases atEnd : index + 1 = (own owner).length
        · -- The chain ends here, so this is the last step and appends.
          have last : steps = 0 := by omega
          subst last
          have allocates : allocate = true := by
            rcases enough with less | exact
            · omega
            · exact exact.1
          have isLast : (own owner).drop (index + 1) = [] := by
            rw [List.drop_eq_nil_iff]
            omega
          rw [isLast] at split isNext
          rw [isNext, firstOf_nil, if_pos rfl, allocates]
          refine (reachGrow_inv inv1 spare notRoot notSpare split).seq ?_ ?_
          · rintro grown s2 ⟨own', reached⟩
            rw [← atEnd] at reached
            exact .pure ⟨own', reached.since only⟩
          · exact fun error s2 failed => failed.since only fun _ => by omega
        · have more : index + 1 < (own owner).length := by omega
          have hereNext : (own owner)[index + 1]? = some next := by
            rw [isNext, List.drop_eq_getElem_cons more, firstOf_cons]
            exact List.getElem?_eq_getElem more
          have positive := (inv.accounted.bounds owner next
            (List.mem_of_getElem? hereNext)).1
          have nonzero : next ≠ 0 := by omega
          rw [if_neg nonzero]
          have enough' := enough.imp
            (show _ → index + 1 + steps < (own owner).length by omega)
            (And.imp_right (show _ → index + 1 + steps = (own owner).length by
              omega))
          refine .bind (.pure ((induction inv1 spare hereNext enough').mono ?_ ?_))
          · rintro reached s2 ⟨own', done⟩
            have shift : index + 1 + steps = index + (steps + 1) := by omega
            rw [shift] at done
            exact ⟨own', done.since only⟩
          · exact fun error s2 failed => failed.since only fun missing => by omega
      · rintro error s1 ⟨isIo, loud, inv1, only, _⟩
        exact ⟨inv1, only, Or.inl ⟨isIo, loud⟩⟩

/-! ## Changes of a handle -/

/-- One open file changes, in its slot, its handle or its chain. -/
theorem Handles.replace {image image' : Image} {files files' : FileRef → FsFile}
    (before : Handles F live image own files) (isLive : live file)
    (root : ∀ cluster ∈ own .root, cluster ∈ own' .root)
    (entries : ∀ location, location ≠ (files file).location →
      F.InDir (own .root) location →
      entryOf image' location = entryOf image location)
    (slots : ∀ location, location ≠ (files file).location →
      own' (.slot location) = own (.slot location))
    (handles : ∀ other, other ≠ file → own' (.handle other) = own (.handle other))
    (others : ∀ other, other ≠ file → files' other = files other)
    (location : (files' file).location = (files file).location)
    (opened : Open F image' own' file (files' file)) :
    Handles F live image' own' files' where
  opened other otherLive := by
    by_cases equal : other = file
    · subst equal
      exact opened
    · have apart : (files other).location ≠ (files file).location :=
        fun same => equal (before.single other file otherLive isLive same)
      have otherOpen := before.opened other otherLive
      have chain : own' (ownerOf image other (files other)) =
          own (ownerOf image other (files other)) := by
        rcases ownerOf_cases image other (files other) with ⟨is, _⟩ | ⟨is, _⟩
        · rw [is, slots _ apart]
        · rw [is, handles other equal]
      rw [others other equal]
      refine otherOpen.congr root
        (alike_of_eq (entries _ apart otherOpen.holds.inDir)) (by rw [chain])
        (by simp only [chain, List.prefix_rfl]) ?_
      intro shown
      rw [handles other equal]
      exact otherOpen.shown shown
  single one two oneLive twoLive same := by
    have places : ∀ other, (files' other).location = (files other).location := by
      intro other
      by_cases equal : other = file
      · subst equal
        exact location
      · rw [others other equal]
    rw [places, places] at same
    exact before.single one two oneLive twoLive same
  closed other notLive := by
    have different : other ≠ file := by
      rintro rfl
      exact notLive isLive
    rw [handles other different]
    exact before.closed other notLive

/-- The size and the cursor of an open file can change within its chain. -/
theorem Inv.setHandle {change : FsFile → FsFile} (inv : Inv F live s own)
    (isLive : live file)
    (location : (change (s.files file)).location = (s.files file).location)
    (first : (change (s.files file)).first = (s.files file).first)
    (size : (change (s.files file)).size ≤
      (chainOf s own file).length * F.clusterBytes)
    (bounded : (change (s.files file)).size < wordSize)
    (cursor : (change (s.files file)).cursorCluster = 0 ∨
      (chainOf s own file)[(change (s.files file)).cursorIndex]? =
        some (change (s.files file)).cursorCluster) :
    Inv F live (s.setFile file change) own := by
  have opened := inv.handles.opened file isLive
  have owner : ownerOf s.image file (change (s.files file)) =
      ownerOf s.image file (s.files file) := by
    simp only [ownerOf, location, first]
  refine inv.setFile (inv.handles.replace isLive (fun _ member => member)
    (fun _ _ _ => rfl) (fun _ _ => rfl) (fun _ _ => rfl)
    (fun other different => s.setFile_files_of_ne _ different) ?_ ?_)
  · rw [Fs.setFile_files_self, location]
  · rw [Fs.setFile_files_self]
    constructor
    case holds => rw [location]; exact opened.holds
    case first => rw [owner, first]; exact opened.first
    case shown => rw [owner, location]; exact opened.shown
    case size => rw [owner]; exact size
    case bounded => exact bounded
    case cursor => rw [owner]; exact cursor

/-- An empty open file has no chain, neither in its slot nor to itself. -/
theorem Open.unshown {handle : FsFile} {exact : Prop} {image : Image}
    (opened : Open F image own file handle)
    (accounted : Accounted exact F.sb image own) (isEmpty : handle.first = 0) :
    own (.handle file) = [] := by
  rcases ownerOf_cases image file handle with ⟨owner, _⟩ | ⟨owner, _⟩
  · exact opened.shown owner
  · have first := opened.first
    rw [owner, isEmpty] at first
    exact accounted.eq_nil_of_firstOf first

/-- A handle that starts with the given cluster. -/
def FsFile.startAt (handle : FsFile) (cluster : Nat) : FsFile :=
  { handle with first := cluster, cursorCluster := cluster, cursorIndex := 0 }

/-- The first cluster of a file belongs to its handle until the directory
shows it. -/
theorem Inv.adopt {cluster : Nat} (inv : Inv F live s own) (isLive : live file)
    (isEmpty : (s.files file).first = 0) (held : own .spare = [cluster]) :
    Inv F live (s.setFile file (·.startAt cluster))
        (Function.update (Function.update own .spare []) (.handle file) [cluster]) ∧
      ownerOf s.image file ((s.files file).startAt cluster) = .handle file := by
  have opened := inv.handles.opened file isLive
  have empty := opened.unshown inv.accounted isEmpty
  have accounted := inv.accounted.move
    (show Owner.spare ≠ .handle file by simp) fun _ => empty
  rw [held] at accounted
  generalize owned : Function.update (Function.update own .spare [])
    (.handle file) [cluster] = own' at accounted
  have root : own' .root = own .root := by simp [← owned]
  have slots : ∀ location, own' (.slot location) = own (.slot location) := by
    simp [← owned]
  have handles : ∀ other, other ≠ file →
      own' (.handle other) = own (.handle other) := by
    intro other different
    simp [← owned, different]
  have mine : own' (.handle file) = [cluster] := by simp [← owned]
  have owner : ownerOf s.image file ((s.files file).startAt cluster) =
      .handle file := by
    apply if_neg
    -- Otherwise the cluster would be in the chain of the slot as well.
    intro equal
    have first := inv.directory.first _ opened.holds
    have same : firstOf (own .spare) =
        firstOf (own (.slot (s.files file).location)) := by
      rw [first, held]
      exact equal
    have owners := inv.accounted.owner_eq (by simp [held]) same
    cases owners
  refine ⟨⟨inv.sb, inv.shift, inv.total, inv.mounted, ⟨inv.coherent.sector,
    inv.coherent.clean, inv.coherent.dirty⟩, inv.label, accounted,
    inv.directory.congr_slots root slots fun _ _ => rfl, ?_,
    by rw [root]; exact inv.disk, inv.history⟩, owner⟩
  refine inv.handles.replace isLive (fun _ member => by rw [root]; exact member)
    (fun _ _ _ => rfl) (fun location _ => slots location) handles
    (fun other different => s.setFile_files_of_ne _ different)
    (by rw [Fs.setFile_files_self]; rfl) ?_
  rw [Fs.setFile_files_self]
  constructor
  case holds =>
    refine ⟨?_, opened.holds.used⟩
    rw [root]
    exact opened.holds.inDir
  case first =>
    change firstOf (own' (ownerOf s.image file _)) = _
    rw [owner, mine]
    rfl
  case shown =>
    intro shown
    have impossible := owner.symm.trans shown
    cases impossible
  case size =>
    -- A file without clusters is empty.
    have size := opened.size
    have none : own (ownerOf s.image file (s.files file)) = [] := by
      apply inv.accounted.eq_nil_of_firstOf
      rw [opened.first, isEmpty]
    rw [none, List.length_nil, Nat.zero_mul] at size
    exact Nat.le_trans size (Nat.zero_le _)
  case bounded => exact opened.bounded
  case cursor =>
    change _ ∨ (own' (ownerOf s.image file _))[_]? = _
    rw [owner, mine]
    exact Or.inr rfl

/-! ## Work on an open file -/

/-- The function works on one open file: its chain may have grown and its data
may have changed, but not its size or its directory entry. -/
structure Worked (F : Format) (live : FileRef → Prop) (file : FileRef)
    (s s' : Fs) (own own' : Ownership) : Prop where
  inv : Inv F live s' own'
  same : Same s s'
  iters : s'.iters = s.iters
  files : ∀ other, other ≠ file → s'.files other = s.files other
  location : (s'.files file).location = (s.files file).location
  size : (s'.files file).size = (s.files file).size
  first : (s'.files file).first = (s.files file).first ∨
    (s.files file).first = 0
  root : own' .root = own .root
  spare : own' .spare = own .spare
  handles : ∀ other, other ≠ file → own' (.handle other) = own (.handle other)
  entries : ∀ location, F.InDir (own .root) location →
    s'.image location.sector = s.image location.sector
  grows : chainOf s own file <+: chainOf s' own' file
  kept : ∀ location, location ≠ (s.files file).location →
    KeptAt F s.image s'.image own own' location

theorem Worked.refl (inv : Inv F live s own) (file : FileRef) :
    Worked F live file s s own own :=
  ⟨inv, .refl s, rfl, fun _ _ => rfl, rfl, rfl, Or.inl rfl, rfl, rfl,
    fun _ _ => rfl, fun _ _ => rfl, List.prefix_rfl,
    fun location _ => .refl F s.image own location⟩

theorem Worked.trans (first : Worked F live file s s' own own')
    (second : Worked F live file s' s'' own' own'') :
    Worked F live file s s'' own own'' where
  inv := second.inv
  same := first.same.trans second.same
  iters := second.iters.trans first.iters
  files other different :=
    (second.files other different).trans (first.files other different)
  location := second.location.trans first.location
  size := second.size.trans first.size
  first := by
    rcases first.first with same | empty
    · rw [← same]
      exact second.first
    · exact Or.inr empty
  root := second.root.trans first.root
  spare := second.spare.trans first.spare
  handles other different :=
    (second.handles other different).trans (first.handles other different)
  entries location inDir :=
    (second.entries location (first.root ▸ inDir)).trans
      (first.entries location inDir)
  grows := first.grows.trans second.grows
  kept location different :=
    (first.kept location different).trans
      (second.kept location (first.location ▸ different))

/-- The cursor of the open file is at a cluster of its chain. -/
structure Positioned (F : Format) (live : FileRef → Prop) (file : FileRef)
    (s s' : Fs) (own own' : Ownership) (index : Nat) : Prop where
  worked : Worked F live file s s' own own'
  here : (chainOf s' own' file)[index]? = some (s'.files file).cursorCluster
  image_eq : ∀ sector, F.sb.fatSectors < sector → s'.image sector = s.image sector
  chain : chainOf s' own' file = chainOf s own file ∨
    index = (chainOf s own file).length
  length : (chainOf s' own' file).length ≤ max (chainOf s own file).length (index + 1)

/-- The owner of the chain is the same when the slots are. -/
theorem FatOnly.ownerOf_eq (only : FatOnly F s s')
    (opened : Open F s.image own file (s.files file)) :
    ownerOf s'.image file (s'.files file) = ownerOf s.image file (s.files file) := by
  rw [only.files]
  apply ownerOf_congr
  exact alike_of_eq (entryOf_congr
    (only.image_eq _ (Or.inr opened.holds.inDir.fat_lt)))

/-- A walk through the chain of an open file, before the cursor is set. -/
theorem Reached.worked {index cluster : Nat}
    (opened : Open F s.image own file (s.files file))
    (reached : Reached F live s s' own own'
      (ownerOf s.image file (s.files file)) index cluster) :
    Worked F live file s s' own own' ∧
      chainOf s' own' file = own' (ownerOf s.image file (s.files file)) := by
  have owner := reached.only.ownerOf_eq opened
  have chain : chainOf s' own' file =
      own' (ownerOf s.image file (s.files file)) := by
    unfold chainOf
    rw [owner]
  have notRoot := ownerOf_ne_root s.image file (s.files file)
  have notSpare := ownerOf_ne_spare s.image file (s.files file)
  have root := reached.others .root notRoot.symm
  refine ⟨⟨reached.inv, reached.only.same, reached.only.iters, ?_, ?_, ?_, ?_, root,
    reached.others .spare notSpare.symm, ?_, ?_, ?_, ?_⟩, chain⟩
  · exact fun other _ => by rw [reached.only.files]
  · rw [reached.only.files]
  · rw [reached.only.files]
  · rw [reached.only.files]
    exact Or.inl rfl
  · intro other different
    apply reached.others
    rcases ownerOf_cases s.image file (s.files file) with ⟨is, _⟩ | ⟨is, _⟩
    · simp [is]
    · simp [is, different]
  · exact fun location inDir => reached.only.image_eq _ (Or.inr inDir.fat_lt)
  · rw [chain]
    rcases reached.chain with same | ⟨grown, _⟩
    · rw [same]
      exact List.prefix_rfl
    · rw [grown]
      exact List.prefix_append _ _
  · intro location different
    refine .ofFatOnly reached.only root (reached.others _ ?_)
    rcases ownerOf_cases s.image file (s.files file) with ⟨is, _⟩ | ⟨is, _⟩
    · simp [is, different]
    · simp [is]

/-- Setting the cursor to a cluster of the chain. -/
theorem Worked.setCursor {index cluster : Nat} (isLive : live file)
    (worked : Worked F live file s s' own own')
    (here : (chainOf s' own' file)[index]? = some cluster) :
    Worked F live file s (s'.setFile file fun handle => { handle with
      cursorCluster := cluster, cursorIndex := index }) own own' where
  inv := by
    have opened := worked.inv.handles.opened file isLive
    exact worked.inv.setHandle isLive rfl rfl opened.size opened.bounded
      (Or.inr here)
  same := ⟨worked.same.sb, worked.same.mounted, worked.same.diskSectors,
    worked.same.clusterShift, worked.same.total, worked.same.fails, worked.same.grows⟩
  iters := worked.iters
  files other different :=
    (s'.setFile_files_of_ne _ different).trans (worked.files other different)
  location := by
    rw [Fs.setFile_files_self]
    exact worked.location
  size := by
    rw [Fs.setFile_files_self]
    exact worked.size
  first := by
    rw [Fs.setFile_files_self]
    exact worked.first
  root := worked.root
  spare := worked.spare
  handles := worked.handles
  entries := worked.entries
  grows := by
    have same : chainOf (s'.setFile file fun handle => { handle with
        cursorCluster := cluster, cursorIndex := index }) own' file =
        chainOf s' own' file := by
      simp only [chainOf, Fs.setFile_files_self]
      rfl
    rw [same]
    exact worked.grows
  kept := worked.kept

/-- Where the walk starts is in the chain. -/
theorem Open.walkStart {handle : FsFile} {image : Image}
    (opened : Open F image own file handle) (nonempty : handle.first ≠ 0)
    (index : Nat) :
    (handle.walkStart index).2 ≤ index ∧
      (own (ownerOf image file handle))[(handle.walkStart index).2]? =
        some (handle.walkStart index).1 := by
  unfold FsFile.walkStart
  split
  · rename_i usable
    exact ⟨usable.2, opened.cursor.resolve_left usable.1⟩
  · refine ⟨Nat.zero_le _, ?_⟩
    have first := opened.first
    cases cells : own (ownerOf image file handle) with
    | nil =>
        rw [cells] at first
        exact absurd first.symm nonempty
    | cons head rest =>
        rw [cells] at first
        exact congrArg some first

/-- The part of `file_reach` for a file that has clusters. -/
theorem reachFrom_spec {index : Nat} {allocate : Bool} (inv : Inv F live s own)
    (spare : own .spare = []) (isLive : live file)
    (nonempty : (s.files file).first ≠ 0)
    (enough : index < (chainOf s own file).length ∨
      allocate = true ∧ index = (chainOf s own file).length) :
    Meets (do
        let s ← get
        let start := (s.files file).walkStart index
        let cluster ← reachLoop allocate (index - start.2) start.1
        modify fun s => s.setFile file fun handle =>
          { handle with cursorCluster := cluster, cursorIndex := index } :
        FsM Unit) s
      (fun _ s' => ∃ own', Positioned F live file s s' own own' index)
      fun error s' => ReachFailed F live s s' own
        ((chainOf s own file).length ≤ index) error := by
  have opened := inv.handles.opened file isLive
  refine .bind (.get ?_)
  dsimp only
  rcases opened.walkStart nonempty index with ⟨before, start⟩
  generalize (s.files file).walkStart index = from' at before start
  have arrives : from'.2 + (index - from'.2) = index := by omega
  refine (reachLoop_inv (ownerOf_ne_root s.image file (s.files file))
    (ownerOf_ne_spare s.image file (s.files file)) (index - from'.2) inv spare
    start (by rw [arrives]; exact enough)).seq ?_ fun _ _ failed =>
      failed.since (.refl s) fun missing => by rw [← arrives]; exact missing
  rintro cluster s1 ⟨own', reached⟩
  rw [arrives] at reached
  rcases reached.worked opened with ⟨worked, chain⟩
  have here : (chainOf s1 own' file)[index]? = some cluster := by
    rw [chain]
    exact reached.here
  have same : chainOf (s1.setFile file fun handle => { handle with
      cursorCluster := cluster, cursorIndex := index }) own' file =
      chainOf s1 own' file := by
    simp only [chainOf, Fs.setFile_files_self]
    rfl
  refine .modify ⟨own', worked.setCursor isLive here, ?_, ?_, ?_, ?_⟩
  · simp only [chainOf, Fs.setFile_files_self]
    exact here
  · exact fun sector outside => reached.only.image_eq sector (Or.inr outside)
  · rw [same, chain]
    exact reached.chain.imp_right And.right
  · rw [same, chain]
    rcases reached.chain with unchanged | ⟨grown, atEnd⟩
    · rw [unchanged]
      exact Nat.le_max_left _ _
    · rw [grown, List.length_append, List.length_singleton, atEnd]
      exact Nat.le_max_right _ _

/-- An empty file got its first cluster. -/
theorem Inv.startAt_positioned {s1 : Fs} {cluster : Nat}
    (before : Inv F live s own) (isLive : live file)
    (isEmpty : (s.files file).first = 0) (empty : own .spare = [])
    (inv1 : Inv F live s1 (Function.update own .spare [cluster]))
    (only : FatOnly F s s1) :
    ∃ own', Positioned F live file s (s1.setFile file (·.startAt cluster)) own
      own' 0 := by
  have opened := before.handles.opened file isLive
  have isEmpty1 : (s1.files file).first = 0 := by
    rw [only.files]
    exact isEmpty
  rcases inv1.adopt isLive isEmpty1 (Function.update_self _ _ _) with
    ⟨inv2, owner⟩
  have restored : Function.update (Function.update own .spare [cluster])
      .spare [] = own := by
    rw [Function.update_idem, ← empty]
    exact Function.update_eq_self _ _
  rw [restored] at inv2
  have chain : chainOf (s1.setFile file (·.startAt cluster))
      (Function.update own (.handle file) [cluster]) file = [cluster] := by
    unfold chainOf
    rw [Fs.setFile_files_self]
    change Function.update own (.handle file) [cluster]
      (ownerOf s1.image file _) = _
    rw [owner]
    simp
  have none : chainOf s own file = [] := by
    apply before.accounted.eq_nil_of_firstOf
    rw [opened.first, isEmpty]
  refine ⟨_, ⟨inv2, ⟨only.same.sb, only.same.mounted, only.same.diskSectors,
    only.same.clusterShift, only.same.total, only.same.fails, only.same.grows⟩,
    only.iters, ?_, ?_,
    ?_, Or.inr isEmpty, by simp, by simp, ?_, ?_, ?_, ?_⟩, ?_, ?_, ?_, ?_⟩
  · intro other different
    rw [Fs.setFile_files_of_ne _ _ different, only.files]
  · rw [Fs.setFile_files_self, only.files]
    rfl
  · rw [Fs.setFile_files_self, only.files]
    rfl
  · intro other different
    simp [different]
  · exact fun location inDir => only.image_eq _ (Or.inr inDir.fat_lt)
  · rw [none]
    exact List.nil_prefix
  · intro location different
    exact .ofSectors (by simp) (by simp) fun sector outside =>
      only.image_eq sector (Or.inr outside)
  · rw [chain, Fs.setFile_files_self]
    rfl
  · exact fun sector outside => only.image_eq sector (Or.inr outside)
  · rw [none]
    exact Or.inr rfl
  · rw [chain]
    exact Nat.le_max_right _ _

theorem fileReach_spec {index : Nat} {allocate : Bool} (inv : Inv F live s own)
    (spare : own .spare = []) (isLive : live file)
    (enough : index < (chainOf s own file).length ∨
      allocate = true ∧ index = (chainOf s own file).length) :
    Meets (fileReach file index allocate) s
      (fun _ s' => ∃ own', Positioned F live file s s' own own' index)
      fun error s' => ReachFailed F live s s' own
        ((chainOf s own file).length ≤ index) error := by
  have opened := inv.handles.opened file isLive
  unfold fileReach reachFirst
  by_cases isEmpty : (s.files file).first = 0
  · have none : chainOf s own file = [] := by
      apply inv.accounted.eq_nil_of_firstOf
      rw [opened.first, isEmpty]
    rw [none] at enough
    rcases enough with impossible | ⟨rfl, rfl⟩
    · exact absurd impossible (Nat.not_lt_zero index)
    refine .bind (.bind (.get ?_))
    rw [if_pos isEmpty]
    refine .bind (.require (fun _ => ?_) fun impossible => absurd rfl impossible)
    refine (clusterAlloc_inv inv spare).seq ?_ ?_
    · rintro cluster s1 ⟨inv1, only, _⟩
      have positive := (inv1.accounted.bounds .spare cluster (by simp)).1
      have nonzero : cluster ≠ 0 := by omega
      have positioned := inv.startAt_positioned isLive isEmpty spare inv1 only
      refine .modify (.bind (.get ?_))
      have start : ((s1.setFile file (·.startAt cluster)).files file).walkStart 0 =
          (cluster, 0) := by
        rw [Fs.setFile_files_self]
        simp [FsFile.walkStart, FsFile.startAt, nonzero]
      have same : ((s1.setFile file (·.startAt cluster)).setFile file
          fun handle => { handle with
            cursorCluster := cluster, cursorIndex := List.length ([] : List Nat) }) =
          s1.setFile file (·.startAt cluster) := by
        simp [Fs.setFile, FsFile.startAt]
      change Meets (do
        let start := ((s1.setFile file (·.startAt cluster)).files file).walkStart 0
        let cluster ← reachLoop true (0 - start.2) start.1
        modify fun s => s.setFile file fun handle => { handle with
          cursorCluster := cluster, cursorIndex := List.length ([] : List Nat) })
        (s1.setFile file (·.startAt cluster)) _ _
      rw [start]
      refine .bind (.pure (.modify ?_))
      rw [same]
      exact positioned
    · rintro error s1 ⟨inv1, only, image, why⟩
      refine ⟨inv1, only, why.imp_right ?_⟩
      rintro ⟨isFull, full⟩
      rw [image, none]
      exact ⟨isFull, Nat.le_refl _, full⟩
  · refine .bind (.bind (.get ?_))
    rw [if_neg isEmpty]
    exact .pure (reachFrom_spec inv spare isLive isEmpty enough)

end Reach

end Katela.Filesystem
