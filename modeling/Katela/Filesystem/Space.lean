import Mathlib.Algebra.BigOperators.Group.List.Basic
import Katela.Filesystem.Accounting

/-! # The room that a file takes

`fs_write_all` takes the clusters that the contents need. If the file is new it also
takes a slot, and one more cluster if the directory has no vacant slot. -/

namespace Katela.Filesystem

/-! ## Counting slots and clusters -/

section Counting

variable {F : Format} {image image' : Image} {own own' : Ownership} {location : Location}

/-- One member of a list has another weight than before. -/
theorem sum_map_replace {α : Type} [DecidableEq α] {members : List α} {weight weight' : α → Nat}
    {changed : α} (nodup : members.Nodup) (member : changed ∈ members)
    (same : ∀ other, other ≠ changed → weight' other = weight other) :
    (members.map weight').sum + weight changed =
      (members.map weight).sum + weight' changed := by
  have rest : (members.erase changed).map weight' = (members.erase changed).map weight := by
    apply List.map_congr_left
    intro other inRest
    exact same other (nodup.mem_erase_iff.mp inRest).1
  rw [← List.sum_map_erase weight' member, ← List.sum_map_erase weight member, rest]
  omega

/-- The slots of the directory that no file uses. -/
def vacantSlots (F : Format) (image : Image) (root : List Nat) : Nat :=
  (F.slots root).countP fun location => (entryOf image location).flags % 2 = 0

theorem flags_even_iff (image : Image) (location : Location) :
    (entryOf image location).flags % 2 = 0 ↔ ¬ Used image location := by
  unfold Used
  omega

theorem vacantSlots_eq_zero_iff (root : List Nat) :
    vacantSlots F image root = 0 ↔ NoSlot F image root := by
  unfold vacantSlots NoSlot
  simp only [List.countP_eq_zero, F.mem_slots, decide_eq_true_eq, flags_even_iff, not_not]

theorem Format.slots_append (F : Format) (front back : List Nat) :
    F.slots (front ++ back) = F.slots front ++ F.slots back :=
  List.flatMap_append

/-- The slots of one cluster. -/
def Format.clusterSlots (F : Format) : Nat := slotsPerSector * 2 ^ F.shift

theorem Format.length_slots_singleton (F : Format) (cluster : Nat) :
    (F.slots [cluster]).length = F.clusterSlots := by
  simp only [slots, clusterSlots, List.flatMap_cons, List.flatMap_nil, List.append_nil,
    List.length_flatMap, List.length_map, List.length_range, List.map_const',
    List.sum_replicate_nat]
  exact Nat.mul_comm _ _

/-- One file was written, in a slot that it had or that it got. -/
structure Rewritten (F : Format) (image image' : Image) (own own' : Ownership)
    (location : Location) : Prop where
  kept : ∀ other, other ≠ location → KeptAt F image image' own own' other
  holds : Holds F image' (own' .root) location
  root : Holds F image (own .root) location ∧ own' .root = own .root ∨
    ¬ Holds F image (own .root) location ∧ Extends F image image' (own .root) (own' .root)

theorem Volume.nodup_slots (volume : Volume F image own) :
    (F.slots (own .root)).Nodup :=
  F.nodup_slots (Linked.nodup (volume.accounted.chains.linked .root))
    fun cluster member => (volume.accounted.bounds .root cluster member).1

namespace Rewritten

variable (rewritten : Rewritten F image image' own own' location)

include rewritten

/-- In a directory that did not grow another slot is used as before. -/
theorem used_iff (root : own' .root = own .root) {other : Location}
    (inDir : F.InDir (own .root) other) (different : other ≠ location) :
    Used image' other ↔ Used image other := by
  have holds := (rewritten.kept other different).holds
  rw [root] at holds
  constructor
  · exact fun used => (holds.mp ⟨inDir, used⟩).used
  · exact fun used => (holds.mpr ⟨inDir, used⟩).used

/-- Only the chain of the file and the directory took clusters. -/
theorem clusters (before : Volume F image own) (after : Volume F image' own') :
    (takenClusters F (own' .root) fun other => own' (.slot other)).length +
        (own (.slot location)).length + (own .root).length =
      (takenClusters F (own .root) fun other => own (.slot other)).length +
        (own' (.slot location)).length + (own' .root).length := by
  have nodup := after.nodup_slots
  have replaced := @sum_map_replace _ _ _ (fun other => (own (.slot other)).length)
    (fun other => (own' (.slot other)).length) location nodup
    ((F.mem_slots _ _).mpr rewritten.holds.inDir) fun other different => by
      rw [(rewritten.kept other different).chain]
  rw [length_takenClusters, length_takenClusters]
  rcases rewritten.root with ⟨_, same⟩ | ⟨_, same | ⟨⟨cluster, grown, _⟩, _⟩⟩
  · rw [same] at replaced ⊢
    omega
  · rw [same] at replaced ⊢
    omega
  · -- The new cluster of the directory had no slots with files before.
    rw [grown, F.slots_append] at nodup
    have none : ((F.slots [cluster]).map fun other => (own (.slot other)).length).sum = 0 := by
      apply List.sum_eq_zero
      intro length member
      rcases List.mem_map.mp member with ⟨other, inNew, rfl⟩
      have vacant : ¬ Holds F image (own .root) other := by
        intro held
        exact (List.disjoint_of_nodup_append nodup) ((F.mem_slots _ _).mpr held.inDir) inNew
      rw [before.directory.vacant other vacant]
      rfl
    rw [grown, F.slots_append, List.map_append, List.map_append, List.sum_append,
      List.sum_append, none] at replaced
    rw [grown, F.slots_append, List.map_append, List.sum_append]
    omega

/-- A new file takes a vacant slot. -/
theorem vacant_of_same (nodup : (F.slots (own .root)).Nodup)
    (fresh : ¬ Holds F image (own .root) location) (root : own' .root = own .root) :
    vacantSlots F image' (own' .root) + 1 = vacantSlots F image (own .root) := by
  have inDir := rewritten.holds.inDir
  rw [root] at inDir
  have unused : ¬ Used image location := fun used => fresh ⟨inDir, used⟩
  have perm := List.perm_cons_erase ((F.mem_slots _ _).mpr inDir)
  have split : ∀ image, vacantSlots F image (own .root) =
      ((F.slots (own .root)).erase location).countP
          (fun other => (entryOf image other).flags % 2 = 0) +
        if (entryOf image location).flags % 2 = 0 then 1 else 0 := by
    intro image
    unfold vacantSlots
    rw [perm.countP_eq, List.countP_cons]
    simp only [decide_eq_true_eq]
  have rest : ((F.slots (own .root)).erase location).countP
      (fun other => (entryOf image' other).flags % 2 = 0) =
      ((F.slots (own .root)).erase location).countP
        (fun other => (entryOf image other).flags % 2 = 0) := by
    apply List.countP_congr
    intro other member
    have inRest := nodup.mem_erase_iff.mp member
    simp only [decide_eq_true_eq, flags_even_iff]
    exact not_congr (rewritten.used_iff root ((F.mem_slots _ _).mp inRest.2) inRest.1)
  rw [root, split image', split image, rest, if_pos ((flags_even_iff _ _).mpr unused),
    if_neg fun even => (flags_even_iff _ _).mp even rewritten.holds.used]

/-- A new file takes the first slot of a new cluster of a directory without vacant
slots. -/
theorem vacant_of_grown (after : Volume F image' own') {cluster : Nat}
    (grown : own' .root = own .root ++ [cluster])
    (only : ∀ other, F.InDir [cluster] other → Used image' other →
      other = ⟨F.sectorOf cluster, 0⟩)
    (fresh : ¬ Holds F image (own .root) location) (noSlot : NoSlot F image (own .root)) :
    vacantSlots F image (own .root) = 0 ∧
      vacantSlots F image' (own' .root) + 1 = F.clusterSlots := by
  have nodup := after.nodup_slots
  rw [grown, F.slots_append] at nodup
  have inDir := rewritten.holds.inDir
  rw [← F.mem_slots, grown, F.slots_append, List.mem_append] at inDir
  have inNew : location ∈ F.slots [cluster] := by
    refine inDir.resolve_left fun inOld => fresh ?_
    have inDir := (F.mem_slots _ _).mp inOld
    exact ⟨inDir, noSlot location inDir⟩
  have place := only location ((F.mem_slots _ _).mp inNew) rewritten.holds.used
  have old : vacantSlots F image' (own .root) = 0 := by
    rw [vacantSlots_eq_zero_iff]
    intro other inOld
    have different : other ≠ location := by
      intro equal
      rw [equal] at inOld
      exact (List.disjoint_of_nodup_append nodup) ((F.mem_slots _ _).mpr inOld) inNew
    exact ((rewritten.kept other different).holds.mpr ⟨inOld, noSlot other inOld⟩).used
  refine ⟨(vacantSlots_eq_zero_iff _).mpr noSlot, ?_⟩
  have perm := List.perm_cons_erase inNew
  have rest : ((F.slots [cluster]).erase location).countP
      (fun other => (entryOf image' other).flags % 2 = 0) =
      ((F.slots [cluster]).erase location).length := by
    rw [List.countP_eq_length]
    intro other member
    have inRest := (List.nodup_append.mp nodup).2.1.mem_erase_iff.mp member
    simp only [decide_eq_true_eq, flags_even_iff]
    intro used
    exact inRest.1 ((only other ((F.mem_slots _ _).mp inRest.2) used).trans place.symm)
  have split : vacantSlots F image' (own' .root) = vacantSlots F image' (own .root) +
      (F.slots [cluster]).countP fun other => (entryOf image' other).flags % 2 = 0 := by
    unfold vacantSlots
    rw [grown, F.slots_append, List.countP_append]
  have used : ¬ (entryOf image' location).flags % 2 = 0 :=
    fun even => (flags_even_iff _ _).mp even rewritten.holds.used
  rw [split, old, perm.countP_eq, List.countP_cons, rest, ← F.length_slots_singleton cluster,
    perm.length_eq, List.length_cons]
  simp only [decide_eq_true_eq, if_neg used]
  omega

end Rewritten

/-! ## The chains are those of the disk -/

theorem Accounted.eq_of_firstOf {exact exact' : Prop} {sb : SuperBlock} {owner : Owner}
    (first : Accounted exact sb image own) (second : Accounted exact' sb image own')
    (same : firstOf (own' owner) = firstOf (own owner)) : own' owner = own owner := by
  cases cells : own owner with
  | nil =>
      rw [cells, firstOf_nil] at same
      exact second.eq_nil_of_firstOf same
  | cons head rest =>
      have bounds := first.bounds owner head (by simp [cells])
      have linked := first.chains.linked owner
      have linked' := second.chains.linked owner
      cases cells' : own' owner with
      | nil =>
          rw [cells, cells', firstOf_nil, firstOf_cons] at same
          omega
      | cons head' rest' =>
          rw [cells, cells', firstOf_cons, firstOf_cons] at same
          subst same
          rw [cells, List.head?_cons] at linked
          rw [cells', List.head?_cons] at linked'
          exact Linked.unique linked' linked

/-- The disk says which clusters the directory and each of the files have. -/
theorem Volume.unique (first : Volume F image own) (second : Volume F image own') :
    own' .root = own .root ∧ ∀ location, own' (.slot location) = own (.slot location) := by
  have root : own' .root = own .root := by
    apply first.accounted.eq_of_firstOf second.accounted
    unfold firstOf
    rw [first.directory.root, second.directory.root]
  refine ⟨root, fun location => ?_⟩
  by_cases held : Holds F image (own .root) location
  · apply first.accounted.eq_of_firstOf second.accounted
    rw [first.directory.first location held, second.directory.first location]
    rw [root]
    exact held
  · rw [first.directory.vacant location held, second.directory.vacant location]
    rw [root]
    exact held

end Counting

/-! ## Writing a whole file -/

section Filling

variable {F : Format} {live : FileRef → Prop} {s s' s'' : Fs} {own own' own'' : Ownership}
variable {name : CString} {location : Location} {file : FileRef}

theorem Extends.advance {image image' image'' : Image} {root root' : List Nat}
    (extended : Extends F image image' root root')
    (less : ∀ other, F.InDir root' other → Used image'' other → Used image' other) :
    Extends F image image'' root root' := by
  refine extended.imp_right (And.imp_left ?_)
  rintro ⟨cluster, grown, only⟩
  refine ⟨cluster, grown, fun other inDir used => only other inDir (less other ?_ used)⟩
  rw [grown]
  exact inDir.mono fun _ member => List.mem_append_right _ member

/-- The file that was opened was written afterwards. -/
theorem Opened.rewritten {create : Bool}
    (opened : Opened F live s s' own own' name file location create)
    (handled : Handled F (openedLive live s file location) file s' s'' own' own'') :
    Rewritten F s.image s''.image own own'' location := by
  have advanced := handled.advanced
  have isLive : openedLive live s file location file := Or.inl rfl
  have kept' : ∀ other, other ≠ location → KeptAt F s'.image s''.image own' own'' other := by
    intro other different
    apply advanced.kept
    rw [opened.place]
    exact different
  have holds := (advanced.between.inv.handles.opened file isLive).holds
  rw [advanced.location, opened.place] at holds
  refine ⟨fun other different => ?_, holds, ?_⟩
  · refine KeptAt.trans ?_ (kept' other different)
    cases opened.placed with
    | found same root slots _ => exact .ofSectors root (slots other) fun _ _ => by rw [same]
    | created entered => exact entered.kept other different
  · cases opened.placed with
    | found same root slots held => exact Or.inl ⟨held, advanced.root.trans root⟩
    | created entered =>
        refine Or.inr ⟨entered.fresh, ?_⟩
        rw [advanced.root]
        refine entered.root.advance fun other inDir used => ?_
        by_cases equal : other = location
        · rw [equal]
          exact entered.holds.used
        · refine ((kept' other equal).holds.mp ⟨?_, used⟩).used
          rw [advanced.root]
          exact inDir

/-- Without failing transfers the chain of an open file is that of its slot. -/
theorem Between.chainOf_eq (between : Between F live s own) (quiet : s.Quiet)
    (isLive : live file) : chainOf s own file = own (.slot (s.files file).location) := by
  have owner : ownerOf s.image file (s.files file) = .slot (s.files file).location :=
    if_pos (between.synced quiet file isLive).1
  unfold chainOf
  rw [owner]

theorem Tight.length_eq (tight : Tight F s own file) (between : Between F live s own)
    (quiet : s.Quiet) (isLive : live file) :
    (own (.slot (s.files file).location)).length = F.keeps (s.files file).size := by
  have size := (between.inv.handles.opened file isLive).size
  have chain := between.chainOf_eq quiet isLive
  unfold Tight at tight
  change (s.files file).size ≤ (chainOf s own file).length * F.clusterBytes at size
  rw [chain] at tight size
  exact Nat.le_antisymm tight (F.keeps_le size)

/-- The file in a slot, if there is one, has no more clusters than it needs. -/
def SnugAt (F : Format) (image : Image) (own : Ownership) (location : Location) : Prop :=
  Holds F image (own .root) location →
    (own (.slot location)).length ≤ F.keeps (entryOf image location).size

theorem Opened.tight {create : Bool}
    (opened : Opened F live s s' own own' name file location create) (quiet : s'.Quiet)
    (snug : SnugAt F s.image own location) : Tight F s' own' file := by
  have isLive : openedLive live s file location file := Or.inl rfl
  have synced := opened.between.synced quiet file isLive
  unfold Tight
  rw [opened.between.chainOf_eq quiet isLive, synced.2, opened.place]
  cases opened.placed with
  | found same root slots held =>
      rw [slots, same]
      exact snug held
  | created entered =>
      rw [entered.chain]
      exact Nat.zero_le _

/-- The file with a name after `fs_write_all` stored `length` bytes. -/
structure Filled (F : Format) (s s' : Fs) (own own' : Ownership) (name : CString)
    (length : Nat) (location : Location) : Prop where
  volume : Volume F s'.image own'
  rewritten : Rewritten F s.image s'.image own own' location
  before : Holds F s.image (own .root) location →
    storedName (entryOf s.image location) = name
  named : storedName (entryOf s'.image location) = name
  size : (entryOf s'.image location).size = length
  chain : SnugAt F s.image own location →
    (own' (.slot location)).length = F.keeps length

theorem Opened.filled {create : Bool} {length : Nat}
    (opened : Opened F live s s' own own' name file location create)
    (handled : Handled F (openedLive live s file location) file s' s'' own' own'')
    (quiet : s''.Quiet) (size : (openBytes F s'' own'' file).length = length)
    (tight : SnugAt F s.image own location → Tight F s'' own'' file) :
    Filled F s s'' own own'' name length location := by
  have isLive : openedLive live s file location file := Or.inl rfl
  have between := handled.advanced.between
  have place : (s''.files file).location = location :=
    handled.advanced.location.trans opened.place
  have synced := between.synced quiet file isLive
  rw [length_openBytes] at size
  refine ⟨between.inv.volume, opened.rewritten handled, opened.before, ?_, ?_,
    fun snug => ?_⟩
  · have sameName := handled.advanced.name
    rw [opened.place] at sameName
    rw [← opened.named]
    simp only [storedName, sameName]
  · rw [← size, synced.2, place]
  · rw [← size, ← place]
    exact (tight snug).length_eq between quiet isLive

/-- Why `fs_write_all` runs out of space: there is no slot for the file, or no cluster for
the rest of its contents. -/
inductive OutOfSpace (F : Format) (s s' : Fs) (own : Ownership) (name : CString)
    (size : Nat) : Prop where
  | noSlot (absent : ¬ Exists F s.image own name) (full : Full F s.image)
      (noSlot : NoSlot F s.image (own .root)) (same : s'.image = s.image)
  | noCluster {own' : Ownership} {location : Location} {stored : Nat} (part : stored < size)
      (filled : Filled F s s' own own' name stored location) (full : Full F s'.image)
      (reached : (own' (.slot location)).length * F.clusterBytes ≤ stored)

theorem fsWriteAll_filled (ready : Ready F live s own) (quiet : s.Quiet)
    (valid : nameOk name = true) (buffer : Nat → UInt8) {size : Nat}
    (bounded : size < wordSize) :
    Meets (fsWriteAll (some name) buffer size) s
      (fun _ s' => ∃ own' location, Filled F s s' own own' name size location)
      fun error s' => error = .nospc ∧ OutOfSpace F s s' own name size := by
  unfold fsWriteAll
  refine (fsOpen_spec ready (some name) .stack true).seq ?_ ?_
  · rintro _ s1 ⟨clean, given, location, own1, isName, _, opened⟩
    injection isName with isName
    subst isName
    have ready1 := ready.unfinished opened.between opened.same fun _ => clean
    have quiet1 := opened.same.quiet quiet
    have isLive : openedLive live s .stack location .stack := Or.inl rfl
    refine (fsTruncate_handled ready1 isLive).seq ?_ ?_
    · rintro _ s2 ⟨_, own2, handled, truncated⟩
      have quiet2 := handled.advanced.same.quiet quiet1
      have none : openBytes F s2 own2 .stack = bufferBytes buffer 0 :=
        truncated.openBytes_eq
      have snugTight : SnugAt F s.image own location → Tight F s2 own2 .stack :=
        fun snug => truncated.tight (opened.tight quiet1 snug)
      refine (writeAllLoop_spec bounded _ 0 (handled.ready ready1) isLive truncated.size
        (Nat.zero_le _) (Nat.sub_le _ _) fun _ => none).mono ?_ ?_
      · rintro _ s3 ⟨own3, handled3, whole, tight⟩
        refine ⟨own3, location, opened.filled (handled.trans handled3)
          (handled3.advanced.same.quiet quiet2) ?_ fun snug => tight quiet2 (snugTight snug)⟩
        rw [whole quiet2]
        simp [bufferBytes]
      · rintro error s3 ⟨own3, handled3, why, tight⟩
        have quiet3 := handled3.advanced.same.quiet quiet2
        rcases why quiet2 with ⟨isError, stored, less, exhausted, part⟩
        refine ⟨isError, .noCluster less (opened.filled (handled.trans handled3) quiet3 ?_
          fun snug => tight quiet2 (snugTight snug)) exhausted.full ?_⟩
        · rw [part]
          simp [bufferBytes]
        · have chain := handled3.advanced.between.chainOf_eq quiet3 isLive
          rw [handled3.advanced.location, handled.advanced.location, opened.place] at chain
          rw [← chain]
          exact exhausted.reached
    · rintro error s2 ⟨own2, handled, why⟩
      exact absurd (why quiet1).2.2 (Nat.not_lt_zero _)
  · rintro error s1 ⟨own1, failed⟩
    rcases failed.why quiet with ⟨⟨_, bad⟩ | ⟨given, isName, _, absent, ⟨_, impossible⟩ |
      ⟨isError, _, full, noSlot⟩⟩, image, _, _⟩
    · rw [bad name rfl] at valid
      cases valid
    · cases impossible
    · injection isName with isName
      subst isName
      exact ⟨isError, .noSlot absent full noSlot image⟩

/-! ## What is stored then -/

/-- The disk decides which chains are meant. -/
theorem Filled.transfer {length : Nat} (filled : Filled F s s' own own' name length location)
    (volume : Volume F s'.image own'') : Filled F s s' own own'' name length location := by
  rcases filled.volume.unique volume with ⟨root, slots⟩
  have rewritten := filled.rewritten
  refine ⟨volume, ⟨fun other different => ?_, ?_, ?_⟩, filled.before, filled.named,
    filled.size, fun snug => ?_⟩
  · have kept := rewritten.kept other different
    refine ⟨?_, kept.entry, (slots other).trans kept.chain, kept.data⟩
    rw [root]
    exact kept.holds
  · rw [root]
    exact rewritten.holds
  · rw [root]
    exact rewritten.root
  · rw [slots]
    exact filled.chain snug

/-- What `fs_write_all` left when it ran out of space: nothing happened, or the file has
only its first bytes. -/
inductive Lacking (F : Format) (s s' : Fs) (own own' : Ownership) (name : CString)
    (buffer : Nat → UInt8) (size : Nat) : Prop where
  | noSlot (absent : ¬ Exists F s.image own name) (full : Full F s.image)
      (noSlot : NoSlot F s.image (own .root)) (same : s'.image = s.image)
      (contents : contentsOf F s'.image own' = contentsOf F s.image own)
  | noCluster {location : Location} {stored : Nat} (part : stored < size)
      (filled : Filled F s s' own own' name stored location) (full : Full F s'.image)
      (reached : (own' (.slot location)).length * F.clusterBytes ≤ stored)
      (contents : contentsOf F s'.image own' =
        Function.update (contentsOf F s.image own) name (some (bufferBytes buffer stored)))

theorem perform_eq {α : Type} {call : Call} {program : FsM α} {reply : α → Reply}
    (isRun : call.run = reply <$> program) (s : Fs) :
    perform call s = match program s with
      | .ok value s' => (.ok (reply value), s')
      | .error error s' => (.error error, s') := by
  have mapped : call.run s = EStateM.map reply program s := by
    rw [isRun]
    rfl
  unfold perform
  rw [mapped, EStateM.map]
  cases program s with
  | ok value s' => rfl
  | error error s' => rfl

/-- A file of which `length` bytes are stored. -/
theorem Filled.contents_length {length : Nat}
    (filled : Filled F s s' own own' name length location) :
    ∃ bytes, contentsOf F s'.image own' name = some bytes ∧ bytes.length = length := by
  refine ⟨_, contentsOf_of_holds filled.volume.directory filled.rewritten.holds filled.named, ?_⟩
  rw [bytesOf, Format.length_fileBytes, filled.size]

theorem fsWriteAll_step {session : Session} (ready : Ready F live s own)
    (notLive : ¬ live .stack) (quiet : s.Quiet) (shown : Shows F live s own session)
    (valid : nameOk name = true) (buffer : Nat → UInt8) (size : UInt32) :
    Meets (fsWriteAll (some name) buffer size.toNat) s
      (fun _ s' => Same s s' ∧ ∃ own' location,
        Ready F (otherNames live s (some name)) s' own' ∧
        Filled F s s' own own' name size.toNat location ∧
        contentsOf F s'.image own' = Function.update (contentsOf F s.image own) name
          (some (bufferBytes buffer size.toNat)))
      fun error s' => error = .nospc ∧ Same s s' ∧ ∃ own',
        Ready F (otherNames live s (some name)) s' own' ∧
        Lacking F s s' own own' name buffer size.toNat := by
  have filled := fsWriteAll_filled ready quiet valid buffer (UInt32.toNat_lt size)
  have answers : Answers F True live s own (.writeAll (some name) buffer size) _ _ :=
    writeAll_answers ready notLive (some name) buffer size
  have performed := @perform_eq _ (.writeAll (some name) buffer size) _ _ rfl s
  unfold Meets
  cases run : fsWriteAll (some name) buffer size.toNat s with
  | ok value s' =>
      rw [run] at performed
      rw [performed] at answers
      rcases answers with ⟨own', same, ready', step⟩
      rcases filled.ok_of_run run with ⟨own1, location, filled⟩
      rcases step session quiet shown with ⟨session', shown', mapStep⟩
      refine ⟨same, own', location, ready',
        filled.transfer ready'.between.inv.volume, ?_⟩
      cases mapStep with
      | writeAll isValid =>
          rw [← shown'.contents, ← shown.contents]
          rfl
  | error error s' =>
      rw [run] at performed
      rw [performed] at answers
      rcases answers with ⟨own', same, ready', step⟩
      rcases filled.error_of_run run with ⟨isError, why⟩
      rcases step session quiet shown with ⟨session', shown', mapStep⟩
      subst isError
      refine ⟨rfl, same, own', ready', ?_⟩
      cases why with
      | noSlot absent full noSlot image =>
          refine .noSlot absent full noSlot image ?_
          have volume' := ready'.between.inv.volume
          rw [image] at volume' ⊢
          rcases ready.between.inv.volume.unique volume' with ⟨root, slots⟩
          exact contentsOf_congr root slots
      | noCluster part filled full reached =>
          have volume' := ready'.between.inv.volume
          have filled' := filled.transfer volume'
          rcases filled'.contents_length with ⟨bytes, present, isLength⟩
          rw [← (filled.volume.unique volume').2] at reached
          refine .noCluster part filled' full reached ?_
          rw [← shown'.contents] at present ⊢
          rw [← shown.contents]
          cases mapStep with
          | @writeAllFull _ _ _ written isValid =>
              have isBytes : some (bufferBytes buffer written) = some bytes := by
                rw [← present]
                change _ = Function.update session.map.contents name _ name
                rw [Function.update_self]
              injection isBytes with isBytes
              rw [← isBytes, bufferBytes, List.length_map, List.length_range] at isLength
              rw [← isLength]
              rfl
          | writeAllNoEntry absent =>
              rw [absent] at present
              cases present

/-! ## Room -/

/-- The clusters that are free. -/
def freeClusters (F : Format) (image : Image) : Nat :=
  (freeBelow F.sb image (F.sb.clusterCount + 1)).length

theorem freeClusters_eq_zero_iff {image : Image} : freeClusters F image = 0 ↔ Full F image := by
  unfold freeClusters Full
  rw [List.length_eq_zero_iff, List.eq_nil_iff_forall_not_mem]
  constructor
  · intro none cluster positive inRange free
    exact none cluster (mem_freeBelow.mpr ⟨by omega, positive, inRange, free⟩)
  · intro full cluster member
    rcases mem_freeBelow.mp member with ⟨_, positive, inRange, free⟩
    exact full cluster positive inRange free

/-- What the disk had free before went to the file and to the directory. -/
theorem Filled.free {live' : FileRef → Prop} {length : Nat} (ready : Ready F live s own)
    (ready' : Ready F live' s' own'') (quiet : s.Quiet) (quiet' : s'.Quiet)
    (filled : Filled F s s' own own' name length location) :
    freeClusters F s'.image + (own' (.slot location)).length + (own' .root).length =
      freeClusters F s.image + (own (.slot location)).length + (own .root).length := by
  have count := ready.count quiet (Nat.lt_succ_self F.sb.clusterCount)
  have count' := ready'.count quiet' (Nat.lt_succ_self F.sb.clusterCount)
  have taken := filled.rewritten.clusters ready.between.inv.volume filled.volume
  have unique := ready'.between.inv.volume.unique filled.volume
  rw [← unique.1, show (fun location => own'' (.slot location)) =
    fun location => own' (.slot location) from funext fun location =>
      (unique.2 location).symm] at count'
  unfold freeClusters
  simp only [Nat.succ_eq_add_one] at count count'
  omega

end Filling

end Katela.Filesystem
