import Katela.Filesystem.Listing
import Katela.Filesystem.Traversal

/-! # Complete listings

An iterator passes the slots of the directory in their order, one sector after the
other, and keeps its place from call to call. In a well-formed filesystem its calls
report every file once. -/

namespace Katela.Filesystem

/-! ## Slots in their order -/

/-- Some slots of a sector. -/
def slotsAt (sector slot count : Nat) : List Location :=
  (List.range' slot count).map (Location.mk sector)

/-- All slots of some sectors. -/
def sectorSlots (sector count : Nat) : List Location :=
  (List.range' sector count).flatMap fun sector => slotsAt sector 0 slotsPerSector

theorem sectorSlots_succ (sector count : Nat) :
    sectorSlots sector (count + 1) =
      slotsAt sector 0 slotsPerSector ++ sectorSlots (sector + 1) count :=
  rfl

theorem Format.slots_cons (F : Format) (cluster : Nat) (back : List Nat) :
    F.slots (cluster :: back) =
      sectorSlots (F.sectorOf cluster) (2 ^ F.shift) ++ F.slots back := by
  unfold slots sectorSlots slotsAt
  rw [List.flatMap_cons, @List.range'_eq_map_range (F.sectorOf cluster), List.flatMap_map]
  simp only [List.range_eq_range']

/-- The slots that hold files. -/
def usedSlots (image : Image) (slots : List Location) : List Location :=
  slots.filter fun location => (entryOf image location).flags % 2 = 1

theorem usedSlots_append (image : Image) (slots others : List Location) :
    usedSlots image (slots ++ others) = usedSlots image slots ++ usedSlots image others :=
  List.filter_append ..

/-- `nextUsed` finds the first used slot of those that it looks at. -/
theorem nextUsed_spec (image : Image) (sector rounds : Nat) :
    ∀ slot, match nextUsed (image sector) rounds slot with
      | none => usedSlots image (slotsAt sector slot rounds) = []
      | some found => usedSlots image (slotsAt sector slot rounds) = ⟨sector, found⟩ ::
          usedSlots image (slotsAt sector (found + 1) (slot + rounds - (found + 1))) := by
  induction rounds with
  | zero => exact fun slot => rfl
  | succ rounds induction =>
      intro slot
      have first : slotsAt sector slot (rounds + 1) =
          ⟨sector, slot⟩ :: slotsAt sector (slot + 1) rounds := rfl
      have isEntry : entryAt (image sector) slot = entryOf image ⟨sector, slot⟩ := rfl
      unfold nextUsed
      rw [first, isEntry]
      by_cases used : (entryOf image ⟨sector, slot⟩).flags % 2 = 1
      · rw [if_pos used]
        dsimp only
        rw [show slot + (rounds + 1) - (slot + 1) = rounds by omega]
        exact List.filter_cons_of_pos (by simpa using used)
      · have skips : usedSlots image (⟨sector, slot⟩ :: slotsAt sector (slot + 1) rounds) =
            usedSlots image (slotsAt sector (slot + 1) rounds) :=
          List.filter_cons_of_neg (by simpa using used)
        rw [if_neg used, skips, show slot + (rounds + 1) = slot + 1 + rounds by omega]
        exact induction (slot + 1)

/-! ## The place of an iterator -/

/-- The slots from a place in a cluster on, with those of the clusters behind it. -/
def Format.slotsFrom (F : Format) (cluster sector slot : Nat) (back : List Nat) :
    List Location :=
  slotsAt (F.sectorOf cluster + sector) slot (slotsPerSector - slot) ++
    (sectorSlots (F.sectorOf cluster + (sector + 1)) (2 ^ F.shift - (sector + 1)) ++
      F.slots back)

theorem Format.slotsFrom_zero (F : Format) {cluster sector : Nat} (back : List Nat)
    (inside : sector < 2 ^ F.shift) :
    F.slotsFrom cluster sector 0 back =
      sectorSlots (F.sectorOf cluster + sector) (2 ^ F.shift - sector) ++ F.slots back := by
  have split : 2 ^ F.shift - sector = 2 ^ F.shift - (sector + 1) + 1 := by omega
  rw [split, sectorSlots_succ, List.append_assoc]
  rfl

/-- The slots that an iterator has yet to pass. -/
inductive Remains (F : Format) (root : List Nat) : FsIter → List Location → Prop where
  | passed : Remains F root ⟨0, 0, 0, root.length⟩ []
  | here {front back : List Nat} {cluster sector slot : Nat}
      (split : root = front ++ cluster :: back) (inside : sector < 2 ^ F.shift)
      (slot_le : slot ≤ slotsPerSector) :
      Remains F root ⟨cluster, sector, slot, front.length⟩
        (F.slotsFrom cluster sector slot back)

theorem Remains.ofBack {F : Format} {root front back : List Nat}
    (split : root = front ++ back) :
    Remains F root ⟨firstOf back, 0, 0, front.length⟩ (F.slots back) := by
  cases back with
  | nil =>
      rw [List.append_nil] at split
      rw [← split]
      exact .passed
  | cons cluster back =>
      have remains := Remains.here (F := F) split (Nat.two_pow_pos F.shift)
        (Nat.zero_le slotsPerSector)
      rw [F.slotsFrom_zero back (Nat.two_pow_pos F.shift), Nat.sub_zero, Nat.add_zero,
        ← F.slots_cons] at remains
      exact remains

section Places

variable {F : Format} {live : FileRef → Prop} {s : Fs} {own : Ownership} {iter : Nat}

theorem Remains.iterAt {todo : List Location} {it : FsIter} (inv : Inv F live s own)
    (remains : Remains F (own .root) it todo) : IterAt s it := by
  have short := inv.accounted.length_le .root
  cases remains with
  | passed =>
      refine ⟨?_, Nat.two_pow_pos _, Nat.zero_le _⟩
      rw [inv.sb]
      exact short
  | here split inside slot_le =>
      refine ⟨?_, ?_, slot_le⟩
      · rw [inv.sb]
        rw [split, List.length_append] at short
        exact Nat.le_trans (Nat.le_add_right _ _) short
      · rw [inv.shift]
        exact inside

/-- The step to the next sector passes the slots of this one. -/
theorem iterAdvance_remains {front back : List Nat} {cluster sector slot : Nat}
    (inv : Inv F live s own) (split : own .root = front ++ cluster :: back)
    (inside : sector < 2 ^ F.shift)
    (isIter : s.iters iter = ⟨cluster, sector, slot, front.length⟩) :
    Meets (iterAdvance iter) s
      (fun _ s' => Inv F live s' own ∧ Same s s' ∧ s'.image = s.image ∧
        Remains F (own .root) (s'.iters iter)
          (sectorSlots (F.sectorOf cluster + (sector + 1)) (2 ^ F.shift - (sector + 1)) ++
            F.slots back))
      fun error s' => error = .io ∧ ¬ s.Quiet ∧ Same s s' := by
  unfold iterAdvance
  refine .bind (.modify (.bind (.get (.ite (fun last => ?_) fun more => ?_))))
  · simp only [setIter_iters, isIter] at last ⊢
    have isLast : sector + 1 = 2 ^ F.shift := by
      change 2 ^ s.clusterShift ≤ sector + 1 at last
      rw [inv.shift] at last
      omega
    refine .bind (.modify ?_)
    refine (chainNext_inv ((inv.setIter iter _).setIter iter _) split).seq ?_ ?_
    · rintro next s1 ⟨inv1, only, image, isNext⟩
      have isIter1 : (s1.setIter iter fun it =>
          { it with cluster := next, steps := it.steps + 1 }).iters iter =
            ⟨firstOf back, 0, 0, (front ++ [cluster]).length⟩ := by
        rw [setIter_iters, only.iters, setIter_iters, setIter_iters, isIter, isNext,
          List.length_append]
        rfl
      have remains : Remains F (own .root) ⟨firstOf back, 0, 0, (front ++ [cluster]).length⟩
          (F.slots back) := .ofBack (by rw [split, List.append_assoc]; rfl)
      have within := (remains.iterAt inv1).steps
      refine .bind (.modify (.bind (.get (.require (fun _ => ?_) fun beyond => ?_))))
      · refine ⟨inv1.setIter iter _, ?_, image, ?_⟩
        · exact (((setIter_same _ _ _).trans (setIter_same _ _ _)).trans only.same).trans
            (setIter_same _ _ _)
        · rw [isIter1, isLast, Nat.sub_self]
          exact remains
      · rw [isIter1] at beyond
        exact absurd within beyond
    · rintro error s1 ⟨isIo, loud, _, only, _⟩
      exact ⟨isIo, loud, ((setIter_same _ _ _).trans (setIter_same _ _ _)).trans only.same⟩
  · simp only [setIter_iters, isIter, ge_iff_le, not_le] at more
    have inside' : sector + 1 < 2 ^ F.shift := by
      change sector + 1 < 2 ^ s.clusterShift at more
      rw [inv.shift] at more
      exact more
    refine .pure ⟨inv.setIter iter _, setIter_same _ _ _, rfl, ?_⟩
    rw [setIter_iters, isIter, ← F.slotsFrom_zero back inside']
    exact .here split inside' (Nat.zero_le _)

/-- What one round of the loop does to the slots that remain. -/
theorem iterRound_remains {todo : List Location} (inv : Inv F live s own)
    (remains : Remains F (own .root) (s.iters iter) todo) :
    Meets (iterRound iter ()) s
      (fun outcome s' => Inv F live s' own ∧ Same s s' ∧ s'.image = s.image ∧
        match outcome with
        | .inl _ => ∃ todo', Remains F (own .root) (s'.iters iter) todo' ∧
            usedSlots s.image todo' = usedSlots s.image todo
        | .inr none => usedSlots s.image todo = []
        | .inr (some info) => ∃ location todo', Remains F (own .root) (s'.iters iter) todo' ∧
            usedSlots s.image todo = location :: usedSlots s.image todo' ∧
            info = infoOf (entryOf s.image location))
      fun error s' => error = .io ∧ ¬ s.Quiet ∧ Same s s' := by
  unfold iterRound
  refine .bind (.get ?_)
  generalize isIter : s.iters iter = it at remains
  cases remains with
  | passed => exact .pure ⟨inv, .refl s, rfl, rfl⟩
  | @here front back cluster sector slot split inside slot_le =>
      have member : cluster ∈ own .root := by simp [split]
      have bounds := inv.accounted.bounds .root cluster member
      have inCluster : F.InCluster cluster (F.sectorOf cluster + sector) :=
        ⟨Nat.le_add_right _ _, Nat.add_lt_add_left inside _⟩
      dsimp only
      rw [if_neg (by omega), inv.clusterSector_eq member]
      refine (blockRead_image inv.geometry inv.coherent
        (by rw [inv.sb]; exact F.fat_lt_of_inCluster inCluster)
        (by rw [inv.sb]; exact F.lt_total_of_inCluster bounds.1 bounds.2 inCluster)).seq ?_ ?_
      · rintro contents s1 ⟨rfl, moved⟩
        have inv1 := inv.unmoved moved
        have isIter1 : s1.iters iter = ⟨cluster, sector, slot, front.length⟩ := by
          rw [moved.iters, isIter]
        have scanned := nextUsed_spec s.image (F.sectorOf cluster + sector)
          (slotsPerSector - slot) slot
        cases found : nextUsed (s.image (F.sectorOf cluster + sector))
            (slotsPerSector - slot) slot with
        | some place =>
            have placeBounds := nextUsed_bounds found
            rw [found] at scanned
            refine .bind (.modify (.pure ⟨inv1.setIter iter _,
              moved.same.trans (setIter_same _ _ _), moved.image_eq,
              ⟨F.sectorOf cluster + sector, place⟩, F.slotsFrom cluster sector (place + 1) back,
              ?_, ?_, rfl⟩))
            · rw [setIter_iters, isIter1]
              exact .here split inside (by omega)
            · unfold Format.slotsFrom
              rw [usedSlots_append, scanned, List.cons_append, ← usedSlots_append,
                show slot + (slotsPerSector - slot) - (place + 1) =
                  slotsPerSector - (place + 1) by omega]
        | none =>
            rw [found] at scanned
            refine (iterAdvance_remains inv1 split inside isIter1).seq ?_ ?_
            · rintro _ s2 ⟨inv2, same, image, remains⟩
              refine .pure ⟨inv2, moved.same.trans same, image.trans moved.image_eq, _,
                remains, ?_⟩
              unfold Format.slotsFrom
              rw [usedSlots_append _ (slotsAt _ _ _), scanned]
              rfl
            · rintro error s2 ⟨isIo, loud, same⟩
              exact ⟨isIo, moved.same.not_quiet loud, moved.same.trans same⟩
      · rintro error s1 ⟨isIo, loud, moved⟩
        exact ⟨isIo, loud, moved.same⟩

/-- A call of `fs_iter_next` reports the next file, or that there is none. -/
theorem fsIterNext_remains {todo : List Location} (inv : Inv F live s own)
    (remains : Remains F (own .root) (s.iters iter) todo) :
    Meets (fsIterNext iter) s
      (fun outcome s' => Inv F live s' own ∧ Same s s' ∧ s'.image = s.image ∧
        match outcome with
        | none => usedSlots s.image todo = []
        | some info => ∃ location todo', Remains F (own .root) (s'.iters iter) todo' ∧
            usedSlots s.image todo = location :: usedSlots s.image todo' ∧
            info = infoOf (entryOf s.image location))
      fun error s' => error = .io ∧ ¬ s.Quiet ∧ Same s s' := by
  refine @Loops.meets _ _ _ _ _ _ _ _
    (fun _ s' => Inv F live s' own ∧ Same s s' ∧ s'.image = s.image ∧
      ∃ todo', Remains F (own .root) (s'.iters iter) todo' ∧
        usedSlots s.image todo' = usedSlots s.image todo)
    _ _ (fsIterNext_loops inv.mounted (remains.iterAt inv))
    ⟨inv, .refl s, rfl, todo, remains, rfl⟩ ?_
  rintro _ s1 ⟨inv1, same, image, todo1, remains1, isTodo⟩
  refine (iterRound_remains inv1 remains1).mono ?_ ?_
  · rintro outcome s2 ⟨inv2, same2, image2, after⟩
    rw [image] at after image2
    rw [isTodo] at after
    match outcome, after with
    | .inl _, after => exact ⟨inv2, same.trans same2, image2, after⟩
    | .inr none, after => exact ⟨inv2, same.trans same2, image2, after⟩
    | .inr (some _), after => exact ⟨inv2, same.trans same2, image2, after⟩
  · rintro error s2 ⟨isIo, loud, same2⟩
    exact ⟨isIo, same.not_quiet loud, same.trans same2⟩

/-- The entries that the calls report for some slots. -/
def reported (image : Image) (slots : List Location) : List FsInfo :=
  (usedSlots image slots).map fun location => infoOf (entryOf image location)

/-- The calls report the files in the slots that remain, in their order. A transfer that
fails ends them early. -/
theorem lists_remaining (bound : Nat) :
    ∀ {s : Fs} {todo : List Location}, Inv F live s own →
      Remains F (own .root) (s.iters iter) todo →
      (usedSlots s.image todo).length < bound →
      ∃ infos ending s', Lists iter s infos ending s' ∧
        (ending = none ∧ infos = reported s.image todo ∨
          ending = some .io ∧ ¬ s.Quiet ∧ infos <+: reported s.image todo) := by
  induction bound with
  | zero => exact fun _ _ impossible => absurd impossible (Nat.not_lt_zero _)
  | succ bound induction =>
      intro s todo inv remains few
      have next := iterNext_fsIterNext fun _ => remains.iterAt inv
      have spec := fsIterNext_remains inv remains
      cases call : fsIterNext iter s with
      | error error s' =>
          rw [call] at next
          rcases spec.error_of_run call with ⟨rfl, loud, _⟩
          exact ⟨[], some .io, s', .failed next, Or.inr ⟨rfl, loud, List.nil_prefix⟩⟩
      | ok outcome s' =>
          rw [call] at next
          rcases spec.ok_of_run call with ⟨inv', same, image, after⟩
          unfold reported
          cases outcome with
          | none =>
              dsimp only at after
              rw [after]
              exact ⟨[], none, s', .done next, Or.inl ⟨rfl, rfl⟩⟩
          | some info =>
              rcases after with ⟨location, todo', remains', isMore, rfl⟩
              rw [isMore] at few ⊢
              rw [← image] at few
              rcases induction inv' remains' (Nat.lt_of_succ_lt_succ few) with
                ⟨infos, ending, s'', lists, ends⟩
              rw [image] at ends
              refine ⟨_, ending, s'', .more next lists, ?_⟩
              rw [List.map_cons]
              rcases ends with ⟨isDone, rfl⟩ | ⟨isIo, loud, before⟩
              · exact Or.inl ⟨isDone, rfl⟩
              · exact Or.inr ⟨isIo, same.not_quiet loud,
                  (List.prefix_cons_inj _).mpr before⟩

/-- From its beginning the listing reports every slot that holds a file. -/
theorem lists_begun {begun : Fs} (inv : Inv F live s own)
    (begins : fsIterBegin iter s = .ok () begun) :
    ∃ infos ending s', Lists iter begun infos ending s' ∧
      (ending = none ∧ infos = reported s.image (F.slots (own .root)) ∨
        ending = some .io ∧ ¬ s.Quiet ∧
          infos <+: reported s.image (F.slots (own .root))) := by
  have isBegun := fsIterBegin_begun begins
  have isFirst : firstOf (own .root) = F.sb.rootCluster := by
    unfold firstOf
    rw [inv.directory.root]
    rfl
  have remains : Remains F (own .root) (begun.iters iter) (F.slots (own .root)) := by
    have started := Remains.ofBack (F := F) (List.nil_append (own .root)).symm
    rw [isFirst] at started
    rw [isBegun, setIter_iters]
    unfold iterStart
    rw [if_pos inv.mounted, inv.sb]
    exact started
  subst isBegun
  exact lists_remaining _ (inv.setIter iter _) remains (Nat.lt_succ_self _)

end Places

/-! ## The files that are listed -/

/-- The name that a caller reads. -/
def FsInfo.fileName (info : FsInfo) : CString := boundedString info.name.byteAt 116

section Files

variable {F : Format} {image : Image} {own : Ownership}

theorem fileName_infoOf {entry : DirEntry} (valid : nameOk (storedName entry) = true) :
    (infoOf entry).fileName = storedName entry := by
  have short := length_of_nameOk valid
  have isMax : fsNameMax = 115 := rfl
  have stored := (@boundedString_eq_iff (storedName entry) entry.name.byteAt 116
    (by omega)).mp rfl
  unfold FsInfo.fileName
  rw [boundedString_eq_iff (by omega)]
  intro index bound
  have small : index < 116 := by omega
  by_cases last : index = 115
  · -- The copy overwrites what was NUL already.
    rw [(charAt_eq_zero_iff _ index).mpr (by omega)]
    simp [infoOf, Block.byteAt, last, isMax]
  · rw [← stored index bound]
    simp [infoOf, Block.byteAt, small, last, isMax]

theorem mem_usedSlots (root : List Nat) (location : Location) :
    location ∈ usedSlots image (F.slots root) ↔ Holds F image root location := by
  unfold usedSlots
  rw [List.mem_filter, F.mem_slots]
  constructor
  · rintro ⟨inDir, used⟩
    exact ⟨inDir, by simpa [Used] using used⟩
  · rintro ⟨inDir, used⟩
    exact ⟨inDir, by simpa [Used] using used⟩

/-- No name is reported twice. -/
theorem nodup_reported (directory : Directory F image own)
    (nodup : (F.slots (own .root)).Nodup) :
    ((reported image (F.slots (own .root))).map FsInfo.fileName).Nodup := by
  unfold reported
  rw [List.map_map]
  refine List.Nodup.map_on ?_ (nodup.filter _)
  intro location member other member' same
  have held := (mem_usedSlots (own .root) location).mp member
  have held' := (mem_usedSlots (own .root) other).mp member'
  simp only [Function.comp_apply, fileName_infoOf (directory.valid location held),
    fileName_infoOf (directory.valid other held')] at same
  exact directory.distinct location other held held' same

/-- A name is reported with a size if and only if it is that of a file with this size. -/
theorem mem_reported_iff (directory : Directory F image own) (name : CString) (size : Nat) :
    (∃ info ∈ reported image (F.slots (own .root)),
      info.fileName = name ∧ info.size = size) ↔
    ∃ bytes, contentsOf F image own name = some bytes ∧ bytes.length = size := by
  constructor
  · rintro ⟨info, member, isName, isSize⟩
    rcases List.mem_map.mp member with ⟨location, used, rfl⟩
    have held := (mem_usedSlots (own .root) location).mp used
    rw [fileName_infoOf (directory.valid location held)] at isName
    refine ⟨_, contentsOf_of_holds directory held isName, ?_⟩
    rw [← isSize]
    exact F.length_fileBytes _ _ _
  · rintro ⟨bytes, isContents, isSize⟩
    have found : Exists F image own name := by
      by_contra absent
      rw [contentsOf_of_absent absent] at isContents
      cases isContents
    rcases found with ⟨location, held, isName⟩
    rw [contentsOf_of_holds directory held isName] at isContents
    injection isContents with isBytes
    refine ⟨infoOf (entryOf image location), List.mem_map.mpr ⟨location,
      (mem_usedSlots (own .root) location).mpr held, rfl⟩, ?_, ?_⟩
    · rw [fileName_infoOf (directory.valid location held)]
      exact isName
    · rw [← isSize, ← isBytes]
      exact (F.length_fileBytes _ _ _).symm

end Files

end Katela.Filesystem
