import Katela.Filesystem.Confinement

/-! # Freeing a chain of any FAT

`chain_free` on a FAT that may hold anything: chains that run into each other, cycles and
numbers that are no clusters. It frees what it walks over, so that a cycle leads it back to
an entry that is free by then. -/

namespace Katela.Filesystem

/-! ## Walks -/

/-- Where the chain with this first cluster begins. -/
def startOf (first : Nat) : Option Nat := if first = 0 then none else some first

/-- The walk from one cluster comes to another, over clusters that exist. -/
inductive OnWalk (sb : SuperBlock) (image : Image) : (first cluster : Nat) → Prop where
  | here {first : Nat} (inRange : InRange sb first) : OnWalk sb image first first
  | next {first successor cluster : Nat} (inRange : InRange sb first)
      (link : linkOf image first = some successor)
      (rest : OnWalk sb image successor cluster) : OnWalk sb image first cluster

/-- The walk comes to the end of a chain, through distinct clusters that exist. -/
structure WalkEnds (sb : SuperBlock) (image : Image) (first : Nat) (chain : List Nat) :
    Prop where
  linked : Linked (linkOf image) (startOf first) chain
  inRange : ∀ cluster ∈ chain, InRange sb cluster
  distinct : chain.Nodup

def freeAll (image : Image) (clusters : List Nat) : Image :=
  clusters.foldl (fun image cluster => setFat image cluster 0) image

section Walks

variable {sb : SuperBlock} {image : Image} {first next cluster : Nat} {chain : List Nat}

theorem not_inRange_zero : ¬ InRange sb 0 := fun inRange => absurd inRange.positive (by decide)

theorem linkOf_freed (image : Image) (cluster : Nat) :
    linkOf (setFat image cluster 0) = Function.update (linkOf image) cluster (some 0) :=
  linkOf_setFat image cluster (by decide)

theorem WalkEnds.zero : WalkEnds sb image 0 [] :=
  ⟨rfl, fun _ member => absurd member List.not_mem_nil, List.nodup_nil⟩

theorem WalkEnds.exists_cons (ends : WalkEnds sb image first chain) (nonzero : first ≠ 0) :
    ∃ rest, chain = first :: rest ∧ Linked (linkOf image) (linkOf image first) rest := by
  have linked := ends.linked
  unfold startOf at linked
  rw [if_neg nonzero] at linked
  exact linked.exists_cons

/-- A walk that ends in the image where a cluster is free does not come to it: from there it
would go on to the number zero. -/
theorem WalkEnds.not_mem_freed (ends : WalkEnds sb (setFat image cluster 0) first chain) :
    cluster ∉ chain := by
  intro member
  obtain ⟨before, after, rfl⟩ := List.append_of_mem member
  have linked := (Segment.suffix ends.linked).2
  rw [linkOf_freed, Function.update_self] at linked
  obtain ⟨rest, rfl, _⟩ := Linked.exists_cons linked
  exact not_inRange_zero (ends.inRange 0 (by simp))

/-- The chain from a cluster on is the cluster and the chain that is left when it is free. -/
theorem WalkEnds.cons_iff (inRange : InRange sb cluster)
    (isNext : linkOf image cluster = startOf next) :
    WalkEnds sb image cluster chain ↔
      ∃ rest, chain = cluster :: rest ∧ WalkEnds sb (setFat image cluster 0) next rest := by
  have nonzero : cluster ≠ 0 := fun zero => not_inRange_zero (zero ▸ inRange)
  have frame : ∀ other, other ≠ cluster →
      linkOf (setFat image cluster 0) other = linkOf image other := by
    intro other different
    rw [linkOf_freed, Function.update_of_ne different]
  constructor
  · intro ends
    obtain ⟨rest, rfl, linked⟩ := ends.exists_cons nonzero
    have distinct := List.nodup_cons.mp ends.distinct
    refine ⟨rest, rfl, ?_, fun other member => ends.inRange other (List.mem_cons_of_mem _ member),
      distinct.2⟩
    rw [isNext] at linked
    exact Segment.congr linked fun other member => frame other (ne_of_mem_of_not_mem member
      distinct.1)
  · rintro ⟨rest, rfl, ends⟩
    have absent := ends.not_mem_freed
    refine ⟨⟨if_neg nonzero, ?_⟩, ?_, List.nodup_cons.mpr ⟨absent, ends.distinct⟩⟩
    · rw [isNext]
      exact Segment.congr ends.linked fun other member =>
        (frame other (ne_of_mem_of_not_mem member absent)).symm
    · intro other member
      rcases List.mem_cons.mp member with rfl | inRest
      · exact inRange
      · exact ends.inRange other inRest

/-- A walk that ends visits no more clusters than there are. -/
theorem WalkEnds.length_le (ends : WalkEnds sb image first chain) :
    chain.length ≤ sb.clusterCount :=
  length_le_of_bounds ends.distinct fun cluster member =>
    ⟨(ends.inRange cluster member).positive, (ends.inRange cluster member).atMost⟩

theorem OnWalk.inRange_first (onWalk : OnWalk sb image first cluster) : InRange sb first := by
  cases onWalk with
  | here inRange => exact inRange
  | next inRange _ _ => exact inRange

/-- In the image where a cluster is free no walk goes on from it. -/
theorem OnWalk.of_freed {freed : Nat} (onWalk : OnWalk sb (setFat image freed 0) first cluster) :
    OnWalk sb image first cluster := by
  induction onWalk with
  | here inRange => exact .here inRange
  | @next first successor cluster inRange link rest induction =>
      by_cases isFreed : first = freed
      · rw [isFreed, linkOf_freed, Function.update_self] at link
        cases link
        exact absurd rest.inRange_first not_inRange_zero
      · rw [linkOf_freed, Function.update_of_ne isFreed] at link
        exact .next inRange link induction

theorem OnWalk.cons {target : Nat} (inRange : InRange sb cluster)
    (isNext : linkOf image cluster = startOf next)
    (onWalk : OnWalk sb (setFat image cluster 0) next target) :
    OnWalk sb image cluster target := by
  have nonzero : next ≠ 0 := fun zero => not_inRange_zero (zero ▸ onWalk.inRange_first)
  unfold startOf at isNext
  rw [if_neg nonzero] at isNext
  exact .next inRange isNext onWalk.of_freed

theorem fatAt_freeAll (clusters : List Nat) (image : Image) (cluster : Nat) :
    fatAt (freeAll image clusters) cluster =
      if cluster ∈ clusters then 0 else fatAt image cluster := by
  induction clusters generalizing image with
  | nil => simp [freeAll]
  | cons head rest induction =>
      change fatAt (freeAll (setFat image head 0) rest) cluster = _
      rw [induction]
      by_cases isHead : cluster = head
      · rw [isHead, if_pos List.mem_cons_self, fatAt_setFat_self image head (by decide), ite_self]
      · simp only [fatAt_setFat_other image isHead, List.mem_cons, isHead, false_or]

theorem freeAll_outside {fatSectors sector : Nat} (clusters : List Nat) (image : Image)
    (inFat : ∀ cluster ∈ clusters, 1 + cluster / fatPerSector ≤ fatSectors)
    (outside : sector = 0 ∨ fatSectors < sector) :
    freeAll image clusters sector = image sector := by
  induction clusters generalizing image with
  | nil => rfl
  | cons head rest induction =>
      have atHead := inFat head List.mem_cons_self
      change freeAll (setFat image head 0) rest sector = _
      have positive : 1 ≤ 1 + head / fatPerSector := Nat.le_add_right 1 _
      have elsewhere : sector ≠ 1 + head / fatPerSector := by
        intro equal
        rw [← equal] at atHead positive
        omega
      rw [induction _ fun cluster member => inFat cluster (List.mem_cons_of_mem _ member)]
      exact setFat_of_ne image elsewhere

end Walks

/-! ## The function -/

/-- The walk ended, and what it visited is free. -/
def Freed (first : Nat) (s s' : Fs) : Prop :=
  Still s s' ∧ ∃ chain, WalkEnds s.sb s.image first chain ∧ s'.image = freeAll s.image chain

/-- There is no end that the walk comes to. -/
structure Stuck (first : Nat) (error : FsError) (s s' : Fs) : Prop where
  still : Still s s'
  isCorrupt : error = .corrupt
  endless : ¬ ∃ chain, WalkEnds s.sb s.image first chain
  freed : ∃ freed, (∀ cluster ∈ freed, OnWalk s.sb s.image first cluster) ∧
    s'.image = freeAll s.image freed

section Freeing

variable {s s1 s' : Fs} {cluster next : Nat}

theorem Freed.cons (inRange : InRange s.sb cluster)
    (isNext : linkOf s.image cluster = startOf next)
    (moved : Moved s s1 (setFat s.image cluster 0)) (freed : Freed next s1 s') :
    Freed cluster s s' := by
  obtain ⟨still, chain, ends, isImage⟩ := freed
  rw [moved.same.sb, moved.image_eq] at ends
  rw [moved.image_eq] at isImage
  exact ⟨moved.still.trans still, cluster :: chain,
    (WalkEnds.cons_iff inRange isNext).mpr ⟨chain, rfl, ends⟩, isImage⟩

theorem Stuck.cons {error : FsError} (inRange : InRange s.sb cluster)
    (isNext : linkOf s.image cluster = startOf next)
    (moved : Moved s s1 (setFat s.image cluster 0)) (stuck : Stuck next error s1 s') :
    Stuck cluster error s s' := by
  obtain ⟨still, isCorrupt, endless, freed, onWalk, isImage⟩ := stuck
  rw [moved.same.sb, moved.image_eq] at endless onWalk
  rw [moved.image_eq] at isImage
  refine ⟨moved.still.trans still, isCorrupt, ?_, cluster :: freed, ?_, isImage⟩
  · rintro ⟨chain, ends⟩
    obtain ⟨rest, _, ends'⟩ := (WalkEnds.cons_iff inRange isNext).mp ends
    exact endless ⟨rest, ends'⟩
  · intro other member
    rcases List.mem_cons.mp member with rfl | inRest
    · exact .here inRange
    · exact .cons inRange isNext (onWalk other inRest)

/-- One round: the successor is read, and the cluster is free for the rest of the walk. -/
theorem chainFree_round {rest : Nat → FsM Unit} (geometry : Geometry s.sb s.clusterShift)
    (coherent : Coherent s) (quiet : s.Quiet) (nonzero : cluster ≠ 0)
    (goesOn : ∀ next s1, InRange s.sb cluster → linkOf s.image cluster = startOf next →
      Moved s s1 (setFat s.image cluster 0) →
      Meets (rest next) s1 (fun _ s' => Freed cluster s s')
        fun error s' => Stuck cluster error s s') :
    Meets (do
        let next ← chainNext cluster
        clusterFree cluster
        rest next) s
      (fun _ s' => Freed cluster s s') fun error s' => Stuck cluster error s s' := by
  by_cases inRange : InRange s.sb cluster
  · refine (chainNext_spec geometry.fatFits coherent inRange.positive inRange.atMost).seq ?_ ?_
    · rintro next s1 ⟨moved, outcome⟩
      have isNext : linkOf s.image cluster = startOf next := by
        unfold linkOf startOf
        rcases outcome with ⟨isEnd, rfl⟩ | ⟨notEnd, isValue, positive, _⟩
        · rw [if_pos isEnd, if_pos rfl]
        · rw [if_neg notEnd, isValue, if_neg (by omega)]
      have geometry1 := moved.same.geometry geometry
      have inRange1 : InRange s1.sb cluster := by
        rw [moved.same.sb]
        exact inRange
      refine (clusterFree_spec geometry1 moved.coherent inRange1.positive inRange1.atMost).seq
        ?_ ?_
      · intro _ s2 moved2
        rw [moved.image_eq] at moved2
        exact goesOn next s2 inRange isNext (moved.trans moved2)
      · rintro error s2 ⟨_, loud, _⟩
        exact absurd (moved.same.quiet quiet) loud
    · rintro error s1 ⟨moved, ⟨_, loud⟩ | ⟨isCorrupt, notEnd, invalid⟩⟩
      · exact absurd quiet loud
      · refine ⟨moved.still, isCorrupt, ?_, [],
          fun other member => absurd member List.not_mem_nil, moved.image_eq⟩
        rintro ⟨chain, ends⟩
        obtain ⟨rest, rfl, linked⟩ := ends.exists_cons nonzero
        have isLink : linkOf s.image cluster = some (fatAt s.image cluster) := if_neg notEnd
        rw [isLink] at linked
        obtain ⟨_, rfl, _⟩ := linked.exists_cons
        obtain ⟨positive, atMost⟩ := ends.inRange (fatAt s.image cluster) (by simp)
        omega
  · refine (chainNext_reports inRange).seq (fun _ _ impossible => impossible.elim) ?_
    rintro error s1 ⟨isCorrupt, rfl⟩
    refine ⟨.refl _, isCorrupt, ?_, [], fun other member => absurd member List.not_mem_nil, rfl⟩
    rintro ⟨chain, ends⟩
    obtain ⟨rest, rfl, _⟩ := ends.exists_cons nonzero
    exact inRange (ends.inRange cluster List.mem_cons_self)

/-- The loop, when no walk that ends is longer than the steps that are left. -/
theorem chainFreeLoop_spec (left : Nat) :
    ∀ {s : Fs} {cluster : Nat}, Geometry s.sb s.clusterShift → Coherent s → s.Quiet →
    (∀ chain, WalkEnds s.sb s.image cluster chain → chain.length ≤ left) →
    Meets (chainFreeLoop left cluster) s (fun _ s' => Freed cluster s s')
      fun error s' => Stuck cluster error s s' := by
  induction left with
  | zero =>
      intro s cluster geometry coherent quiet enough
      unfold chainFreeLoop
      refine .ite ?_ fun nonzero => ?_
      · rintro rfl
        exact .pure ⟨.refl s, [], .zero, rfl⟩
      · refine chainFree_round geometry coherent quiet nonzero ?_
        intro next s1 inRange isNext moved
        refine .throw ⟨moved.still, rfl, ?_, [cluster], ?_, moved.image_eq⟩
        · rintro ⟨chain, ends⟩
          obtain ⟨rest, rfl, _⟩ := ends.exists_cons nonzero
          exact absurd (enough _ ends) (by simp)
        · intro other member
          rw [List.mem_singleton.mp member]
          exact .here inRange
  | succ left induction =>
      intro s cluster geometry coherent quiet enough
      unfold chainFreeLoop
      refine .ite ?_ fun nonzero => ?_
      · rintro rfl
        exact .pure ⟨.refl s, [], .zero, rfl⟩
      · refine chainFree_round geometry coherent quiet nonzero ?_
        intro next s1 inRange isNext moved
        refine (induction (moved.same.geometry geometry) moved.coherent
          (moved.same.quiet quiet) ?_).mono
          (fun _ _ freed => freed.cons inRange isNext moved)
          fun _ _ stuck => stuck.cons inRange isNext moved
        intro chain ends
        rw [moved.same.sb, moved.image_eq] at ends
        have whole := enough _ ((WalkEnds.cons_iff inRange isNext).mpr ⟨chain, rfl, ends⟩)
        exact Nat.le_of_succ_le_succ whole

theorem OnWalk.inRange (onWalk : OnWalk s.sb s.image next cluster) : InRange s.sb cluster := by
  induction onWalk with
  | here inRange => exact inRange
  | next _ _ _ induction => exact induction

/-- On any FAT and from any number, `chain_free` returns exactly when the walk ends in
distinct clusters that exist, and then just these are free. Else it reports the FAT, and has
freed nothing but clusters on the walk. Outside of the FAT nothing changes. -/
theorem chainFree_exact (geometry : Geometry s.sb s.clusterShift) (coherent : Coherent s)
    (quiet : s.Quiet) (first : Nat) :
    Meets (chainFree first) s
      (fun _ s' => (∃ chain, WalkEnds s.sb s.image first chain ∧
          ∀ cluster, fatAt s'.image cluster =
            if cluster ∈ chain then 0 else fatAt s.image cluster) ∧
        ∀ sector, sector = 0 ∨ s.sb.fatSectors < sector → s'.image sector = s.image sector)
      fun error s' => error = .corrupt ∧ (¬ ∃ chain, WalkEnds s.sb s.image first chain) ∧
        (∀ cluster, fatAt s'.image cluster = fatAt s.image cluster ∨
          OnWalk s.sb s.image first cluster ∧ fatAt s'.image cluster = 0) ∧
        ∀ sector, sector = 0 ∨ s.sb.fatSectors < sector →
          s'.image sector = s.image sector := by
  have fits := geometry.fatFits
  unfold chainFree
  refine .bind (.get ?_)
  refine (chainFreeLoop_spec s.sb.clusterCount geometry coherent quiet
    fun chain ends => ends.length_le).mono ?_ ?_
  · rintro _ s' ⟨_, chain, ends, isImage⟩
    rw [isImage]
    exact ⟨⟨chain, ends, fatAt_freeAll chain s.image⟩, fun sector outside =>
      freeAll_outside chain s.image
        (fun cluster member => fits.fatSector_le (ends.inRange cluster member).atMost) outside⟩
  · rintro error s' ⟨_, isCorrupt, endless, freed, onWalk, isImage⟩
    rw [isImage]
    refine ⟨isCorrupt, endless, fun cluster => ?_, fun sector outside =>
      freeAll_outside freed s.image
        (fun cluster member => fits.fatSector_le (onWalk cluster member).inRange.atMost) outside⟩
    rw [fatAt_freeAll]
    by_cases member : cluster ∈ freed
    · rw [if_pos member]
      exact Or.inr ⟨onWalk cluster member, rfl⟩
    · rw [if_neg member]
      exact Or.inl rfl

end Freeing

/-- On a new filesystem the chain of the directory is freed. -/
theorem chainFree_exact_directory :
    ∃ s s' : Fs, s.Quiet ∧ s.sb.rootCluster ≠ 0 ∧ chainFree s.sb.rootCluster s = .ok () s' ∧
      fatAt s'.image s.sb.rootCluster = 0 := by
  rcases blank_formatted with ⟨s, formatted, quiet, _⟩
  rcases formatted.ready with ⟨F, _, _, _, ready, _⟩
  have inv := ready.between.inv
  have positive : s.sb.rootCluster ≠ 0 := by
    have isPositive := inv.geometry.root_pos
    omega
  have isRoot : (freshOwn .root).head? = some s.sb.rootCluster := by
    rw [inv.sb]
    exact inv.directory.root
  have ends : WalkEnds s.sb s.image s.sb.rootCluster (freshOwn .root) := by
    have linked := inv.accounted.chains.linked .root
    have bounds := inv.accounted.bounds .root
    rw [← inv.sb] at bounds
    refine ⟨?_, fun cluster member => ⟨(bounds cluster member).1, (bounds cluster member).2⟩,
      Linked.nodup linked⟩
    unfold startOf
    rw [if_neg positive, ← isRoot]
    exact linked
  have spec := chainFree_exact inv.geometry inv.coherent quiet s.sb.rootCluster
  cases frees : chainFree s.sb.rootCluster s with
  | error error s' => exact absurd ⟨_, ends⟩ (spec.error_of_run frees).2.1
  | ok value s' =>
      rcases (spec.ok_of_run frees).1 with ⟨chain, ends', isFat⟩
      refine ⟨s, s', quiet, positive, frees, ?_⟩
      obtain ⟨rest, rfl, _⟩ := ends'.exists_cons positive
      rw [isFat, if_pos List.mem_cons_self]

end Katela.Filesystem
