import Katela.Filesystem.Refinement

/-! # What the disk alone says

A consistent disk holds one chain for the directory and one for every file that
has clusters. They do not meet, they are long enough, and the names are valid and
different. Without failing transfers no other cluster is taken, so the free ones can
be counted. -/

namespace Katela.Filesystem

/-- The FAT leads from `first` through `cells` to the end of a chain. -/
structure FatChain (sb : SuperBlock) (image : Image) (first : Nat) (cells : List Nat) :
    Prop where
  linked : Linked (linkOf image) (some first) cells
  bounds : ∀ cluster ∈ cells, 1 ≤ cluster ∧ cluster ≤ sb.clusterCount
  nodup : cells.Nodup

/-- The directory has the chain `root` and the file in a slot has the chain
`chain`. -/
structure Consistent (F : Format) (image : Image) (root : List Nat)
    (chain : Location → List Nat) : Prop where
  label : image 0 = F.label
  directory : FatChain F.sb image F.sb.rootCluster root
  file : ∀ location, Holds F image root location →
    (entryOf image location).first ≠ 0 →
    FatChain F.sb image (entryOf image location).first (chain location)
  empty : ∀ location,
    (Holds F image root location → (entryOf image location).first = 0) →
    chain location = []
  apartRoot : ∀ location, root.Disjoint (chain location)
  apart : ∀ location other, location ≠ other →
    (chain location).Disjoint (chain other)
  size : ∀ location, Holds F image root location →
    (entryOf image location).size ≤ (chain location).length * F.clusterBytes
  valid : ∀ location, Holds F image root location →
    nameOk (storedName (entryOf image location)) = true
  distinct : ∀ location other, Holds F image root location →
    Holds F image root other →
    storedName (entryOf image location) = storedName (entryOf image other) →
    location = other

section Volumes

variable {F : Format} {image : Image} {own : Ownership}

theorem Accounted.fatChain {exact : Prop} {sb : SuperBlock} {owner : Owner} {first : Nat}
    (accounted : Accounted exact sb image own) (isFirst : (own owner).head? = some first) :
    FatChain sb image first (own owner) where
  linked := by
    rw [← isFirst]
    exact accounted.chains.linked owner
  bounds := accounted.bounds owner
  nodup := Linked.nodup (accounted.chains.linked owner)

theorem Volume.consistent (volume : Volume F image own) :
    Consistent F image (own .root) fun location => own (.slot location) where
  label := volume.label
  directory := volume.accounted.fatChain volume.directory.root
  file location held nonzero := by
    have isFirst := volume.directory.first location held
    apply volume.accounted.fatChain
    cases cells : own (.slot location) with
    | nil =>
        rw [cells, firstOf_nil] at isFirst
        exact absurd isFirst.symm nonzero
    | cons head rest =>
        rw [cells, firstOf_cons] at isFirst
        rw [List.head?_cons, isFirst]
  empty location zero := by
    by_cases held : Holds F image (own .root) location
    · apply volume.accounted.eq_nil_of_firstOf
      rw [volume.directory.first location held]
      exact zero held
    · exact volume.directory.vacant location held
  apartRoot location cluster inRoot inSlot := by
    have equal := volume.accounted.chains.apart .root (.slot location) cluster inRoot inSlot
    cases equal
  apart location other different cluster inSlot inOther := by
    have equal := volume.accounted.chains.apart (.slot location) (.slot other) cluster
      inSlot inOther
    injection equal with equal
    exact different equal
  size := volume.directory.size
  valid := volume.directory.valid
  distinct := volume.directory.distinct

end Volumes

/-! ## Counting clusters -/

section Counting

variable {F : Format} {image : Image} {root : List Nat} {chain : Location → List Nat}

theorem Format.nodup_slots (F : Format) (nodup : root.Nodup)
    (positive : ∀ cluster ∈ root, 1 ≤ cluster) : (F.slots root).Nodup := by
  unfold slots
  refine List.nodup_flatMap.mpr ⟨fun cluster _ => ?_, ?_⟩
  · refine List.nodup_flatMap.mpr ⟨fun sector _ => ?_, ?_⟩
    · refine List.Nodup.map (fun slot other equal => ?_) List.nodup_range
      injection equal
    · refine List.nodup_range.imp fun {sector other} different => ?_
      intro location inFirst inSecond
      rcases List.mem_map.mp inFirst with ⟨_, _, rfl⟩
      rcases List.mem_map.mp inSecond with ⟨_, _, equal⟩
      injection equal with equal
      exact different (by omega)
  · refine nodup.imp_of_mem fun {cluster other} member member' different => ?_
    intro location inFirst inSecond
    have here := (F.mem_slots [cluster] location).mp (by simpa [slots] using inFirst)
    have there := (F.mem_slots [other] location).mp (by simpa [slots] using inSecond)
    rcases here with ⟨_, cluster', isCluster, here⟩
    rcases there with ⟨_, other', isOther, there⟩
    rw [List.mem_singleton.mp isCluster] at here
    rw [List.mem_singleton.mp isOther] at there
    exact different (F.inCluster_unique (positive cluster member) (positive other member')
      here there)

/-- All clusters of the directory and of the files. -/
def takenClusters (F : Format) (root : List Nat) (chain : Location → List Nat) :
    List Nat :=
  root ++ (F.slots root).flatMap chain

theorem Consistent.nodup_taken (consistent : Consistent F image root chain) :
    (takenClusters F root chain).Nodup := by
  unfold takenClusters
  refine List.Nodup.append consistent.directory.nodup ?_ ?_
  · refine List.nodup_flatMap.mpr ⟨fun location _ => ?_, ?_⟩
    · by_cases some : Holds F image root location ∧ (entryOf image location).first ≠ 0
      · exact (consistent.file location some.1 some.2).nodup
      · rw [consistent.empty location fun held => by
          by_contra nonzero
          exact some ⟨held, nonzero⟩]
        exact List.nodup_nil
    · exact (F.nodup_slots consistent.directory.nodup
        fun cluster member => (consistent.directory.bounds cluster member).1).imp
        fun {location other} different => consistent.apart location other different
  · intro cluster inRoot inFiles
    rcases List.mem_flatMap.mp inFiles with ⟨location, _, inChain⟩
    exact consistent.apartRoot location inRoot inChain

/-- The free clusters below a bound. -/
def freeBelow (sb : SuperBlock) (image : Image) (bound : Nat) : List Nat :=
  (List.range bound).filter fun cluster =>
    1 ≤ cluster ∧ cluster ≤ sb.clusterCount ∧ fatAt image cluster = 0

theorem mem_freeBelow {sb : SuperBlock} {bound cluster : Nat} :
    cluster ∈ freeBelow sb image bound ↔
      cluster < bound ∧ 1 ≤ cluster ∧ cluster ≤ sb.clusterCount ∧
        fatAt image cluster = 0 := by
  simp [freeBelow]

/-- One more sector of the FAT. -/
theorem length_freeBelow_succ (sb : SuperBlock) (image : Image) (index : Nat) :
    (freeBelow sb image ((index + 1) * fatPerSector)).length =
      (freeBelow sb image (index * fatPerSector)).length +
        freeInSector sb (image (1 + index)) index := by
  have entries : ∀ entry, entry < fatPerSector →
      fatAt image (index * fatPerSector + entry) =
        (image (1 + index)).wordAt (4 * entry) := by
    intro entry less
    have quotient : (index * fatPerSector + entry) / fatPerSector = index := by
      rw [Nat.mul_comm, Nat.mul_add_div (by decide), Nat.div_eq_of_lt less, Nat.add_zero]
    have remainder : (index * fatPerSector + entry) % fatPerSector = entry := by
      rw [Nat.mul_comm, Nat.mul_add_mod, Nat.mod_eq_of_lt less]
    unfold fatAt
    rw [quotient, remainder]
  unfold freeBelow freeInSector
  rw [Nat.add_mul, Nat.one_mul, List.range_add, List.filter_append, List.length_append,
    List.filter_map, List.length_map]
  congr 2
  apply List.filter_congr
  intro entry member
  simp only [Function.comp, entries entry (List.mem_range.mp member)]

/-- The free clusters and the taken ones are all of them. -/
theorem Consistent.count (consistent : Consistent F image root chain)
    (exact : ∀ cluster, 1 ≤ cluster → cluster ≤ F.sb.clusterCount →
      (fatAt image cluster ≠ 0 ↔ cluster ∈ takenClusters F root chain))
    {bound : Nat} (enough : F.sb.clusterCount < bound) :
    (freeBelow F.sb image bound).length + (takenClusters F root chain).length =
      F.sb.clusterCount := by
  have inRange : ∀ cluster ∈ takenClusters F root chain,
      1 ≤ cluster ∧ cluster ≤ F.sb.clusterCount := by
    intro cluster member
    rcases List.mem_append.mp member with inRoot | inFiles
    · exact consistent.directory.bounds cluster inRoot
    · rcases List.mem_flatMap.mp inFiles with ⟨location, _, inChain⟩
      by_cases some : Holds F image root location ∧ (entryOf image location).first ≠ 0
      · exact (consistent.file location some.1 some.2).bounds cluster inChain
      · rw [consistent.empty location fun held => by
          by_contra nonzero
          exact some ⟨held, nonzero⟩] at inChain
        cases inChain
  have freeNodup : (freeBelow F.sb image bound).Nodup := List.nodup_range.filter _
  have apart : (freeBelow F.sb image bound).Disjoint (takenClusters F root chain) := by
    intro cluster isFree isTaken
    rcases mem_freeBelow.mp isFree with ⟨_, positive, atMost, free⟩
    exact (exact cluster positive atMost).mpr isTaken free
  have perm : (freeBelow F.sb image bound ++ takenClusters F root chain).Perm
      (List.range' 1 F.sb.clusterCount) := by
    rw [List.perm_ext_iff_of_nodup (freeNodup.append consistent.nodup_taken apart)
      List.nodup_range']
    intro cluster
    rw [List.mem_append, List.mem_range'_1, mem_freeBelow]
    constructor
    · rintro (⟨_, positive, atMost, _⟩ | isTaken)
      · omega
      · have bounds := inRange cluster isTaken
        omega
    · rintro ⟨positive, less⟩
      by_cases free : fatAt image cluster = 0
      · exact Or.inl ⟨by omega, positive, by omega, free⟩
      · exact Or.inr ((exact cluster positive (by omega)).mp free)
  have length := perm.length_eq
  rw [List.length_append, List.length_range'] at length
  exact length

theorem length_takenClusters (F : Format) (root : List Nat) (chain : Location → List Nat) :
    (takenClusters F root chain).length =
      root.length + ((F.slots root).map fun location => (chain location).length).sum := by
  unfold takenClusters
  rw [List.length_append, List.length_flatMap]

end Counting

end Katela.Filesystem
