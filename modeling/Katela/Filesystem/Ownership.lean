import Katela.Foundation.Chains
import Katela.Filesystem.Cache

/-! # Who owns the clusters

The FAT stores one chain for the directory, one for every file, one for every
open file whose chain the directory does not show yet, and one that the running
function holds. Without failing transfers nothing else is taken. -/

namespace Katela.Filesystem

inductive Owner where
  | root
  | slot (location : Location)
  | handle (file : FileRef)
  /-- The function that is running. -/
  | spare
  deriving DecidableEq

abbrev Ownership : Type := Owner → List Nat

/-- The FAT as a pointer map. -/
def linkOf (image : Image) (cluster : Nat) : Option Nat :=
  if fatAt image cluster = chainEnd then none else some (fatAt image cluster)

theorem linkOf_setFat (image : Image) (cluster : Nat) {value : Nat}
    (bounded : value < wordSize) :
    linkOf (setFat image cluster value) =
      Function.update (linkOf image) cluster
        (if value = chainEnd then none else some value) := by
  funext other
  by_cases equal : other = cluster
  · subst equal
    simp [linkOf, fatAt_setFat_self image other bounded]
  · simp [linkOf, fatAt_setFat_other image equal, equal]

theorem chainEnd_lt : chainEnd < wordSize := by decide

/-- The first cluster of a chain, or 0 if it is empty. -/
def firstOf (cells : List Nat) : Nat := cells.head?.getD 0

@[simp] theorem firstOf_nil : firstOf [] = 0 := rfl

@[simp] theorem firstOf_cons (cell : Nat) (cells : List Nat) :
    firstOf (cell :: cells) = cell := rfl

theorem firstOf_append {front back : List Nat} (nonempty : front ≠ []) :
    firstOf (front ++ back) = firstOf front := by
  cases front with
  | nil => exact absurd rfl nonempty
  | cons => rfl

/-- The FAT stores the chains of all owners and, if `exact`, nothing else. -/
structure Accounted (exact : Prop) (sb : SuperBlock) (image : Image)
    (own : Ownership) : Prop where
  chains : Chains (linkOf image) own
  bounds : ∀ owner, ∀ cluster ∈ own owner, 1 ≤ cluster ∧ cluster ≤ sb.clusterCount
  complete : exact → ∀ cluster, 1 ≤ cluster → cluster ≤ sb.clusterCount →
    fatAt image cluster ≠ 0 → ∃ owner, cluster ∈ own owner

namespace Accounted

variable {exact : Prop} {sb : SuperBlock} {image image' : Image}
variable {own : Ownership} {owner target : Owner} {cluster : Nat}

theorem weaken (before : Accounted exact sb image own) :
    Accounted False sb image own :=
  ⟨before.chains, before.bounds, fun impossible => impossible.elim⟩

/-- Only the sectors of the FAT matter. -/
theorem congr (before : Accounted exact sb image own)
    (same : ∀ cluster, 1 ≤ cluster → cluster ≤ sb.clusterCount →
      fatAt image' cluster = fatAt image cluster) :
    Accounted exact sb image' own where
  chains := before.chains.congr fun owner cluster member => by
    have bounds := before.bounds owner cluster member
    simp [linkOf, same cluster bounds.1 bounds.2]
  bounds := before.bounds
  complete isExact cluster positive inRange taken := by
    rw [same cluster positive inRange] at taken
    exact before.complete isExact cluster positive inRange taken

theorem firstOf_pos (before : Accounted exact sb image own)
    (nonempty : own owner ≠ []) : 1 ≤ firstOf (own owner) := by
  cases cells : own owner with
  | nil => exact absurd cells nonempty
  | cons head rest => exact (before.bounds owner head (by simp [cells])).1

theorem eq_nil_of_firstOf (before : Accounted exact sb image own)
    (empty : firstOf (own owner) = 0) : own owner = [] := by
  by_contra nonempty
  have positive := before.firstOf_pos nonempty
  omega

/-- A cluster that somebody owns is not free. -/
theorem taken (before : Accounted exact sb image own)
    (member : cluster ∈ own owner) : fatAt image cluster ≠ 0 := by
  intro free
  rcases List.append_of_mem member with ⟨front, back, split⟩
  have linked := before.chains.linked owner
  rw [split] at linked
  have next := (Segment.suffix linked).2
  have notEnd : (0 : Nat) ≠ chainEnd := by decide
  simp only [linkOf, free, notEnd, if_false] at next
  cases back with
  | nil => cases next
  | cons head rest =>
      have isZero : some 0 = some head := next.1
      injection isZero with isZero
      have bounds := before.bounds owner head (by simp [split])
      omega

/-- Two owners with the same first cluster are the same. -/
theorem owner_eq (before : Accounted exact sb image own)
    (nonempty : own owner ≠ []) (same : firstOf (own owner) = firstOf (own target)) :
    owner = target := by
  have positive := before.firstOf_pos nonempty
  cases cells : own owner with
  | nil => exact absurd cells nonempty
  | cons head rest =>
      cases others : own target with
      | nil =>
          rw [others] at same
          simp only [firstOf_nil] at same
          omega
      | cons head' rest' =>
          rw [cells, others] at same
          simp only [firstOf_cons] at same
          exact before.chains.apart owner target head (by simp [cells])
            (by simp [others, same])

/-- A free cluster is taken. -/
theorem alloc (before : Accounted exact sb image own) (positive : 1 ≤ cluster)
    (inRange : cluster ≤ sb.clusterCount) (free : fatAt image cluster = 0)
    (owner : Owner) (empty : own owner = []) :
    Accounted exact sb (setFat image cluster chainEnd)
      (Function.update own owner [cluster]) where
  chains := by
    rw [linkOf_setFat image cluster chainEnd_lt, if_pos rfl]
    exact before.chains.alloc (fun other member => before.taken member free) owner
  bounds other member inChain := by
    by_cases equal : other = owner
    · subst equal
      rw [Function.update_self, List.mem_singleton] at inChain
      rw [inChain]
      exact ⟨positive, inRange⟩
    · rw [Function.update_of_ne equal] at inChain
      exact before.bounds other member inChain
  complete isExact other otherPos otherLe taken := by
    by_cases equal : other = cluster
    · exact ⟨owner, by simp [equal]⟩
    · rw [fatAt_setFat_other image equal] at taken
      rcases before.complete isExact other otherPos otherLe taken with
        ⟨holder, member⟩
      refine ⟨holder, ?_⟩
      by_cases same : holder = owner
      · subst same
        rw [empty] at member
        cases member
      · rw [Function.update_of_ne same]
        exact member

/-- The chain of one owner is appended to that of another. -/
theorem append (before : Accounted exact sb image own) (geometry : sb.clusterCount < chainEnd)
    (different : target ≠ owner) {front rest : List Nat} {last head : Nat}
    (split : own owner = front ++ [last]) (tail : own target = head :: rest) :
    Accounted exact sb (setFat image last head)
      (Function.update (Function.update own target []) owner
        (own owner ++ own target)) where
  chains := by
    have bound := (before.bounds target head (by simp [tail])).2
    have notEnd : head ≠ chainEnd := by omega
    have small : head < wordSize := Nat.lt_trans (by omega) chainEnd_lt
    rw [linkOf_setFat image last small, if_neg notEnd]
    exact before.chains.append different split tail
  bounds other member inChain := by
    by_cases isOwner : other = owner
    · subst isOwner
      rw [Function.update_self, List.mem_append] at inChain
      rcases inChain with inOwner | inTarget
      · exact before.bounds other member inOwner
      · exact before.bounds target member inTarget
    · rw [Function.update_of_ne isOwner] at inChain
      by_cases isTarget : other = target
      · subst isTarget
        simp at inChain
      · rw [Function.update_of_ne isTarget] at inChain
        exact before.bounds other member inChain
  complete isExact other positive inRange taken := by
    have wasTaken : fatAt image other ≠ 0 := by
      by_cases equal : other = last
      · subst equal
        have inChain : other ∈ own owner := by simp [split]
        exact before.taken inChain
      · rw [fatAt_setFat_other image equal] at taken
        exact taken
    rcases before.complete isExact other positive inRange wasTaken with
      ⟨holder, member⟩
    by_cases isOwner : holder = owner
    · subst isOwner
      exact ⟨holder, by simp [member]⟩
    · by_cases isTarget : holder = target
      · subst isTarget
        exact ⟨owner, by simp [member]⟩
      · exact ⟨holder, by simpa [isOwner, isTarget] using member⟩

/-- A chain is cut behind one of its clusters. -/
theorem cut (before : Accounted exact sb image own) (different : target ≠ owner)
    (empty : own target = []) {front back : List Nat} {last : Nat}
    (split : own owner = front ++ last :: back) :
    Accounted exact sb (setFat image last chainEnd)
      (Function.update (Function.update own owner (front ++ [last])) target
        back) where
  chains := by
    rw [linkOf_setFat image last chainEnd_lt, if_pos rfl]
    exact before.chains.cut different split
  bounds other member inChain := by
    by_cases isTarget : other = target
    · subst isTarget
      rw [Function.update_self] at inChain
      exact before.bounds owner member (by simp [split, inChain])
    · rw [Function.update_of_ne isTarget] at inChain
      by_cases isOwner : other = owner
      · subst isOwner
        rw [Function.update_self] at inChain
        apply before.bounds other member
        rw [split]
        rcases List.mem_append.mp inChain with inFront | isLast
        · exact List.mem_append_left _ inFront
        · rw [List.mem_singleton] at isLast
          simp [isLast]
      · rw [Function.update_of_ne isOwner] at inChain
        exact before.bounds other member inChain
  complete isExact other positive inRange taken := by
    have wasTaken : fatAt image other ≠ 0 := by
      by_cases equal : other = last
      · subst equal
        have inChain : other ∈ own owner := by simp [split]
        exact before.taken inChain
      · rw [fatAt_setFat_other image equal] at taken
        exact taken
    rcases before.complete isExact other positive inRange wasTaken with
      ⟨holder, member⟩
    by_cases isTarget : holder = target
    · subst isTarget
      rw [empty] at member
      cases member
    · by_cases isOwner : holder = owner
      · subst isOwner
        rw [split] at member
        rcases List.mem_append.mp member with inFront | inBack
        · exact ⟨holder, by simp [different.symm, inFront]⟩
        · rcases List.mem_cons.mp inBack with isLast | inBack
          · exact ⟨holder, by simp [different.symm, isLast]⟩
          · exact ⟨target, by simp [inBack]⟩
      · exact ⟨holder, by simpa [isOwner, isTarget] using member⟩

/-- The first cluster of a chain is freed. -/
theorem behead (before : Accounted exact sb image own) {rest : List Nat}
    (split : own owner = cluster :: rest) :
    Accounted exact sb (setFat image cluster 0)
      (Function.update own owner rest) where
  chains := by
    have bounded : (0 : Nat) < wordSize := by decide
    rw [linkOf_setFat image cluster bounded]
    exact before.chains.behead split _
  bounds other member inChain := by
    by_cases equal : other = owner
    · subst equal
      rw [Function.update_self] at inChain
      exact before.bounds other member (by simp [split, inChain])
    · rw [Function.update_of_ne equal] at inChain
      exact before.bounds other member inChain
  complete isExact other positive inRange taken := by
    have bounded : (0 : Nat) < wordSize := by decide
    by_cases equal : other = cluster
    · subst equal
      exact absurd (fatAt_setFat_self image other bounded) taken
    · rw [fatAt_setFat_other image equal] at taken
      rcases before.complete isExact other positive inRange taken with
        ⟨holder, member⟩
      by_cases isOwner : holder = owner
      · subst isOwner
        rw [split] at member
        rcases List.mem_cons.mp member with isFirst | inRest
        · exact absurd isFirst equal
        · exact ⟨holder, by simpa using inRest⟩
      · exact ⟨holder, by simpa [isOwner] using member⟩

/-- A chain changes hands. -/
theorem move (before : Accounted exact sb image own) (different : owner ≠ target)
    (empty : exact → own target = []) :
    Accounted exact sb image
      (Function.update (Function.update own owner []) target (own owner)) where
  chains := before.chains.move different
  bounds other member inChain := by
    by_cases isTarget : other = target
    · subst isTarget
      rw [Function.update_self] at inChain
      exact before.bounds owner member inChain
    · rw [Function.update_of_ne isTarget] at inChain
      by_cases isOwner : other = owner
      · subst isOwner
        simp at inChain
      · rw [Function.update_of_ne isOwner] at inChain
        exact before.bounds other member inChain
  complete isExact other positive inRange taken := by
    rcases before.complete isExact other positive inRange taken with
      ⟨holder, member⟩
    by_cases isTarget : holder = target
    · subst isTarget
      rw [empty isExact] at member
      cases member
    · by_cases isOwner : holder = owner
      · subst isOwner
        exact ⟨target, by simpa using member⟩
      · exact ⟨holder, by simpa [isOwner, isTarget] using member⟩

/-- Some of the chains are lost. -/
theorem shrink {own' : Ownership} (before : Accounted exact sb image own)
    (less : ∀ owner, own' owner = own owner ∨
      own' owner = [] ∧ (exact → own owner = [])) :
    Accounted exact sb image own' where
  chains := before.chains.shrink fun owner => (less owner).imp_right And.left
  bounds owner member inChain := by
    rcases less owner with same | ⟨empty, _⟩
    · rw [same] at inChain
      exact before.bounds owner member inChain
    · rw [empty] at inChain
      cases inChain
  complete isExact other positive inRange taken := by
    rcases before.complete isExact other positive inRange taken with
      ⟨holder, member⟩
    rcases less holder with same | ⟨_, empty⟩
    · exact ⟨holder, by rw [same]; exact member⟩
    · rw [empty isExact] at member
      cases member

/-- A chain is lost, which happens only to an empty one if nothing may be. -/
theorem drop (before : Accounted exact sb image own) (owner : Owner)
    (empty : exact → own owner = []) :
    Accounted exact sb image (Function.update own owner []) := by
  apply before.shrink
  intro other
  by_cases equal : other = owner
  · subst equal
    exact Or.inr ⟨by simp, empty⟩
  · exact Or.inl (by simp [equal])

/-- Following the FAT from a cluster of a chain. -/
theorem link_of_split (before : Accounted exact sb image own)
    {front back : List Nat} (split : own owner = front ++ cluster :: back) :
    linkOf image cluster = back.head? := by
  have linked := before.chains.linked owner
  rw [split] at linked
  have next := (Segment.suffix linked).2
  exact Linked.start_eq_head next

end Accounted

end Katela.Filesystem
