import Katela.Foundation.LinkedList

/-! # Families of chains

A pointer map can store many lists at once. `Chains next own` says that it
stores the list `own i` for every owner `i`, and that no cell has two owners.
The rules follow the ways in which cells change hands: a fresh cell is taken,
a list is appended to another, cut in two, handed over, given up, or loses its
first cell. -/

namespace Katela

structure Chains {α ι : Type} (next : α → Option α) (own : ι → List α) :
    Prop where
  linked : ∀ owner, Linked next (own owner).head? (own owner)
  apart : ∀ owner other cell, cell ∈ own owner → cell ∈ own other →
    owner = other

namespace Chains

variable {α ι : Type} {next other : α → Option α} {own : ι → List α}
variable {owner target : ι}

/-- Only the successors of owned cells matter. -/
theorem congr (before : Chains next own)
    (agree : ∀ owner, ∀ cell ∈ own owner, other cell = next cell) :
    Chains other own where
  linked owner := (before.linked owner).congr (agree owner)
  apart := before.apart

/-- Some of the lists are given up. -/
theorem shrink {own' : ι → List α} (before : Chains next own)
    (less : ∀ owner, own' owner = own owner ∨ own' owner = []) :
    Chains next own' where
  linked owner := by
    rcases less owner with same | empty
    · rw [same]
      exact before.linked owner
    · rw [empty]
      exact Segment.nil_iff.mpr rfl
  apart owner other cell member member' := by
    have kept : ∀ holder, cell ∈ own' holder → cell ∈ own holder := by
      intro holder isIn
      rcases less holder with same | empty
      · rw [← same]
        exact isIn
      · rw [empty] at isIn
        cases isIn
    exact before.apart owner other cell (kept owner member) (kept other member')

section Owners

variable [DecidableEq ι]

/-- One owner gets another list that nobody else has a cell of. -/
theorem replace (before : Chains next own) (owner : ι) (cells : List α)
    (linked : Linked next cells.head? cells)
    (apart : ∀ other, other ≠ owner → ∀ cell ∈ cells, cell ∉ own other) :
    Chains next (Function.update own owner cells) where
  linked other := by
    by_cases equal : other = owner
    · subst equal
      simpa using linked
    · simpa [equal] using before.linked other
  apart first second cell inFirst inSecond := by
    by_cases isFirst : first = owner
    · by_cases isSecond : second = owner
      · rw [isFirst, isSecond]
      · subst isFirst
        simp only [Function.update_self] at inFirst
        rw [Function.update_of_ne isSecond] at inSecond
        exact absurd inSecond (apart second isSecond cell inFirst)
    · rw [Function.update_of_ne isFirst] at inFirst
      by_cases isSecond : second = owner
      · subst isSecond
        simp only [Function.update_self] at inSecond
        exact absurd inFirst (apart first isFirst cell inSecond)
      · rw [Function.update_of_ne isSecond] at inSecond
        exact before.apart first second cell inFirst inSecond

/-- An owner gives up its list. -/
theorem drop (before : Chains next own) (owner : ι) :
    Chains next (Function.update own owner []) :=
  before.replace owner [] rfl (by simp)

/-- An owner gives its list to another one. -/
theorem move (before : Chains next own) (different : owner ≠ target) :
    Chains next
      (Function.update (Function.update own owner []) target (own owner)) := by
  refine (before.drop owner).replace target (own owner) (before.linked owner) ?_
  intro other _ cell member
  by_cases equal : other = owner
  · subst equal
    simp
  · rw [Function.update_of_ne equal]
    intro again
    exact equal (before.apart other owner cell again member)

end Owners

section Cells

variable [DecidableEq α] [DecidableEq ι]

omit [DecidableEq ι] in
/-- Cells that nobody owns can be changed at will. -/
theorem update_unowned (before : Chains next own) {cell : α}
    (unowned : ∀ owner, cell ∉ own owner) (link : Option α) :
    Chains (Function.update next cell link) own := by
  apply before.congr
  intro owner other member
  apply Function.update_of_ne
  rintro rfl
  exact unowned owner member

/-- An owner takes a cell that nobody owns. -/
theorem alloc (before : Chains next own) {cell : α}
    (unowned : ∀ owner, cell ∉ own owner) (owner : ι) :
    Chains (Function.update next cell none)
      (Function.update own owner [cell]) := by
  refine (before.update_unowned unowned none).replace owner [cell] ?_ ?_
  · exact ⟨rfl, by simp⟩
  · intro other _ member inCell
    rw [List.mem_singleton] at inCell
    rw [inCell]
    exact unowned other

omit [DecidableEq α] in
/-- A cell belongs to nobody once its owner has given up its list. -/
theorem unowned_of_drop (before : Chains next own) {cell : α}
    (owned : cell ∈ own owner) (other : ι) :
    cell ∉ Function.update own owner [] other := by
  by_cases equal : other = owner
  · subst equal
    simp
  · rw [Function.update_of_ne equal]
    intro member
    exact equal (before.apart other owner cell member owned)

/-- The owner of a cell changes it and then has another list, of its own cells
and cells that nobody else has. -/
theorem update_owned (before : Chains next own) {cell : α}
    (owned : cell ∈ own owner) (link : Option α) (cells : List α)
    (linked : Linked (Function.update next cell link) cells.head? cells)
    (apart : ∀ other, other ≠ owner → ∀ cell ∈ cells, cell ∉ own other) :
    Chains (Function.update next cell link)
      (Function.update own owner cells) := by
  have without := (before.drop owner).update_unowned
    (before.unowned_of_drop owned) link
  have again := without.replace owner cells linked (by
    intro other different member inCells
    rw [Function.update_of_ne different]
    exact apart other different member inCells)
  rw [Function.update_idem] at again
  exact again

/-- The first cell of a list is taken off it and changed at will. -/
theorem behead (before : Chains next own) {cell : α} {rest : List α}
    (split : own owner = cell :: rest) (link : Option α) :
    Chains (Function.update next cell link)
      (Function.update own owner rest) := by
  have whole := before.linked owner
  rw [split] at whole
  have nodup := Linked.nodup whole
  have tail : Linked next rest.head? rest := by
    have linked := whole.2
    rw [Linked.start_eq_head linked] at linked
    exact linked
  refine before.update_owned (by simp [split]) link rest ?_ ?_
  · apply tail.congr
    intro member inRest
    apply Function.update_of_ne
    rintro rfl
    exact (List.nodup_cons.mp nodup).1 inRest
  · intro other different member inRest again
    have owned : member ∈ own owner := by
      rw [split]
      exact List.mem_cons_of_mem _ inRest
    exact different (before.apart other owner member again owned)

/-- The list behind a cell is cut off and given to another owner. -/
theorem cut (before : Chains next own) (different : target ≠ owner)
    {front back : List α} {last : α} (split : own owner = front ++ last :: back) :
    Chains (Function.update next last none)
      (Function.update (Function.update own owner (front ++ [last])) target
        back) := by
  have whole := before.linked owner
  have nodup := Linked.nodup whole
  rw [split] at whole nodup
  rcases Segment.append_iff.mp whole with ⟨middle, frontLinked, atLast⟩
  have parts := List.nodup_append.mp nodup
  have notInBack : last ∉ back := (List.nodup_cons.mp parts.2.1).1
  have frontAgrees : ∀ cell ∈ front,
      Function.update next last none cell = next cell := by
    intro cell member
    apply Function.update_of_ne
    rintro rfl
    exact parts.2.2 cell member cell (by simp) rfl
  have lastOwned : last ∈ own owner := by simp [split]
  have kept : Linked (Function.update next last none) (front ++ [last]).head?
      (front ++ [last]) := by
    have start : (front ++ last :: back).head? = (front ++ [last]).head? := by
      cases front <;> rfl
    rw [← start]
    exact Segment.append_iff.mpr ⟨middle, frontLinked.congr frontAgrees,
      atLast.1, by simp⟩
  have shortened := before.update_owned lastOwned none
    (front ++ [last]) kept (by
      intro other distinct cell member again
      have owned : cell ∈ own owner := by
        rw [split]
        rcases List.mem_append.mp member with inFront | isLast
        · exact List.mem_append_left _ inFront
        · rw [List.mem_singleton] at isLast
          simp [isLast]
      exact distinct (before.apart other owner cell again owned))
  refine shortened.replace target back ?_ ?_
  · have linked := atLast.2
    rw [Linked.start_eq_head linked] at linked
    apply linked.congr
    intro cell member
    apply Function.update_of_ne
    rintro rfl
    exact notInBack member
  · intro other notTarget cell inBack
    have owned : cell ∈ own owner := by simp [split, inBack]
    by_cases equal : other = owner
    · subst equal
      rw [Function.update_self]
      intro member
      rcases List.mem_append.mp member with inFront | isLast
      · exact parts.2.2 cell inFront cell (by simp [inBack]) rfl
      · rw [List.mem_singleton] at isLast
        exact notInBack (isLast ▸ inBack)
    · rw [Function.update_of_ne equal]
      intro member
      exact equal (before.apart other owner cell member owned)

/-- A list is appended to another: the last cell is made to point to it. -/
theorem append (before : Chains next own) (different : target ≠ owner)
    {front rest : List α} {last head : α} (split : own owner = front ++ [last])
    (tail : own target = head :: rest) :
    Chains (Function.update next last (some head))
      (Function.update (Function.update own target []) owner
        (own owner ++ own target)) := by
  have whole := before.linked owner
  have nodup := Linked.nodup whole
  have tailLinked := before.linked target
  rw [split] at whole nodup
  rcases Segment.append_iff.mp whole with ⟨middle, frontLinked, atLast⟩
  have lastOwned : last ∈ own owner := by simp [split]
  have frontAgrees : ∀ cell ∈ front,
      Function.update next last (some head) cell = next cell := by
    intro cell member
    apply Function.update_of_ne
    rintro rfl
    exact (List.nodup_append.mp nodup).2.2 cell member cell (by simp) rfl
  have tailAgrees : ∀ cell ∈ own target,
      Function.update next last (some head) cell = next cell := by
    intro cell member
    apply Function.update_of_ne
    rintro rfl
    exact different (before.apart target owner cell member lastOwned)
  have dropped : last ∈ Function.update own target [] owner := by
    rw [Function.update_of_ne different.symm]
    exact lastOwned
  refine (before.drop target).update_owned dropped (some head) _ ?_ ?_
  · have start : (own owner ++ own target).head? = (front ++ [last]).head? := by
      rw [split]
      cases front <;> rfl
    rw [start, split]
    refine Segment.append_iff.mpr ⟨some head, ?_, ?_⟩
    · exact Segment.append_iff.mpr ⟨middle, frontLinked.congr frontAgrees,
        atLast.1, by simp⟩
    · have moved := tailLinked.congr tailAgrees
      rw [tail] at moved ⊢
      exact moved
  · intro other distinct cell member
    by_cases equal : other = target
    · subst equal
      simp
    · rw [Function.update_of_ne equal]
      intro again
      rcases List.mem_append.mp member with inOwner | inTarget
      · exact distinct (before.apart other owner cell again inOwner)
      · exact equal (before.apart other target cell again inTarget)

end Cells

end Chains

end Katela
