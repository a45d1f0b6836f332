import Mathlib.Algebra.Ring.Nat
import Mathlib.Logic.Function.Basic
import Mathlib.Data.List.Basic
import Mathlib.Data.List.Nodup

/-! # Linked lists in a pointer map

A pointer map `next` sends every cell to its successor, or to `none` where a
list ends. The file relates such a map to the lists of cells it stores and
gives the laws by which lists are split, framed, extended and repaired. -/

namespace Katela

/-- Following `next` from `start` visits exactly `cells`, in order, and then
arrives at `stop`. -/
def Segment (next : α → Option α) : Option α → List α → Option α → Prop
  | start, [], stop => start = stop
  | start, head :: rest, stop => start = some head ∧ Segment next (next head) rest stop

/-- A list that runs to its end: a segment that stops at no cell. -/
@[reducible] def Linked (next : α → Option α) (start : Option α)
    (cells : List α) : Prop :=
  Segment next start cells none

namespace Segment

variable {next other : α → Option α} {start stop : Option α} {cells : List α}

@[simp] theorem nil_iff : Segment next start [] stop ↔ start = stop :=
  Iff.rfl

@[simp] theorem cons_iff {head : α} :
    Segment next start (head :: cells) stop ↔
      start = some head ∧ Segment next (next head) cells stop :=
  Iff.rfl

theorem append_iff {left right : List α} :
    Segment next start (left ++ right) stop ↔
      ∃ middle, Segment next start left middle ∧
        Segment next middle right stop := by
  induction left generalizing start with
  | nil => simp
  | cons head rest induction =>
      simp only [List.cons_append, cons_iff, induction]
      constructor
      · rintro ⟨atHead, middle, left, right⟩
        exact ⟨middle, ⟨atHead, left⟩, right⟩
      · rintro ⟨middle, ⟨atHead, left⟩, right⟩
        exact ⟨atHead, middle, left, right⟩

/-- Only the successors of the listed cells matter. -/
theorem congr (holds : Segment next start cells stop)
    (agree : ∀ cell ∈ cells, other cell = next cell) :
    Segment other start cells stop := by
  induction cells generalizing start with
  | nil => exact holds
  | cons head rest induction =>
      refine ⟨holds.1, ?_⟩
      rw [agree head (by simp)]
      exact induction holds.2 fun cell member => agree cell (by simp [member])

/-- The successor of the last cell is where the segment stops. -/
theorem next_last {last : α}
    (holds : Segment next start (cells ++ [last]) stop) : next last = stop := by
  rcases append_iff.mp holds with ⟨middle, _, final⟩
  exact final.2

/-- A segment can be entered at any of its cells. -/
theorem suffix {left right : List α} {cell : α}
    (holds : Segment next start (left ++ cell :: right) stop) :
    Segment next (some cell) (cell :: right) stop := by
  rcases append_iff.mp holds with ⟨middle, _, final⟩
  exact ⟨rfl, final.2⟩

end Segment

namespace Linked

variable {next other : α → Option α} {start : Option α}
variable {cells left right : List α}

theorem unique (first : Linked next start left)
    (second : Linked next start right) : left = right := by
  induction left generalizing start right with
  | nil =>
      cases right with
      | nil => rfl
      | cons head rest =>
          have impossible := first.symm.trans second.1
          cases impossible
  | cons head rest induction =>
      cases right with
      | nil =>
          have impossible := second.symm.trans first.1
          cases impossible
      | cons other others =>
          have equal : some head = some other := first.1.symm.trans second.1
          cases equal
          rw [induction first.2 second.2]

/-- Two lists through one cell agree from that cell on. -/
theorem tail_unique {start' : Option α} {cell : α}
    {before after before' after' : List α}
    (first : Linked next start (before ++ cell :: after))
    (second : Linked next start' (before' ++ cell :: after')) :
    after = after' := by
  have equal := unique first.suffix second.suffix
  injection equal

/-- A list that ends visits no cell twice. -/
theorem nodup (holds : Linked next start cells) : cells.Nodup := by
  induction cells generalizing start with
  | nil => exact List.nodup_nil
  | cons head rest induction =>
      refine List.nodup_cons.mpr ⟨?_, induction holds.2⟩
      intro member
      rcases List.append_of_mem member with ⟨before, after, equal⟩
      have again : Linked next start ((head :: before) ++ head :: after) := by
        simpa [equal] using holds
      have once : Linked next start ([] ++ head :: rest) := holds
      have lengths := congrArg List.length (tail_unique once again)
      rw [equal] at lengths
      simp at lengths
      omega

theorem exists_cons {head : α} (holds : Linked next (some head) cells) :
    ∃ rest, cells = head :: rest ∧ Linked next (next head) rest := by
  cases cells with
  | nil => cases holds
  | cons first rest =>
      have equal : some head = some first := holds.1
      cases equal
      exact ⟨rest, rfl, holds.2⟩

/-- The start of a list is its first cell. -/
theorem start_eq_head (holds : Linked next start cells) : start = cells.head? := by
  cases cells with
  | nil => exact holds
  | cons head rest => exact holds.1

/-- The successor of a cell is the next cell of the list, or none behind the last one. -/
theorem next_getElem? {index : Nat} {cell : α} (holds : Linked next start cells)
    (isCell : cells[index]? = some cell) : next cell = cells[index + 1]? := by
  induction cells generalizing start index with
  | nil => cases isCell
  | cons head rest induction =>
      cases index with
      | zero =>
          cases isCell
          rw [start_eq_head holds.2, List.head?_eq_getElem?]
          rfl
      | succ index => exact induction holds.2 isCell

/-- Lists of two maps from one start: where the maps differ on the first list, both lists
visit a cell at which they differ. -/
theorem common_change {cells' : List α} {cell : α} (first : Linked next start cells)
    (second : Linked other start cells') (member : cell ∈ cells)
    (changed : other cell ≠ next cell) :
    ∃ common, common ∈ cells' ∧ other common ≠ next common := by
  induction cells generalizing start cells' with
  | nil => cases member
  | cons head rest induction =>
      have again : Linked other (some head) cells' := by
        rw [← first.1]
        exact second
      rcases again.exists_cons with ⟨rest', rfl, second'⟩
      by_cases atHead : other head = next head
      · rcases List.mem_cons.mp member with rfl | inRest
        · exact absurd atHead changed
        · rw [atHead] at second'
          rcases induction first.2 second' inRest with ⟨common, inRest', differs⟩
          exact ⟨common, List.mem_cons_of_mem _ inRest', differs⟩
      · exact ⟨head, List.mem_cons_self, atHead⟩

/-- Appending a fresh cell: it ends the list and the old last cell points to
it. -/
theorem snoc {last fresh : α}
    (holds : Linked next start (cells ++ [last]))
    (frame : ∀ cell ∈ cells, other cell = next cell)
    (link : other last = some fresh) (ends : other fresh = none) :
    Linked other start (cells ++ [last] ++ [fresh]) := by
  rcases Segment.append_iff.mp holds with ⟨middle, front, final⟩
  refine Segment.append_iff.mpr ⟨some fresh, ?_, rfl, ends⟩
  exact Segment.append_iff.mpr ⟨middle, front.congr frame, final.1, link⟩

/-- Unlinking a cell from behind its predecessor. -/
theorem unlink {before after : List α} {previous cell : α}
    (holds : Linked next start (before ++ previous :: cell :: after))
    (frame : ∀ x ∈ before ++ after, other x = next x)
    (relink : other previous = next cell) :
    Linked other start (before ++ previous :: after) := by
  rcases Segment.append_iff.mp holds with ⟨middle, front, final⟩
  refine Segment.append_iff.mpr ⟨middle, front.congr ?_, final.1, ?_⟩
  · intro x member
    exact frame x (by simp [member])
  · rw [relink]
    refine Segment.congr final.2.2 ?_
    intro x member
    exact frame x (by simp [member])

end Linked

end Katela
