import Mathlib.Data.Nat.ModEq

/-! # Rings of slots

Entries are numbered in the order in which they are put into a ring, and each lies in
the slot of its number modulo the number of slots. -/

namespace Katela

/-- Two numbers less than a turn apart have the same slot only if they are equal. -/
theorem slot_eq_iff {slots first second : Nat} (ordered : first ≤ second)
    (near : second < first + slots) : first % slots = second % slots ↔ first = second := by
  constructor
  · intro same
    have turn := Nat.sub_mod_eq_zero_of_mod_eq same.symm
    rw [Nat.mod_eq_of_lt (by omega)] at turn
    omega
  · rintro rfl
    rfl

/-- The slot after the last one is the first one again when the ring is full. -/
theorem slot_full_iff {slots consumed produced : Nat} (ordered : consumed ≤ produced)
    (near : produced < consumed + slots) :
    (produced + 1) % slots = consumed % slots ↔ produced + 1 = consumed + slots := by
  by_cases isFull : produced + 1 = consumed + slots
  · rw [isFull, Nat.add_mod_right]
    exact ⟨fun _ => rfl, fun _ => rfl⟩
  · have apart := @slot_eq_iff slots consumed (produced + 1) (by omega) (by omega)
    constructor
    · intro same
      have equal := apart.mp same.symm
      omega
    · exact fun impossible => absurd impossible isFull

theorem next_slot (slots number : Nat) : (number % slots + 1) % slots = (number + 1) % slots :=
  Nat.mod_add_mod number slots 1

/-! ## Lists that grow at their end -/

section Growing

variable {α : Type} {list : List α} {value last : α} {number : Nat}

theorem getElem?_of_append (found : (list ++ [last])[number]? = some value) :
    list[number]? = some value ∨ (number = list.length ∧ value = last) := by
  by_cases isLast : number = list.length
  · rw [isLast, List.getElem?_append_right (Nat.le_refl _), Nat.sub_self] at found
    cases found
    exact Or.inr ⟨isLast, rfl⟩
  · have inside := (List.getElem?_eq_some_iff.mp found).1
    rw [List.length_append, List.length_singleton] at inside
    rw [List.getElem?_append_left (by omega)] at found
    exact Or.inl found

theorem getElem?_append_some (last : α) (found : list[number]? = some value) :
    (list ++ [last])[number]? = some value := by
  have inside := (List.getElem?_eq_some_iff.mp found).1
  rw [List.getElem?_append_left inside]
  exact found

end Growing

end Katela
