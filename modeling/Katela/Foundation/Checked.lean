import Mathlib.Algebra.Ring.Nat
import Mathlib.Logic.Basic

/-! # Computations with checked accesses

A computation that ends with a value or an error of its own, or that reads or
writes outside of its memory, or that does not end in the rounds it was given. A
program that is safe has neither of the last two outcomes. -/

namespace Katela

/-! ## Positions in a list -/

section Positions

variable {α : Type} {list front rest : List α} {value : α} {position : Nat}

/-- The first element from a position on. -/
theorem getElem?_of_drop (isDrop : list.drop position = value :: rest) :
    list[position]? = some value ∧ list.drop (position + 1) = rest := by
  constructor
  · rw [← List.head?_drop, isDrop]
    rfl
  · rw [← List.tail_drop, isDrop]
    rfl

theorem lt_length_of_drop (isDrop : list.drop position = value :: rest) :
    position < list.length := by
  have isValue := (getElem?_of_drop isDrop).1
  exact (List.getElem?_eq_some_iff.mp isValue).1

/-- Some elements from a position on. -/
theorem drop_of_drop (isDrop : list.drop position = front ++ rest) :
    list.drop (position + front.length) = rest := by
  rw [← List.drop_drop, isDrop, List.drop_left]

end Positions

/-! ## Outcomes -/

inductive Checked (ε α : Type) where
  | done (value : α)
  | failed (error : ε)
  | outside
  | endless
  deriving DecidableEq, Repr

namespace Checked

variable {ε δ α β : Type}

def bind (computation : Checked ε α) (next : α → Checked ε β) : Checked ε β :=
  match computation with
  | .done value => next value
  | .failed error => .failed error
  | .outside => .outside
  | .endless => .endless

instance : Monad (Checked ε) where
  pure := .done
  bind := bind

/-- The element at an index of a list that is the whole memory. -/
def get (memory : List α) (index : Nat) : Checked ε α :=
  match memory[index]? with
  | some value => .done value
  | none => .outside

/-- A part of the memory, which has to lie inside of it. -/
def slice (memory : List α) (offset size : Nat) : Checked ε (List α) :=
  if offset + size ≤ memory.length then .done ((memory.drop offset).take size)
  else .outside

/-- Go on after an error too. -/
def recover (computation : Checked ε α) (handler : ε → Checked δ β)
    (next : α → Checked δ β) : Checked δ β :=
  match computation with
  | .done value => next value
  | .failed error => handler error
  | .outside => .outside
  | .endless => .endless

/-- The accesses are inside and the loops end. -/
def Safe : Checked ε α → Prop
  | .done _ => True
  | .failed _ => True
  | .outside => False
  | .endless => False

@[simp] theorem pure_eq (value : α) : (pure value : Checked ε α) = .done value := rfl

@[simp] theorem done_bind (value : α) (next : α → Checked ε β) :
    (.done value >>= next) = next value := rfl

@[simp] theorem failed_bind (error : ε) (next : α → Checked ε β) :
    ((.failed error : Checked ε α) >>= next) = .failed error := rfl

theorem get_eq {memory : List α} {index : Nat} {value : α}
    (isValue : memory[index]? = some value) :
    (get memory index : Checked ε α) = .done value := by
  unfold get
  rw [isValue]

theorem get_of_lt {memory : List α} {index : Nat} (bound : index < memory.length) :
    (get memory index : Checked ε α) = .done memory[index] :=
  get_eq (List.getElem?_eq_getElem bound)

theorem slice_of_le {memory : List α} {offset size : Nat}
    (bound : offset + size ≤ memory.length) :
    (slice memory offset size : Checked ε (List α)) =
      .done ((memory.drop offset).take size) :=
  if_pos bound

theorem get_of_drop {memory rest : List α} {index : Nat} {value : α}
    (isDrop : memory.drop index = value :: rest) :
    (get memory index : Checked ε α) = .done value :=
  get_eq (getElem?_of_drop isDrop).1

theorem slice_of_drop {memory middle rest : List α} {offset size : Nat}
    (isDrop : memory.drop offset = middle ++ rest) (isSize : middle.length = size)
    (inside : offset ≤ memory.length) :
    (slice memory offset size : Checked ε (List α)) = .done middle := by
  have isLength := congrArg List.length isDrop
  rw [List.length_drop, List.length_append] at isLength
  rw [slice_of_le (by omega), isDrop, List.take_left' isSize]

/-- What a computation that returned went through. -/
theorem bind_eq_done {computation : Checked ε α} {next : α → Checked ε β} {result : β}
    (isDone : (computation >>= next) = .done result) :
    ∃ value, computation = .done value ∧ next value = .done result := by
  cases computation with
  | done value => exact ⟨value, rfl, isDone⟩
  | failed error => cases isDone
  | outside => cases isDone
  | endless => cases isDone

theorem recover_eq_done {computation : Checked ε α} {handler : ε → Checked δ β}
    {next : α → Checked δ β} {result : β}
    (isDone : computation.recover handler next = .done result) :
    (∃ value, computation = .done value ∧ next value = .done result) ∨
      ∃ error, computation = .failed error ∧ handler error = .done result := by
  cases computation with
  | done value => exact Or.inl ⟨value, rfl, isDone⟩
  | failed error => exact Or.inr ⟨error, rfl, isDone⟩
  | outside => cases isDone
  | endless => cases isDone

theorem drop_of_get {memory : List α} {index : Nat} {value : α}
    (isDone : (get memory index : Checked ε α) = .done value) :
    memory.drop index = value :: memory.drop (index + 1) := by
  unfold get at isDone
  split at isDone
  · next found isValue =>
      rcases List.getElem?_eq_some_iff.mp isValue with ⟨bound, isFound⟩
      cases isDone
      rw [List.drop_eq_getElem_cons bound, isFound]
  · cases isDone

theorem Safe.bind {computation : Checked ε α} {next : α → Checked ε β}
    (safe : computation.Safe)
    (rest : ∀ value, computation = .done value → (next value).Safe) :
    (computation >>= next).Safe := by
  cases computation with
  | done value => exact rest value rfl
  | failed error => trivial
  | outside => exact safe
  | endless => exact safe

theorem Safe.recover {computation : Checked ε α} {handler : ε → Checked δ β}
    {next : α → Checked δ β} (safe : computation.Safe)
    (handled : ∀ error, (handler error).Safe)
    (rest : ∀ value, computation = .done value → (next value).Safe) :
    (computation.recover handler next).Safe := by
  cases computation with
  | done value => exact rest value rfl
  | failed error => exact handled error
  | outside => exact safe
  | endless => exact safe

end Checked

end Katela
