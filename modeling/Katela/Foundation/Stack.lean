import Katela.Foundation.Bytes

/-! # Stacks in memory

Words in a memory of bytes, and a stack that grows towards the lower addresses. -/

namespace Katela

/-- What lies at each address. -/
abbrev Ram : Type := Nat → UInt8

namespace Ram

variable {ram ram' ram'' : Ram} {address : Nat} {value : UInt32} {values : List UInt32}
variable {Here There : Nat → Prop}

/-- A little-endian word. -/
def load (ram : Ram) (address : Nat) : UInt32 :=
  UInt32.ofNat (word fun i => ram (address + i))

def store (ram : Ram) (address : Nat) (value : UInt32) : Ram := fun place =>
  if address ≤ place ∧ place < address + 4 then wordBytes value.toNat (place - address)
  else ram place

/-- The words that start at an address, one after the other. -/
def Holds (ram : Ram) : Nat → List UInt32 → Prop
  | _, [] => True
  | address, value :: rest => ram.load address = value ∧ ram.Holds (address + 4) rest

/-- Nothing changed at some places. -/
def Same (Here : Nat → Prop) (ram ram' : Ram) : Prop :=
  ∀ place, Here place → ram' place = ram place

theorem Same.refl (ram : Ram) : Same Here ram ram := fun _ _ => rfl

theorem Same.trans (first : Same Here ram ram') (second : Same Here ram' ram'') :
    Same Here ram ram'' :=
  fun place here => (second place here).trans (first place here)

theorem Same.mono (same : Same Here ram ram') (less : ∀ place, There place → Here place) :
    Same There ram ram' :=
  fun place there => same place (less place there)

theorem load_store_self (ram : Ram) (address : Nat) (value : UInt32) :
    (ram.store address value).load address = value := by
  have bytes : word (fun i => ram.store address value (address + i)) =
      word (wordBytes value.toNat) := by
    simp [word, store]
  rw [load, bytes, word_wordBytes]
  simp [wordSize]

theorem store_same (ram : Ram) (address : Nat) (value : UInt32) :
    Same (fun place => place < address ∨ address + 4 ≤ place) ram
      (ram.store address value) := by
  intro place outside
  exact if_neg (by omega)

theorem Same.load_eq (same : Same Here ram ram')
    (inside : ∀ i, i < 4 → Here (address + i)) : ram'.load address = ram.load address := by
  have first := same (address + 0) (inside 0 (by omega))
  have second := same (address + 1) (inside 1 (by omega))
  have third := same (address + 2) (inside 2 (by omega))
  have fourth := same (address + 3) (inside 3 (by omega))
  simp only [load, word, first, second, third, fourth]

theorem Holds.mono (holds : ram.Holds address values) (same : Same Here ram ram')
    (inside : ∀ place, address ≤ place → place < address + 4 * values.length → Here place) :
    ram'.Holds address values := by
  induction values generalizing address with
  | nil => trivial
  | cons value rest ih =>
      rw [List.length_cons] at inside
      refine ⟨?_, ih holds.2 ?_⟩
      · rw [← holds.1]
        exact same.load_eq fun i small => inside _ (by omega) (by omega)
      · intro place atLeast below
        exact inside place (by omega) (by omega)

theorem Holds.load (holds : ram.Holds address values) {i : Nat}
    (isValue : values[i]? = some value) : ram.load (address + 4 * i) = value := by
  induction values generalizing address i with
  | nil => cases isValue
  | cons first rest ih =>
      cases i with
      | zero =>
          cases isValue
          exact holds.1
      | succ i =>
          have later := ih holds.2 isValue
          rwa [Nat.add_assoc, Nat.add_comm 4] at later

theorem holds_append {more : List UInt32} :
    ram.Holds address (values ++ more) ↔
      ram.Holds address values ∧ ram.Holds (address + 4 * values.length) more := by
  induction values generalizing address with
  | nil => simp [Holds]
  | cons value rest ih =>
      have next : address + 4 + 4 * rest.length = address + 4 * (rest.length + 1) := by omega
      rw [List.cons_append, Holds, ih, Holds, and_assoc, List.length_cons, next]

end Ram

/-! ## The stack -/

structure Stack where
  pointer : UInt32
  ram : Ram

namespace Stack

def push (stack : Stack) (value : UInt32) : Stack where
  pointer := stack.pointer - 4
  ram := stack.ram.store (stack.pointer - 4).toNat value

/-- The values are pushed from the first one to the last one. -/
def pushAll (stack : Stack) (values : List UInt32) : Stack := values.foldl push stack

theorem pushAll_append (stack : Stack) (values more : List UInt32) :
    stack.pushAll (values ++ more) = (stack.pushAll values).pushAll more :=
  List.foldl_append

theorem toNat_sub_four {pointer : UInt32} (room : 4 ≤ pointer.toNat) :
    (pointer - 4).toNat = pointer.toNat - 4 :=
  UInt32.toNat_sub_of_le pointer 4 (UInt32.le_iff_toNat_le.mpr room)

/-- Where the values are that were pushed, and what else is in memory. -/
structure Pushed (values : List UInt32) (stack stack' : Stack) : Prop where
  pointer : stack'.pointer.toNat = stack.pointer.toNat - 4 * values.length
  holds : stack'.ram.Holds stack'.pointer.toNat values.reverse
  same : Ram.Same (fun place => place < stack'.pointer.toNat ∨ stack.pointer.toNat ≤ place)
    stack.ram stack'.ram

theorem pushAll_spec (values : List UInt32) : ∀ {stack : Stack},
    4 * values.length ≤ stack.pointer.toNat →
      Pushed values stack (stack.pushAll values) := by
  induction values with
  | nil =>
      intro stack _
      exact ⟨rfl, trivial, .refl _⟩
  | cons value rest ih =>
      intro stack room
      rw [List.length_cons] at room
      have isPointer : (stack.pointer - 4).toNat = stack.pointer.toNat - 4 :=
        toNat_sub_four (by omega)
      have atNext : (stack.push value).pointer.toNat = stack.pointer.toNat - 4 := isPointer
      rcases @ih (stack.push value) (by omega) with ⟨pointer, holds, same⟩
      change Pushed _ stack ((stack.push value).pushAll rest)
      generalize (stack.push value).pushAll rest = last at pointer holds same
      have first : Ram.Same (fun place => place < stack.pointer.toNat - 4 ∨
          stack.pointer.toNat ≤ place) stack.ram (stack.push value).ram := by
        refine (Ram.store_same stack.ram (stack.pointer - 4).toNat value).mono ?_
        intro place outside
        omega
      refine ⟨?_, ?_, ?_⟩
      · rw [List.length_cons]
        omega
      · rw [List.reverse_cons, Ram.holds_append, List.length_reverse]
        refine ⟨holds, ?_, trivial⟩
        have place : last.pointer.toNat + 4 * rest.length = (stack.pointer - 4).toNat := by
          omega
        rw [place, same.load_eq fun i _ => Or.inr (by omega)]
        exact Ram.load_store_self _ _ _
      · refine Ram.Same.trans (first.mono ?_) (same.mono ?_)
        · intro place outside
          omega
        · intro place outside
          omega

end Stack

end Katela
