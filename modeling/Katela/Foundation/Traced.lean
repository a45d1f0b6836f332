import Mathlib.Data.List.Basic

/-! # Computations that keep their reads

A computation together with the places it read, in their order. What it reads is described
by one predicate on places, with an equivalence for each way to build a computation. -/

namespace Katela

structure Traced (ι α : Type) where
  value : α
  reads : List ι

namespace Traced

variable {ι α β : Type}

instance : Monad (Traced ι) where
  pure value := ⟨value, []⟩
  bind computation next :=
    ⟨(next computation.value).value, computation.reads ++ (next computation.value).reads⟩

/-- One read, with the value that is found. -/
def read (place : ι) (value : α) : Traced ι α := ⟨value, [place]⟩

/-- All reads are at allowed places. -/
def Within (allowed : ι → Prop) (computation : Traced ι α) : Prop :=
  ∀ place ∈ computation.reads, allowed place

variable {allowed : ι → Prop} {computation : Traced ι α} {next : α → Traced ι β}

@[simp] theorem pure_value (value : α) : (pure value : Traced ι α).value = value := rfl

@[simp] theorem read_value (place : ι) (value : α) : (read place value).value = value := rfl

@[simp] theorem bind_value :
    (computation >>= next).value = (next computation.value).value := rfl

@[simp] theorem pure_within (value : α) : Within allowed (pure value : Traced ι α) := nofun

@[simp] theorem read_within (place : ι) (value : α) :
    Within allowed (read place value) ↔ allowed place :=
  List.forall_mem_singleton

@[simp] theorem bind_within :
    Within allowed (computation >>= next) ↔
      Within allowed computation ∧ Within allowed (next computation.value) :=
  List.forall_mem_append

end Traced

end Katela
