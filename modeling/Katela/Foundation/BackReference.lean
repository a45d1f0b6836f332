import Mathlib.Algebra.Ring.Nat
import Mathlib.Data.List.Range

/-! # Copies from earlier output

A back reference repeats what was produced some distance ago, one element after
the other, so that it can reach into its own copies. -/

namespace Katela

variable {α : Type*}

/-- The first elements of a sequence. -/
def upTo (source : Nat → α) (count : Nat) : List α :=
  (List.range count).map source

@[simp] theorem length_upTo (source : Nat → α) (count : Nat) :
    (upTo source count).length = count := by
  simp [upTo]

theorem upTo_succ (source : Nat → α) (count : Nat) :
    upTo source (count + 1) = upTo source count ++ [source count] := by
  simp [upTo, List.range_succ]

theorem upTo_getElem? (source : Nat → α) {count index : Nat} (bound : index < count) :
    (upTo source count)[index]? = some (source index) := by
  simp [upTo, List.getElem?_range bound]

theorem upTo_congr {source source' : Nat → α} {count : Nat}
    (same : ∀ index, index < count → source index = source' index) :
    upTo source count = upTo source' count := by
  apply List.map_congr_left
  intro index member
  exact same index (List.mem_range.mp member)

theorem upTo_add (source : Nat → α) (count more : Nat) :
    upTo source (count + more) =
      upTo source count ++ upTo (fun index => source (count + index)) more := by
  induction more with
  | zero => simp [upTo]
  | succ more induction =>
      rw [← Nat.add_assoc, upTo_succ, upTo_succ, induction, List.append_assoc]

theorem upTo_injective {source source' : Nat → α} {count : Nat}
    (same : upTo source count = upTo source' count) {index : Nat}
    (bound : index < count) : source index = source' index := by
  have element := congrArg (fun list : List α => list[index]?) same
  simpa [upTo_getElem? _ bound] using element

/-- The elements after `count` more, each of which repeats the one `offset`
before. -/
def copyBack (offset : Nat) : (count : Nat) → List α → List α
  | 0, produced => produced
  | count + 1, produced =>
      copyBack offset count
        (produced ++ produced[produced.length - offset]?.toList)

theorem length_copyBack {offset : Nat} (positive : 0 < offset) (count : Nat)
    {produced : List α} (reaches : offset ≤ produced.length) :
    (copyBack offset count produced).length = produced.length + count := by
  induction count generalizing produced with
  | zero => rfl
  | succ count induction =>
      have bound : produced.length - offset < produced.length := by omega
      have longer : (produced ++ produced[produced.length - offset]?.toList).length =
          produced.length + 1 := by
        simp [List.getElem?_eq_getElem bound]
      rw [copyBack, induction (by omega), longer]
      omega

/-- A sequence that repeats itself for a while is what the copies give. -/
theorem copyBack_upTo {source : Nat → α} {offset : Nat} (positive : 0 < offset)
    (count : Nat) {start : Nat} (reaches : offset ≤ start)
    (repeats : ∀ index, index < count →
      source (start - offset + index) = source (start + index)) :
    copyBack offset count (upTo source start) = upTo source (start + count) := by
  induction count generalizing start with
  | zero => rfl
  | succ count induction =>
      have next : upTo source start ++
          (upTo source start)[(upTo source start).length - offset]?.toList =
            upTo source (start + 1) := by
        have first := repeats 0 (Nat.succ_pos count)
        rw [Nat.add_zero, Nat.add_zero] at first
        rw [length_upTo, upTo_getElem? source (by omega), first, upTo_succ]
        rfl
      have rest : ∀ index, index < count →
          source (start + 1 - offset + index) = source (start + 1 + index) := by
        intro index less
        have shifted := repeats (index + 1) (by omega)
        rw [show start + 1 - offset + index = start - offset + (index + 1) by omega,
          shifted]
        congr 1
        omega
      rw [copyBack, next, induction (by omega) rest]
      congr 1
      omega

end Katela
