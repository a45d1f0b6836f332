import Mathlib.Logic.Function.Basic
import Katela.Foundation.Bytes

/-! # The heap

A model of `src/kernel/mm.c`. The headers of the blocks are bytes of the heap
itself, next to the memory that is handed out, so a wrong step would be seen in
the bytes of an allocation. Addresses are 32-bit numbers and 0 is the null
pointer. -/

namespace Katela.Allocator

def heapSize : Nat := 4 * 1024 * 1024

/-- `sizeof(struct block)`: a size, a flag and a pointer. -/
def headerSize : Nat := 12

/-- The array `heap` somewhere in the memory, and the variable
`first_block`. -/
structure Heap where
  base : Nat
  memory : Nat → UInt8
  firstBlock : Nat
  base_pos : 0 < base
  base_fits : base + heapSize < wordSize

namespace Heap

def load (heap : Heap) (address : Nat) : Nat :=
  word fun index => heap.memory (address + index)

def store (heap : Heap) (address value : Nat) : Heap :=
  { heap with
    memory := fun other =>
      if address ≤ other ∧ other < address + 4 then
        wordBytes value (other - address)
      else heap.memory other }

/-! The fields of a `struct block`. -/

def size (heap : Heap) (block : Nat) : Nat := heap.load block

def free (heap : Heap) (block : Nat) : Nat := heap.load (block + 4)

def next (heap : Heap) (block : Nat) : Nat := heap.load (block + 8)

def setSize (heap : Heap) (block value : Nat) : Heap := heap.store block value

def setFree (heap : Heap) (block value : Nat) : Heap :=
  heap.store (block + 4) value

def setNext (heap : Heap) (block value : Nat) : Heap :=
  heap.store (block + 8) value

end Heap

/-- How a function ends: it returns, it calls `panic`, which does not return,
or its loops are still running after more rounds than the heap has room for
blocks. -/
inductive Outcome (α : Type) where
  | done (value : α) (heap : Heap)
  | panic
  | endless

/-- The rounds that a walk through the list can take. -/
def maxRounds : Nat := heapSize / headerSize + 1

def mmInit (heap : Heap) : Heap :=
  let first := { heap with firstBlock := heap.base }
  ((first.setSize heap.base (heapSize - headerSize)).setFree heap.base 1).setNext
    heap.base 0

/-- The part of `kmalloc` that splits a block which is larger than needed. -/
def split (heap : Heap) (current size : Nat) : Heap :=
  let newBlock := (current + headerSize + size) % wordSize
  let heap := heap.setSize newBlock (heap.size current - size - headerSize)
  let heap := heap.setFree newBlock 1
  let heap := heap.setNext newBlock (heap.next current)
  let heap := heap.setSize current size
  heap.setNext current newBlock

/-- The part of `kmalloc` for a block that is free and large enough. -/
def take (heap : Heap) (current size : Nat) : Heap :=
  let heap :=
    if heap.size current ≥ (size + headerSize + 1) % wordSize then
      split heap current size
    else heap
  heap.setFree current 0

/-- The loop of `kmalloc`. -/
def kmallocLoop (heap : Heap) (size : Nat) : (rounds current : Nat) → Outcome Nat
  | 0, _ => .endless
  | rounds + 1, current =>
      if current = 0 then .panic
      else if heap.free current ≠ 0 ∧ heap.size current ≥ size then
        .done (current + headerSize) (take heap current size)
      else kmallocLoop heap size rounds (heap.next current)

def kmalloc (heap : Heap) (size : UInt32) : Outcome Nat :=
  if size = 0 then .done 0 heap
  else
    let heap := if heap.firstBlock = 0 then mmInit heap else heap
    kmallocLoop heap size.toNat maxRounds heap.firstBlock

/-- The inner loop of `kfree`, which finds the block before `current`. -/
def findPrevious (heap : Heap) (current : Nat) :
    (rounds previous : Nat) → Option Nat
  | 0, _ => none
  | rounds + 1, previous =>
      if heap.next previous ≠ current then
        findPrevious heap current rounds (heap.next previous)
      else some previous

/-- `block->size += sizeof(struct block) + other->size` and
`block->next = other->next`. -/
def merge (heap : Heap) (block other : Nat) : Heap :=
  let heap := heap.setSize block
    ((heap.size block + (headerSize + heap.size other)) % wordSize)
  heap.setNext block (heap.next other)

/-- The part of `kfree` that joins a free block with the free one after it. -/
def mergeNext (heap : Heap) (current : Nat) : Heap :=
  if heap.next current ≠ 0 ∧ heap.free (heap.next current) ≠ 0 then
    merge heap current (heap.next current)
  else heap

/-- The part of `kfree` for the block that the pointer belongs to. -/
def release (heap : Heap) (current : Nat) : Outcome Unit :=
  let heap := heap.setFree current 1
  let heap := mergeNext heap current
  if current ≠ heap.firstBlock then
    match findPrevious heap current maxRounds heap.firstBlock with
    | none => .endless
    | some previous =>
        if heap.free previous ≠ 0 then .done () (merge heap previous current)
        else .done () heap
  else .done () heap

/-- The outer loop of `kfree`. -/
def kfreeLoop (heap : Heap) (pointer : Nat) :
    (rounds current : Nat) → Outcome Unit
  | 0, _ => .endless
  | rounds + 1, current =>
      if current = 0 then .done () heap
      else if current + headerSize = pointer then release heap current
      else kfreeLoop heap pointer rounds (heap.next current)

def kfree (heap : Heap) (pointer : Nat) : Outcome Unit :=
  if pointer = 0 then .done () heap
  else kfreeLoop heap pointer maxRounds heap.firstBlock

end Katela.Allocator
