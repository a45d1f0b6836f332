import Mathlib.Data.List.Chain
import Katela.Allocator.Model

/-! # The blocks tile the heap

`Laid` says that the headers of a part of the heap describe blocks which follow
each other without gaps. Every step of the allocator replaces a few neighbouring
blocks by others on the same bytes. -/

namespace Katela.Allocator

/-- A block as its header describes it. -/
structure Cell where
  address : Nat
  size : Nat
  free : Bool
  deriving DecidableEq, Repr

namespace Cell

/-- The address behind the block. -/
def stop (cell : Cell) : Nat := cell.address + headerSize + cell.size

/-- The address that `kmalloc` returns for the block. -/
def payload (cell : Cell) : Nat := cell.address + headerSize

end Cell

/-! ## Headers in memory -/

namespace Heap

variable {heap heap' : Heap} {address other value : Nat}

@[simp] theorem base_store (heap : Heap) (address value : Nat) :
    (heap.store address value).base = heap.base := rfl

@[simp] theorem firstBlock_store (heap : Heap) (address value : Nat) :
    (heap.store address value).firstBlock = heap.firstBlock := rfl

theorem memory_store_other (outside : other < address ∨ address + 4 ≤ other) :
    (heap.store address value).memory other = heap.memory other := by
  have apart : ¬ (address ≤ other ∧ other < address + 4) := by omega
  simp only [store, apart, if_false]

theorem load_congr
    (same : ∀ index, index < 4 →
      heap'.memory (address + index) = heap.memory (address + index)) :
    heap'.load address = heap.load address := by
  simp only [load, word, same 0 (by decide), same 1 (by decide),
    same 2 (by decide), same 3 (by decide)]

theorem load_store_self (small : value < wordSize) :
    (heap.store address value).load address = value := by
  have bytes : ∀ index, index < 4 →
      (heap.store address value).memory (address + index) =
        wordBytes value index := by
    intro index less
    have inside : address ≤ address + index ∧ address + index < address + 4 := by
      omega
    simp only [store, inside, and_self, if_true, Nat.add_sub_cancel_left]
  have whole : (heap.store address value).load address =
      word (wordBytes value) := by
    simp only [load, word, bytes 0 (by decide), bytes 1 (by decide),
      bytes 2 (by decide), bytes 3 (by decide)]
  rw [whole, word_wordBytes, Nat.mod_eq_of_lt small]

theorem load_store_other (apart : other + 4 ≤ address ∨ address + 4 ≤ other) :
    (heap.store address value).load other = heap.load other := by
  apply load_congr
  intro index less
  exact memory_store_other (by omega)

end Heap

/-- The header at the address of a cell. The pointer to the next block is null
for the block that ends the heap. -/
structure Header (heap : Heap) (cell : Cell) : Prop where
  size : heap.size cell.address = cell.size
  free : heap.free cell.address = if cell.free then 1 else 0
  next : heap.next cell.address =
    if cell.stop = heap.base + heapSize then 0 else cell.stop

/-- Two heaps with the same bytes in a header. -/
def SameHeader (heap heap' : Heap) (address : Nat) : Prop :=
  ∀ index, index < headerSize →
    heap'.memory (address + index) = heap.memory (address + index)

theorem Header.congr {heap heap' : Heap} {cell : Cell} (header : Header heap cell)
    (base : heap'.base = heap.base) (same : SameHeader heap heap' cell.address) :
    Header heap' cell := by
  have field : ∀ offset, offset + 4 ≤ headerSize →
      heap'.load (cell.address + offset) = heap.load (cell.address + offset) := by
    intro offset fits
    apply Heap.load_congr
    intro index less
    rw [Nat.add_assoc]
    exact same (offset + index) (by omega)
  constructor
  · exact (field 0 (by decide)).trans header.size
  · exact (field 4 (by decide)).trans header.free
  · rw [base]
    exact (field 8 (by decide)).trans header.next

/-! ## Blocks that follow each other -/

/-- The cells follow each other from one address to another, and their headers
say so. -/
def Laid (heap : Heap) : (start : Nat) → List Cell → (stop : Nat) → Prop
  | start, [], stop => start = stop
  | start, cell :: rest, stop =>
      cell.address = start ∧ Header heap cell ∧ Laid heap cell.stop rest stop

namespace Laid

variable {heap heap' : Heap} {start stop : Nat} {cells front back : List Cell}
variable {cell : Cell}

theorem append_iff : Laid heap start (front ++ back) stop ↔
    ∃ middle, Laid heap start front middle ∧ Laid heap middle back stop := by
  induction front generalizing start with
  | nil =>
      constructor
      · exact fun laid => ⟨start, rfl, laid⟩
      · rintro ⟨middle, rfl, laid⟩
        exact laid
  | cons cell front induction =>
      constructor
      · rintro ⟨isStart, header, laid⟩
        rcases induction.mp laid with ⟨middle, first, second⟩
        exact ⟨middle, ⟨isStart, header, first⟩, second⟩
      · rintro ⟨middle, ⟨isStart, header, first⟩, second⟩
        exact ⟨isStart, header, induction.mpr ⟨middle, first, second⟩⟩

theorem congr (laid : Laid heap start cells stop) (base : heap'.base = heap.base)
    (same : ∀ cell ∈ cells, SameHeader heap heap' cell.address) :
    Laid heap' start cells stop := by
  induction cells generalizing start with
  | nil => exact laid
  | cons cell cells induction =>
      rcases laid with ⟨isStart, header, laid⟩
      exact ⟨isStart, header.congr base (same cell (by simp)),
        induction laid fun other member => same other (by simp [member])⟩

/-- The cells lie between the two addresses. -/
theorem bounds (laid : Laid heap start cells stop) :
    start ≤ stop ∧ ∀ cell ∈ cells, start ≤ cell.address ∧ cell.stop ≤ stop := by
  induction cells generalizing start with
  | nil => exact ⟨Nat.le_of_eq laid, fun _ impossible => by cases impossible⟩
  | cons cell cells induction =>
      rcases laid with ⟨rfl, header, laid⟩
      rcases induction laid with ⟨order, others⟩
      have own : cell.address ≤ cell.stop := by
        unfold Cell.stop
        omega
      refine ⟨by omega, fun other member => ?_⟩
      rcases List.mem_cons.mp member with rfl | member
      · exact ⟨Nat.le_refl _, order⟩
      · have inside := others other member
        exact ⟨by omega, inside.2⟩

/-- Every block takes a header at least. -/
theorem length_le (laid : Laid heap start cells stop) :
    start + cells.length * headerSize ≤ stop := by
  induction cells generalizing start with
  | nil =>
      rw [List.length_nil, Nat.zero_mul]
      exact Nat.le_of_eq laid
  | cons cell cells induction =>
      rcases laid with ⟨rfl, header, laid⟩
      have shorter := induction laid
      unfold Cell.stop at shorter
      rw [List.length_cons, Nat.succ_mul]
      omega

/-- Two cells of the list are the same or lie apart. -/
theorem apart (laid : Laid heap start cells stop) {other : Cell}
    (member : cell ∈ cells) (member' : other ∈ cells) :
    cell = other ∨ cell.stop ≤ other.address ∨ other.stop ≤ cell.address := by
  induction cells generalizing start with
  | nil => cases member
  | cons head cells induction =>
      rcases laid with ⟨rfl, header, laid⟩
      have rest := laid.bounds.2
      rcases List.mem_cons.mp member with isHead | inRest
      · rcases List.mem_cons.mp member' with isHead' | inRest'
        · exact Or.inl (isHead.trans isHead'.symm)
        · rw [isHead]
          exact Or.inr (Or.inl (rest other inRest').1)
      · rcases List.mem_cons.mp member' with isHead' | inRest'
        · rw [isHead']
          exact Or.inr (Or.inr (rest cell inRest).1)
        · exact induction laid inRest inRest'

/-- Some neighbouring blocks are replaced by others on the same bytes. -/
theorem replace {middle middle' : Nat} {new : List Cell}
    (first : Laid heap start front middle) (last : Laid heap middle' back stop)
    (base : heap'.base = heap.base)
    (same : ∀ address, address < middle ∨ middle' ≤ address →
      heap'.memory address = heap.memory address)
    (laid : Laid heap' middle new middle') :
    Laid heap' start (front ++ (new ++ back)) stop := by
  apply append_iff.mpr
  refine ⟨middle, first.congr base fun cell member => ?_,
    append_iff.mpr ⟨middle', laid, last.congr base fun cell member => ?_⟩⟩
  · intro index less
    have inside := (first.bounds.2 cell member).2
    unfold Cell.stop at inside
    exact same _ (Or.inl (by omega))
  · intro index less
    have inside := (last.bounds.2 cell member).1
    exact same _ (Or.inr (by omega))

end Laid

/-- The whole heap in blocks, of which no two neighbours are free. -/
structure Tiled (heap : Heap) (cells : List Cell) : Prop where
  first : heap.firstBlock = heap.base
  laid : Laid heap heap.base cells (heap.base + heapSize)
  coalesced : cells.IsChain fun cell next => ¬ (cell.free = true ∧ next.free = true)

/-! ## Taking a block -/

section Take

variable {heap : Heap} {cell : Cell} {size : Nat}

/-- The blocks that take the place of a free block which is handed out. -/
def taken (cell : Cell) (size : Nat) : List Cell :=
  if cell.size ≥ size + headerSize + 1 then
    [⟨cell.address, size, false⟩,
      ⟨cell.address + headerSize + size, cell.size - size - headerSize, true⟩]
  else [⟨cell.address, cell.size, false⟩]

theorem take_laid (header : Header heap cell) (fits : size ≤ cell.size)
    (lower : heap.base ≤ cell.address) (upper : cell.stop ≤ heap.base + heapSize) :
    Laid (take heap cell.address size) cell.address (taken cell size) cell.stop := by
  have word : wordSize = 2 ^ 32 := rfl
  have bound := heap.base_fits
  have positive := heap.base_pos
  have isHeader : headerSize = 12 := rfl
  have isStop : cell.stop = cell.address + headerSize + cell.size := rfl
  have isSize : heap.load cell.address = cell.size := header.size
  have isNext : heap.load (cell.address + 8) =
    if cell.stop = heap.base + heapSize then 0 else cell.stop := header.next
  have noWrap : (size + headerSize + 1) % wordSize = size + headerSize + 1 :=
    Nat.mod_eq_of_lt (by omega)
  unfold take taken
  rw [header.size, noWrap]
  by_cases splits : cell.size ≥ size + headerSize + 1
  · rw [if_pos splits, if_pos splits]
    have address : (cell.address + headerSize + size) % wordSize =
        cell.address + headerSize + size := Nat.mod_eq_of_lt (by omega)
    have nextBound : (if cell.stop = heap.base + heapSize then 0 else cell.stop) <
        wordSize := by
      split <;> omega
    have behind : cell.address + headerSize + size ≠ heap.base + heapSize := by omega
    have rest : cell.address + headerSize + size + headerSize +
        (cell.size - size - headerSize) = cell.stop := by omega
    simp only [split, address, Heap.setSize, Heap.setFree, Heap.setNext, Heap.size,
      Heap.next]
    generalize isNew : cell.address + headerSize + size = new at *
    -- The header of the new block lies behind the one of the block itself.
    have away : cell.address + 12 ≤ new := by omega
    refine ⟨rfl, ⟨?_, ?_, ?_⟩, isNew.symm, ⟨?_, ?_, ?_⟩, rest⟩
    · change Heap.load _ cell.address = size
      rw [Heap.load_store_other (by omega), Heap.load_store_other (by omega),
        Heap.load_store_self (by omega)]
    · change Heap.load _ (cell.address + 4) = 0
      rw [Heap.load_store_self (by omega)]
    · have isStop' : Cell.stop ⟨cell.address, size, false⟩ = new := isNew
      change Heap.load _ (cell.address + 8) = _
      rw [isStop', Heap.load_store_other (by omega), Heap.load_store_self (by omega)]
      exact (if_neg behind).symm
    · change Heap.load _ new = cell.size - size - headerSize
      rw [Heap.load_store_other (by omega), Heap.load_store_other (by omega),
        Heap.load_store_other (by omega), Heap.load_store_other (by omega),
        Heap.load_store_other (by omega), Heap.load_store_self (by omega), isSize]
    · change Heap.load _ (new + 4) = 1
      rw [Heap.load_store_other (by omega), Heap.load_store_other (by omega),
        Heap.load_store_other (by omega), Heap.load_store_other (by omega),
        Heap.load_store_self (by omega)]
    · have isStop' : Cell.stop ⟨new, cell.size - size - headerSize, true⟩ =
          cell.stop := rest
      have stored : ∀ value, ((heap.store new value).store (new + 4) 1).load
          (cell.address + 8) =
            if cell.stop = heap.base + heapSize then 0 else cell.stop := by
        intro value
        rw [Heap.load_store_other (by omega), Heap.load_store_other (by omega), isNext]
      change Heap.load _ (new + 8) = _
      rw [isStop', stored, Heap.load_store_other (by omega),
        Heap.load_store_other (by omega), Heap.load_store_other (by omega),
        Heap.load_store_self nextBound]
      rfl
  · rw [if_neg splits, if_neg splits]
    refine ⟨rfl, ⟨?_, ?_, ?_⟩, rfl⟩
    · exact (Heap.load_store_other (Or.inl (Nat.le_refl _))).trans header.size
    · exact Heap.load_store_self (by omega)
    · exact (Heap.load_store_other (Or.inr (Nat.le_refl _))).trans header.next

/-- Only bytes of the block change. -/
theorem take_memory (header : Header heap cell)
    (fits : size ≤ cell.size) (lower : heap.base ≤ cell.address)
    (upper : cell.stop ≤ heap.base + heapSize) {address : Nat}
    (outside : address < cell.address ∨ cell.stop ≤ address) :
    (take heap cell.address size).memory address = heap.memory address := by
  have word : wordSize = 2 ^ 32 := rfl
  have bound := heap.base_fits
  have positive := heap.base_pos
  have isHeader : headerSize = 12 := rfl
  have isStop : cell.stop = cell.address + headerSize + cell.size := rfl
  have noWrap : (size + headerSize + 1) % wordSize = size + headerSize + 1 :=
    Nat.mod_eq_of_lt (by omega)
  unfold take
  rw [header.size, noWrap]
  by_cases splits : cell.size ≥ size + headerSize + 1
  · have isNew : (cell.address + headerSize + size) % wordSize =
        cell.address + headerSize + size := Nat.mod_eq_of_lt (by omega)
    rw [if_pos splits]
    simp only [split, isNew, Heap.setSize, Heap.setFree, Heap.setNext]
    rw [Heap.memory_store_other (by omega), Heap.memory_store_other (by omega),
      Heap.memory_store_other (by omega), Heap.memory_store_other (by omega),
      Heap.memory_store_other (by omega), Heap.memory_store_other (by omega)]
  · rw [if_neg splits]
    exact Heap.memory_store_other (by omega)

theorem take_static (heap : Heap) (current size : Nat) :
    (take heap current size).base = heap.base ∧
      (take heap current size).firstBlock = heap.firstBlock := by
  unfold take
  split
  · exact ⟨rfl, rfl⟩
  · exact ⟨rfl, rfl⟩

end Take

/-! ## Giving a block back -/

section Merge

variable {heap : Heap} {cell next : Cell} {start stop : Nat}
variable {front back : List Cell}

/-- Two neighbouring blocks as one. -/
def joined (cell next : Cell) : Cell :=
  ⟨cell.address, cell.size + headerSize + next.size, cell.free⟩

theorem stop_joined (adjacent : next.address = cell.stop) :
    (joined cell next).stop = next.stop := by
  simp only [joined, Cell.stop] at *
  omega

theorem merge_header (header : Header heap cell) (header' : Header heap next)
    (adjacent : next.address = cell.stop)
    (upper : next.stop ≤ heap.base + heapSize) :
    Header (merge heap cell.address next.address) (joined cell next) := by
  have bound := heap.base_fits
  have isHeader : headerSize = 12 := rfl
  have isStop : cell.stop = cell.address + headerSize + cell.size := rfl
  have isStop' : next.stop = next.address + headerSize + next.size := rfl
  have isSize : heap.load cell.address = cell.size := header.size
  have isSize' : heap.load next.address = next.size := header'.size
  have isFree : heap.load (cell.address + 4) = if cell.free then 1 else 0 :=
    header.free
  have isNext : heap.load (next.address + 8) =
    if next.stop = heap.base + heapSize then 0 else next.stop := header'.next
  have sum : (cell.size + (headerSize + next.size)) % wordSize =
      cell.size + headerSize + next.size := by
    rw [Nat.mod_eq_of_lt (by omega)]
    omega
  have nextBound : (if next.stop = heap.base + heapSize then 0 else next.stop) <
      wordSize := by
    split <;> omega
  simp only [merge, Heap.setSize, Heap.setNext, Heap.size, Heap.next, isSize, isSize',
    sum]
  constructor
  · change Heap.load _ cell.address = cell.size + headerSize + next.size
    rw [Heap.load_store_other (by omega), Heap.load_store_self (by omega)]
  · change Heap.load _ (cell.address + 4) = if cell.free then 1 else 0
    rw [Heap.load_store_other (by omega), Heap.load_store_other (by omega), isFree]
  · have stored : ∀ value, (heap.store cell.address value).load (next.address + 8) =
        if next.stop = heap.base + heapSize then 0 else next.stop := by
      intro value
      rw [Heap.load_store_other (by omega), isNext]
    change Heap.load _ (cell.address + 8) = _
    rw [stop_joined adjacent, stored, Heap.load_store_self nextBound]
    rfl

/-- A merge changes the header of the first block only. -/
theorem merge_memory (heap : Heap) {block other address : Nat}
    (outside : address < block ∨ block + headerSize ≤ address) :
    (merge heap block other).memory address = heap.memory address := by
  have isHeader : headerSize = 12 := rfl
  simp only [merge, Heap.setSize, Heap.setNext]
  rw [Heap.memory_store_other (by omega), Heap.memory_store_other (by omega)]

theorem Laid.merge (laid : Laid heap start (front ++ cell :: next :: back) stop)
    (inside : stop = heap.base + heapSize) :
    Laid (merge heap cell.address next.address) start
      (front ++ joined cell next :: back) stop := by
  rcases append_iff.mp laid with ⟨middle, first, rfl, header, adjacent, header', last⟩
  have isStop : cell.stop = cell.address + headerSize + cell.size := rfl
  have isStop' : next.stop = next.address + headerSize + next.size := rfl
  have upper := last.bounds.1
  have laid' : Laid (Allocator.merge heap cell.address next.address) cell.address
      [joined cell next] next.stop :=
    ⟨rfl, merge_header header header' adjacent (by omega), stop_joined adjacent⟩
  refine first.replace last ?_ ?_ laid'
  · rfl
  · intro address outside
    exact merge_memory heap (by omega)

theorem Laid.setFree (laid : Laid heap start (front ++ cell :: back) stop) :
    Laid (heap.setFree cell.address 1) start
      (front ++ { cell with free := true } :: back) stop := by
  rcases append_iff.mp laid with ⟨middle, first, rfl, header, last⟩
  have isHeader : headerSize = 12 := rfl
  have isStop : cell.stop = cell.address + headerSize + cell.size := rfl
  have laid' : Laid (heap.setFree cell.address 1) cell.address
      [{ cell with free := true }] cell.stop := by
    refine ⟨rfl, ⟨?_, ?_, ?_⟩, rfl⟩
    · exact (Heap.load_store_other (Or.inl (Nat.le_refl _))).trans header.size
    · exact Heap.load_store_self (by decide)
    · exact (Heap.load_store_other (Or.inr (Nat.le_refl _))).trans header.next
  refine first.replace last ?_ ?_ laid'
  · rfl
  · intro address outside
    exact Heap.memory_store_other (by omega)

end Merge

end Katela.Allocator
