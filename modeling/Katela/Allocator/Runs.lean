import Katela.Allocator.Calls

/-! # Runs of the allocator

Any calls of `kmalloc` and `kfree` from boot, with any pointers, between which
the callers write to the memory that they hold. -/

namespace Katela.Allocator

/-- A pointer that `kmalloc` returned and the size that was asked for. -/
structure Allocation where
  pointer : Nat
  size : Nat
  deriving DecidableEq, Repr

/-- The heaps that can be reached from boot, with the allocations that were not
freed since and whether a call of `kmalloc` asked for a size other than 0. -/
inductive Reaches : Heap → List Allocation → Bool → Prop where
  | boot {heap : Heap} (unused : heap.firstBlock = 0) : Reaches heap [] false
  | kmalloc {heap heap' : Heap} {live : List Allocation} {used : Bool}
      {pointer : Nat} (size : UInt32) (before : Reaches heap live used)
      (done : kmalloc heap size = .done pointer heap') :
      Reaches heap'
        (if pointer = 0 then live else ⟨pointer, size.toNat⟩ :: live)
        (used || decide (size ≠ 0))
  | kfree {heap heap' : Heap} {live : List Allocation} {used : Bool} (pointer : Nat)
      (before : Reaches heap live used)
      (done : kfree heap pointer = .done () heap') :
      Reaches heap' (live.filter fun allocation => allocation.pointer ≠ pointer) used
  | write {heap : Heap} {live : List Allocation} {used : Bool}
      {allocation : Allocation} {address : Nat} (value : UInt8)
      (before : Reaches heap live used) (held : allocation ∈ live)
      (lower : allocation.pointer ≤ address)
      (upper : address < allocation.pointer + allocation.size) :
      Reaches { heap with memory := Function.update heap.memory address value }
        live used

/-- The blocks that the list goes through from an address on. -/
def BlockList (heap : Heap) : Nat → List Cell → Prop
  | address, [] => address = 0
  | address, cell :: rest => address ≠ 0 ∧
      cell = ⟨address, heap.size address, decide (heap.free address ≠ 0)⟩ ∧
      BlockList heap (heap.next address) rest

/-- Each block follows the one before, and the last one ends at `stop`. -/
def Tiles : (start : Nat) → List Cell → (stop : Nat) → Prop
  | start, [], stop => start = stop
  | start, cell :: rest, stop => cell.address = start ∧ Tiles cell.stop rest stop

section Runs

variable {heap heap' : Heap} {live : List Allocation} {cells cells' : List Cell}
variable {cell : Cell} {start stop pointer : Nat}

theorem Laid.tiles (laid : Laid heap start cells stop) : Tiles start cells stop := by
  induction cells generalizing start with
  | nil => exact laid
  | cons cell cells induction => exact ⟨laid.1, induction laid.2.2⟩

theorem Laid.blockList (positive : 0 < start)
    (laid : Laid heap start cells (heap.base + heapSize)) :
    BlockList heap (linkTo heap start) cells := by
  induction cells generalizing start with
  | nil => exact if_pos laid
  | cons cell cells induction =>
      have link := laid.linkTo_eq
      rcases laid with ⟨isStart, header, rest⟩
      have isNext : heap.next cell.address = linkTo heap cell.stop := header.next
      have isStop : cell.stop = cell.address + headerSize + cell.size := rfl
      rw [link]
      refine ⟨by omega, ?_, ?_⟩
      · rw [header.size, header.free]
        rcases cell with ⟨address, size, free⟩
        cases free with
        | true => rfl
        | false => rfl
      · rw [isNext]
        exact induction (by omega) rest

theorem BlockList.unique {address : Nat} (first : BlockList heap address cells)
    (second : BlockList heap address cells') : cells = cells' := by
  induction cells generalizing address cells' with
  | nil =>
      cases cells' with
      | nil => rfl
      | cons => exact absurd first second.1
  | cons cell cells induction =>
      cases cells' with
      | nil => exact absurd second first.1
      | cons cell' cells' =>
          rw [first.2.1, second.2.1, induction first.2.2 second.2.2]

theorem Tiled.blockList (tiled : Tiled heap cells) :
    BlockList heap heap.firstBlock cells := by
  have list := tiled.laid.blockList heap.base_pos
  have large : 0 < heapSize := by decide
  have isBase : linkTo heap heap.base = heap.base := if_neg (by omega)
  rw [isBase] at list
  rw [tiled.first]
  exact list

/-! ## Allocations and blocks -/

/-- The blocks that are not free are the allocations. -/
structure Owned (live : List Allocation) (cells : List Cell) : Prop where
  block : ∀ allocation ∈ live, ∃ cell ∈ cells, cell.free = false ∧
    cell.payload = allocation.pointer ∧ allocation.size ≤ cell.size
  owner : ∀ cell ∈ cells, cell.free = false →
    ∃ allocation ∈ live, allocation.pointer = cell.payload
  distinct : live.Pairwise fun allocation other =>
    allocation.pointer ≠ other.pointer

/-- A heap that was set up, or one before the first allocation. -/
def Sound (heap : Heap) (live : List Allocation) (used : Bool) : Prop :=
  used = false ∧ heap.firstBlock = 0 ∧ live = [] ∨
    used = true ∧ ∃ cells, Tiled heap cells ∧ Owned live cells

/-- The heap with its first block, as `kmalloc` uses it. -/
def started (heap : Heap) : Heap :=
  if heap.firstBlock = 0 then mmInit heap else heap

theorem Sound.started {used : Bool} (sound : Sound heap live used) :
    ∃ cells, Tiled (started heap) cells ∧ Owned live cells := by
  unfold Allocator.started
  rcases sound with ⟨_, unused, rfl⟩ | ⟨_, cells, tiled, owned⟩
  · rw [if_pos unused]
    refine ⟨_, mmInit_tiled heap, fun _ impossible => (by cases impossible), ?_,
      List.Pairwise.nil⟩
    intro cell member notFree
    rw [List.mem_singleton] at member
    rw [member] at notFree
    cases notFree
  · have positive := heap.base_pos
    have used : heap.firstBlock ≠ 0 := by
      rw [tiled.first]
      omega
    rw [if_neg used]
    exact ⟨cells, tiled, owned⟩

/-- A free block was handed out. -/
theorem Owned.take {front back : List Cell} {size : Nat}
    (tiled : Tiled heap (front ++ cell :: back))
    (owned : Owned live (front ++ cell :: back)) (isFree : cell.free = true)
    (fits : size ≤ cell.size) :
    Owned (⟨cell.payload, size⟩ :: live)
      (front ++ (Allocator.taken cell size ++ back)) := by
  have apart : ∀ other ∈ front ++ cell :: back, cell = other ∨
      cell.stop ≤ other.address ∨ other.stop ≤ cell.address :=
    fun other member => tiled.laid.apart (by simp) member
  -- The block at the front of the replacement is the one that is handed out.
  have first : ∃ taken ∈ Allocator.taken cell size, taken.free = false ∧
      taken.payload = cell.payload ∧ size ≤ taken.size := by
    unfold taken
    split
    · exact ⟨_, List.mem_cons_self, rfl, rfl, Nat.le_refl _⟩
    · exact ⟨_, List.mem_cons_self, rfl, rfl, fits⟩
  have only : ∀ other ∈ taken cell size, other.free = false →
      other.payload = cell.payload := by
    unfold taken
    intro other member notFree
    split at member
    · rcases List.mem_cons.mp member with rfl | member
      · rfl
      · rw [List.mem_singleton] at member
        rw [member] at notFree
        cases notFree
    · rw [List.mem_singleton] at member
      rw [member]
      rfl
  constructor
  · intro allocation member
    rcases List.mem_cons.mp member with rfl | member
    · rcases first with ⟨taken, isTaken, notFree, isPayload, large⟩
      exact ⟨taken, by simp [isTaken], notFree, isPayload, large⟩
    · rcases owned.block allocation member with ⟨other, inCells, notFree, rest⟩
      refine ⟨other, ?_, notFree, rest⟩
      have different : other ≠ cell := by
        rintro rfl
        rw [isFree] at notFree
        cases notFree
      simp only [List.mem_append, List.mem_cons, different, false_or] at inCells ⊢
      exact inCells.imp_right Or.inr
  · intro other member notFree
    simp only [List.mem_append] at member
    rcases member with inFront | inTaken | inBack
    · rcases owned.owner other (by simp [inFront]) notFree with ⟨allocation, held, is⟩
      exact ⟨allocation, by simp [held], is⟩
    · exact ⟨_, List.mem_cons_self, (only other inTaken notFree).symm⟩
    · rcases owned.owner other (by simp [inBack]) notFree with ⟨allocation, held, is⟩
      exact ⟨allocation, by simp [held], is⟩
  · apply List.Pairwise.cons
    · intro allocation held equal
      rcases owned.block allocation held with ⟨other, inCells, notFree, isPayload, _⟩
      have sameAddress : other.address = cell.address := by
        have isPayload' : other.address + headerSize = allocation.pointer := isPayload
        have equal' : cell.address + headerSize = allocation.pointer := equal
        omega
      rcases apart other inCells with same | before | before
      · rw [← same, isFree] at notFree
        cases notFree
      · simp only [Cell.stop, headerSize] at before
        omega
      · simp only [Cell.stop, headerSize] at before
        omega
    · exact owned.distinct

/-- The block of a pointer was freed. -/
theorem Owned.free (owned : Owned live cells) (tiled : Tiled heap cells)
    (member : cell ∈ cells) (isPointer : cell.payload = pointer)
    (taken : ∀ other, other.free = false →
      (other ∈ cells' ↔ other ∈ cells ∧ other ≠ cell)) :
    Owned (live.filter fun allocation => allocation.pointer ≠ pointer) cells' := by
  constructor
  · intro allocation held
    rw [List.mem_filter] at held
    rcases owned.block allocation held.1 with ⟨other, inCells, notFree, isPayload, large⟩
    refine ⟨other, (taken other notFree).mpr ⟨inCells, ?_⟩, notFree, isPayload, large⟩
    rintro rfl
    rw [isPointer] at isPayload
    simp [isPayload] at held
  · intro other inCells notFree
    rcases (taken other notFree).mp inCells with ⟨inCells, different⟩
    rcases owned.owner other inCells notFree with ⟨allocation, held, isPayload⟩
    refine ⟨allocation, List.mem_filter.mpr ⟨held, ?_⟩, isPayload⟩
    have apart : other.payload ≠ cell.payload := by
      intro equal
      have sameAddress : other.address = cell.address :=
        Nat.add_right_cancel equal
      rcases tiled.laid.apart inCells member with same | before | before
      · exact different same
      · simp only [Cell.stop, headerSize] at before
        omega
      · simp only [Cell.stop, headerSize] at before
        omega
    rw [isPayload, ← isPointer]
    simpa using apart
  · exact owned.distinct.filter _

/-! ## The calls -/

/-- The bytes of a block that is in use. -/
def Cell.InPayload (cell : Cell) (address : Nat) : Prop :=
  cell.payload ≤ address ∧ address < cell.stop

/-- What `kmalloc` does to a heap with the given blocks. -/
theorem kmalloc_spec (tiled : Tiled (started heap) cells) (owned : Owned live cells)
    {size : UInt32} (positive : size ≠ 0) :
    (kmalloc heap size = .panic ∧
      ∀ cell ∈ cells, cell.free = true → cell.size < size.toNat) ∨
    ∃ pointer heap' cells', kmalloc heap size = .done pointer heap' ∧ pointer ≠ 0 ∧
      Tiled heap' cells' ∧ Owned (⟨pointer, size.toNat⟩ :: live) cells' ∧
      ∀ cell ∈ cells, cell.free = false → ∀ address, cell.InPayload address →
        heap'.memory address = (started heap).memory address := by
  have unfolded : kmalloc heap size =
      kmallocLoop (started heap) size.toNat maxRounds (started heap).firstBlock := by
    unfold kmalloc
    rw [if_neg positive]
    rfl
  rw [unfolded]
  rcases tiled.kmallocLoop size.toNat with
    panics | ⟨front, cell, back, rfl, isFree, fits, done⟩
  · exact Or.inl panics
  · rcases Laid.append_iff.mp tiled.laid with ⟨middle, first, isMiddle, header, last⟩
    have lower := first.bounds.1
    have upper := last.bounds.1
    have isCell : cell ∈ front ++ cell :: back := by simp
    refine Or.inr ⟨_, _, _, done, ?_, tiled.take isFree fits,
      owned.take tiled isFree fits, ?_⟩
    · have positive := (started heap).base_pos
      simp only [Cell.payload, headerSize]
      omega
    · intro other member notFree address inside
      apply take_memory header fits (by omega) upper
      rcases tiled.laid.apart isCell member with same | before | before
      · rw [← same, isFree] at notFree
        cases notFree
      · right
        have lower' : other.address + headerSize ≤ address := inside.1
        omega
      · left
        have upper' := inside.2
        omega

/-- What `kfree` does to a heap with the given blocks. -/
theorem kfree_spec (tiled : Tiled heap cells) (owned : Owned live cells)
    (pointer : Nat) :
    ∃ heap' cells', kfree heap pointer = .done () heap' ∧ Tiled heap' cells' ∧
      Owned (live.filter fun allocation => allocation.pointer ≠ pointer) cells' ∧
      ∀ cell ∈ cells, cell.free = false → ∀ address, cell.InPayload address →
        heap'.memory address = heap.memory address := by
  -- No allocation has a pointer that is not the one of a block.
  have untouched : (∀ cell ∈ cells, cell.payload ≠ pointer) →
      kfree heap pointer = .done () heap →
      ∃ heap' cells', kfree heap pointer = .done () heap' ∧ Tiled heap' cells' ∧
        Owned (live.filter fun allocation => allocation.pointer ≠ pointer) cells' ∧
        ∀ cell ∈ cells, cell.free = false → ∀ address, cell.InPayload address →
          heap'.memory address = heap.memory address := by
    intro none done
    have foreign :
        live.filter (fun allocation => allocation.pointer ≠ pointer) = live := by
      apply List.filter_eq_self.mpr
      intro allocation held
      rcases owned.block allocation held with ⟨cell, member, _, isPayload, _⟩
      rw [← isPayload]
      simpa using none cell member
    refine ⟨heap, cells, done, tiled, ?_, fun _ _ _ _ _ => rfl⟩
    rw [foreign]
    exact owned
  by_cases null : pointer = 0
  · apply untouched
    · intro cell member equal
      simp only [Cell.payload, headerSize] at equal
      omega
    · unfold kfree
      rw [if_pos null]
  · have unfolded : kfree heap pointer =
        kfreeLoop heap pointer maxRounds heap.firstBlock := if_neg null
    rcases tiled.kfreeLoop pointer with
      ⟨done, none⟩ | ⟨front, cell, back, rfl, isPointer, releases⟩
    · exact untouched none (unfolded.trans done)
    · rcases release_spec tiled with ⟨heap', cells', done, freed⟩
      refine ⟨heap', cells', unfolded.trans (releases.trans done), freed.tiled,
        owned.free tiled (by simp) isPointer freed.taken, ?_⟩
      intro other member notFree address inside
      apply freed.payloads
      intro header isCell
      have lower : other.address + headerSize ≤ address := inside.1
      have upper := inside.2
      rcases tiled.laid.apart isCell member with rfl | before | before
      · exact Or.inr lower
      · simp only [Cell.stop] at before
        omega
      · omega

/-- There is nothing to free before the first allocation. -/
theorem kfree_unused (unused : heap.firstBlock = 0) (pointer : Nat) :
    kfree heap pointer = .done () heap := by
  by_cases null : pointer = 0
  · exact if_pos null
  · rw [kfree, if_neg null, unused, maxRounds, kfreeLoop, if_pos rfl]

/-! ## What holds after any run -/

/-- The bytes of a client lie in a block that is in use. -/
theorem Owned.inPayload (owned : Owned live cells) {allocation : Allocation}
    (held : allocation ∈ live) {address : Nat} (lower : allocation.pointer ≤ address)
    (upper : address < allocation.pointer + allocation.size) :
    ∃ cell ∈ cells, cell.free = false ∧ cell.InPayload address := by
  rcases owned.block allocation held with ⟨cell, member, notFree, isPayload, large⟩
  refine ⟨cell, member, notFree, by omega, ?_⟩
  have isStop : cell.stop = cell.payload + cell.size := rfl
  omega

/-- Writing to the bytes of a block does not change the list. -/
theorem Tiled.write (tiled : Tiled heap cells) (member : cell ∈ cells)
    {address : Nat} (inside : cell.InPayload address) (value : UInt8) :
    Tiled { heap with memory := Function.update heap.memory address value } cells := by
  refine ⟨tiled.first, tiled.laid.congr rfl fun other isOther index less => ?_,
    tiled.coalesced⟩
  have different : other.address + index ≠ address := by
    have lower : cell.address + headerSize ≤ address := inside.1
    have upper := inside.2
    have isStop : other.stop = other.address + headerSize + other.size := rfl
    rcases tiled.laid.apart member isOther with rfl | before | before
    · omega
    · omega
    · omega
  exact Function.update_of_ne different value heap.memory

theorem Sound.of_tiled (tiled : Tiled heap cells) (owned : Owned live cells) :
    Sound heap live true :=
  Or.inr ⟨rfl, cells, tiled, owned⟩

theorem Reaches.sound {used : Bool} (reaches : Reaches heap live used) :
    Sound heap live used := by
  induction reaches with
  | boot unused => exact Or.inl ⟨rfl, unused, rfl⟩
  | @kmalloc heap after live used pointer size before done sound =>
      by_cases zero : size = 0
      · unfold Allocator.kmalloc at done
        rw [if_pos zero] at done
        cases done
        simpa [zero] using sound
      · rcases sound.started with ⟨cells, tiled, owned⟩
        rcases kmalloc_spec tiled owned zero with
          ⟨panics, _⟩ | ⟨found, heap', cells', returns, notNull, tiled', owned', _⟩
        · rw [panics] at done
          cases done
        · rw [returns] at done
          cases done
          have isUsed : (used || decide (size ≠ 0)) = true := by simp [zero]
          rw [if_neg notNull, isUsed]
          exact Sound.of_tiled tiled' owned'
  | @kfree heap after live used pointer before done sound =>
      rcases sound with ⟨isUnused, unused, rfl⟩ | ⟨isUsed, cells, tiled, owned⟩
      · rw [kfree_unused unused] at done
        cases done
        exact Or.inl ⟨isUnused, unused, rfl⟩
      · rcases kfree_spec tiled owned pointer with
          ⟨heap', cells', returns, tiled', owned', _⟩
        rw [returns] at done
        cases done
        rw [isUsed]
        exact Sound.of_tiled tiled' owned'
  | @write heap live used allocation address value before held lower upper sound =>
      rcases sound with ⟨_, _, rfl⟩ | ⟨isUsed, cells, tiled, owned⟩
      · cases held
      · rcases owned.inPayload held lower upper with ⟨cell, member, _, inside⟩
        rw [isUsed]
        exact Sound.of_tiled (tiled.write member inside value) owned

/-- The size of the block that a pointer starts. -/
def payloadSize (heap : Heap) (allocation : Allocation) : Nat :=
  heap.size (allocation.pointer - headerSize)

/-- The list of blocks of a heap, and the allocations in it. -/
structure Blocks (heap : Heap) (live : List Allocation) (cells : List Cell) :
    Prop where
  list : BlockList heap heap.firstBlock cells
  tiles : Tiles heap.base cells (heap.base + heapSize)
  coalesced : cells.IsChain fun cell next => ¬ (cell.free = true ∧ next.free = true)
  block : ∀ allocation ∈ live, ∃ cell ∈ cells, cell.free = false ∧
    cell.payload = allocation.pointer ∧ allocation.size ≤ cell.size
  disjoint : live.Pairwise fun allocation other =>
    allocation.pointer + payloadSize heap allocation ≤ other.pointer ∨
      other.pointer + payloadSize heap other ≤ allocation.pointer
  whole : live = [] → cells = [⟨heap.base, heapSize - headerSize, true⟩]

/-- All bytes of the allocations are the same. -/
def KeepsPayloads (live : List Allocation) (heap heap' : Heap) : Prop :=
  ∀ allocation ∈ live, ∀ address, allocation.pointer ≤ address →
    address < allocation.pointer + payloadSize heap allocation →
    heap'.memory address = heap.memory address

/-- What the callers of the allocator rely on. Before the first allocation there
is no list of blocks, so `started heap` is the heap that `kmalloc` searches. -/
structure HeapContract (heap : Heap) (live : List Allocation) (used : Bool) :
    Prop where
  unused : used = false → heap.firstBlock = 0 ∧ live = []
  blocks : used = true → ∃ cells, Blocks heap live cells
  kmalloc : ∀ size : UInt32,
    (∃ pointer heap', Allocator.kmalloc heap size = .done pointer heap' ∧
      KeepsPayloads live heap heap' ∧ (pointer = 0 ↔ size = 0)) ∨
    (Allocator.kmalloc heap size = .panic ∧
      ∃ cells, Blocks (started heap) live cells ∧
        ∀ cell ∈ cells, cell.free = true → cell.size < size.toNat)
  kfree : ∀ pointer : Nat, ∃ heap', Allocator.kfree heap pointer = .done () heap' ∧
    KeepsPayloads live heap heap'

theorem Laid.header (laid : Laid heap start cells stop) (member : cell ∈ cells) :
    Header heap cell := by
  induction cells generalizing start with
  | nil => cases member
  | cons head cells induction =>
      rcases laid with ⟨_, header, rest⟩
      rcases List.mem_cons.mp member with rfl | inRest
      · exact header
      · exact induction rest inRest

theorem Tiled.payloadSize_eq (tiled : Tiled heap cells) (member : cell ∈ cells)
    {allocation : Allocation} (isPayload : cell.payload = allocation.pointer) :
    payloadSize heap allocation = cell.size := by
  have isAddress : allocation.pointer - headerSize = cell.address := by
    rw [← isPayload]
    exact Nat.add_sub_cancel _ _
  unfold payloadSize
  rw [isAddress]
  exact (tiled.laid.header member).size

/-- Blocks of which none is in use and no two neighbours are free are one
block. -/
theorem Tiled.whole (tiled : Tiled heap cells)
    (free : ∀ cell ∈ cells, cell.free = true) :
    cells = [⟨heap.base, heapSize - headerSize, true⟩] := by
  have large : headerSize < heapSize := by decide
  rcases cells with _ | ⟨first, _ | ⟨second, rest⟩⟩
  · have impossible : heap.base = heap.base + heapSize := tiled.laid
    omega
  · rcases tiled.laid with ⟨isBase, _, isStop⟩
    have isFree : first.free = true := free first (by simp)
    rcases first with ⟨address, size, flag⟩
    have isStop' : address + headerSize + size = heap.base + heapSize := isStop
    have isBase' : address = heap.base := isBase
    have isSize : size = heapSize - headerSize := by omega
    have isFree' : flag = true := isFree
    rw [isBase', isSize, isFree']
  · have apart := tiled.coalesced
    rw [List.isChain_cons_cons] at apart
    exact absurd ⟨free first (by simp), free second (by simp)⟩ apart.1

theorem Tiled.blocks (tiled : Tiled heap cells) (owned : Owned live cells) :
    Blocks heap live cells where
  list := tiled.blockList
  tiles := tiled.laid.tiles
  coalesced := tiled.coalesced
  block := owned.block
  disjoint := by
    apply owned.distinct.imp_of_mem
    intro allocation other held held' different
    rcases owned.block allocation held with ⟨cell, member, _, isPayload, _⟩
    rcases owned.block other held' with ⟨cell', member', _, isPayload', _⟩
    rw [tiled.payloadSize_eq member isPayload, tiled.payloadSize_eq member' isPayload',
      ← isPayload, ← isPayload']
    simp only [Cell.payload]
    rcases tiled.laid.apart member member' with rfl | before | before
    · exact absurd (isPayload.symm.trans isPayload') different
    · simp only [Cell.stop] at before
      omega
    · simp only [Cell.stop] at before
      omega
  whole := by
    rintro rfl
    apply tiled.whole
    intro cell member
    by_contra notFree
    rcases owned.owner cell member (by simpa using notFree) with ⟨_, impossible, _⟩
    cases impossible

/-- A call that keeps the bytes of all blocks in use keeps those of the
allocations. -/
theorem Owned.keepsPayloads (owned : Owned live cells) (tiled : Tiled heap cells)
    (same : ∀ cell ∈ cells, cell.free = false → ∀ address, cell.InPayload address →
      heap'.memory address = heap.memory address) :
    KeepsPayloads live heap heap' := by
  intro allocation held address lower upper
  rcases owned.block allocation held with ⟨cell, member, notFree, isPayload, _⟩
  rw [tiled.payloadSize_eq member isPayload, ← isPayload] at upper
  rw [← isPayload] at lower
  exact same cell member notFree address ⟨lower, upper⟩

theorem started_of_tiled (tiled : Tiled heap cells) : started heap = heap := by
  have positive := heap.base_pos
  have isFirst := tiled.first
  exact if_neg (by omega)

theorem reachable_heapContract {used : Bool} (reaches : Reaches heap live used) :
    HeapContract heap live used := by
  have sound := reaches.sound
  constructor
  · intro notUsed
    rcases sound with ⟨_, unused, isNil⟩ | ⟨isUsed, _⟩
    · exact ⟨unused, isNil⟩
    · rw [notUsed] at isUsed
      cases isUsed
  · intro isUsed
    rcases sound with ⟨notUsed, _⟩ | ⟨_, cells, tiled, owned⟩
    · rw [isUsed] at notUsed
      cases notUsed
    · exact ⟨cells, tiled.blocks owned⟩
  · intro size
    by_cases zero : size = 0
    · refine Or.inl ⟨0, heap, if_pos zero, fun _ _ _ _ _ => rfl, ?_⟩
      simp [zero]
    · rcases sound.started with ⟨cells, tiled, owned⟩
      rcases kmalloc_spec tiled owned zero with
        ⟨panics, small⟩ | ⟨pointer, heap', _, done, notNull, _, _, same⟩
      · exact Or.inr ⟨panics, cells, tiled.blocks owned, small⟩
      · refine Or.inl ⟨pointer, heap', done, ?_, by simp [zero, notNull]⟩
        rcases sound with ⟨_, _, rfl⟩ | ⟨_, blocks, tiled', owned'⟩
        · intro allocation held
          cases held
        · rw [started_of_tiled tiled'] at tiled same
          exact owned.keepsPayloads tiled same
  · intro pointer
    rcases sound with ⟨_, unused, rfl⟩ | ⟨_, cells, tiled, owned⟩
    · exact ⟨heap, kfree_unused unused pointer, fun allocation held => by cases held⟩
    · rcases kfree_spec tiled owned pointer with ⟨heap', _, done, _, _, same⟩
      exact ⟨heap', done, owned.keepsPayloads tiled same⟩

end Runs

/-- A heap at boot. -/
def bootHeap : Heap where
  base := 4096
  memory _ := 0
  firstBlock := 0
  base_pos := by decide
  base_fits := by decide

theorem heapContract_after_kmalloc :
    ∃ heap, kmalloc bootHeap 100 = .done 4108 heap ∧
      HeapContract heap [⟨4108, 100⟩] true :=
  ⟨_, rfl, reachable_heapContract (Reaches.kmalloc 100 (.boot rfl)
    (rfl : kmalloc bootHeap 100 = .done 4108 _))⟩

/-- A call that asks for nothing does not set the heap up, so there is no list
that could tile it. -/
theorem no_blocks_after_kmalloc_zero :
    kmalloc bootHeap 0 = .done 0 bootHeap ∧
    ¬ ∃ cells, BlockList bootHeap bootHeap.firstBlock cells ∧
      Tiles bootHeap.base cells (bootHeap.base + heapSize) := by
  refine ⟨rfl, ?_⟩
  rintro ⟨cells, list, tiles⟩
  cases cells with
  | nil =>
      have impossible : 4096 = 4096 + heapSize := tiles
      exact absurd impossible (by decide)
  | cons => exact list.1 rfl

end Katela.Allocator
