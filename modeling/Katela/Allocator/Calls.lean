import Katela.Allocator.Tiling

/-! # Allocating and freeing

What `kmalloc` and `kfree` do to the blocks of the heap. -/

namespace Katela.Allocator

/-- The pointer that stands for an address in the list: null behind the last
block. -/
def linkTo (heap : Heap) (address : Nat) : Nat :=
  if address = heap.base + heapSize then 0 else address

section Calls

variable {heap : Heap} {cells front back : List Cell} {cell : Cell}
variable {start size pointer : Nat}

theorem Laid.linkTo_eq (laid : Laid heap start (cell :: cells) (heap.base + heapSize)) :
    linkTo heap start = cell.address := by
  rcases laid with ⟨rfl, _, rest⟩
  have upper := rest.bounds.1
  have isStop : cell.stop = cell.address + headerSize + cell.size := rfl
  have isHeader : headerSize = 12 := rfl
  exact if_neg (by omega)

/-- Walks through the list need no more rounds than it has blocks. -/
theorem Laid.length_lt (laid : Laid heap heap.base cells (heap.base + heapSize)) :
    cells.length < maxRounds := by
  have most := laid.length_le
  have fits : cells.length * headerSize ≤ heapSize := by omega
  exact Nat.lt_succ_of_le ((Nat.le_div_iff_mul_le (by decide)).mpr fits)

/-! ## `kmalloc` -/

/-- The loop takes the first block that is large enough, and panics if there is
none. -/
theorem kmallocLoop_spec (cells : List Cell) :
    ∀ {start : Nat} (rounds : Nat), heap.base ≤ start →
      Laid heap start cells (heap.base + heapSize) → cells.length < rounds →
      (kmallocLoop heap size rounds (linkTo heap start) = .panic ∧
        ∀ cell ∈ cells, cell.free = true → cell.size < size) ∨
      ∃ front cell back, cells = front ++ cell :: back ∧ cell.free = true ∧
        size ≤ cell.size ∧
        kmallocLoop heap size rounds (linkTo heap start) =
          .done cell.payload (take heap cell.address size) := by
  induction cells with
  | nil =>
      intro start rounds _ laid enough
      cases rounds with
      | zero => cases enough
      | succ rounds =>
          have isEnd : linkTo heap start = 0 := if_pos laid
          refine Or.inl ⟨?_, fun _ impossible => by cases impossible⟩
          rw [kmallocLoop, isEnd, if_pos rfl]
  | cons cell cells induction =>
      intro start rounds lower laid enough
      cases rounds with
      | zero => cases enough
      | succ rounds =>
          have link := laid.linkTo_eq
          rcases laid with ⟨isStart, header, rest⟩
          have positive := heap.base_pos
          have isStop : cell.stop = cell.address + headerSize + cell.size := rfl
          have notNull : cell.address ≠ 0 := by omega
          have isNext : heap.next cell.address = linkTo heap cell.stop := header.next
          rw [kmallocLoop, link, if_neg notNull, header.size, header.free]
          by_cases fit : cell.free = true ∧ cell.size ≥ size
          · refine Or.inr ⟨[], cell, cells, rfl, fit.1, fit.2, ?_⟩
            rw [fit.1, if_pos ⟨by decide, fit.2⟩]
            rfl
          · have unfit : ¬ ((if cell.free = true then 1 else 0) ≠ 0 ∧
                cell.size ≥ size) := by
              rintro ⟨isFree, large⟩
              apply fit
              refine ⟨?_, large⟩
              by_contra notFree
              exact isFree (if_neg notFree)
            rw [if_neg unfit, isNext]
            rcases induction rounds (by omega) rest (by simpa using enough) with
              ⟨panics, none⟩ | ⟨front, found, back, rfl, isFree, large, done⟩
            · refine Or.inl ⟨panics, fun other member isFree => ?_⟩
              rcases List.mem_cons.mp member with isHead | inRest
              · rw [isHead] at isFree ⊢
                by_contra large
                exact fit ⟨isFree, by omega⟩
              · exact none other inRest isFree
            · exact Or.inr ⟨cell :: front, found, back, rfl, isFree, large, done⟩

/-- The heap after its first block was set up. -/
theorem mmInit_tiled (heap : Heap) :
    Tiled (mmInit heap) [⟨heap.base, heapSize - headerSize, true⟩] := by
  have word : heapSize - headerSize < wordSize := by decide
  have isHeader : headerSize = 12 := rfl
  have stop : Cell.stop ⟨heap.base, heapSize - headerSize, true⟩ =
      heap.base + heapSize := by
    have larger : headerSize ≤ heapSize := by decide
    simp only [Cell.stop]
    omega
  refine ⟨rfl, ⟨rfl, ⟨?_, ?_, ?_⟩, stop⟩, List.isChain_singleton _⟩
  · change Heap.load _ heap.base = heapSize - headerSize
    simp only [mmInit, Heap.setSize, Heap.setFree, Heap.setNext]
    rw [Heap.load_store_other (by omega), Heap.load_store_other (by omega),
      Heap.load_store_self word]
  · change Heap.load _ (heap.base + 4) = 1
    simp only [mmInit, Heap.setSize, Heap.setFree, Heap.setNext]
    rw [Heap.load_store_other (by omega), Heap.load_store_self (by decide)]
  · rw [stop]
    change Heap.load _ (heap.base + 8) = _
    simp only [mmInit, Heap.setSize, Heap.setFree, Heap.setNext]
    rw [Heap.load_store_self (by decide)]
    exact (if_pos rfl).symm

/-- Handing out a free block. -/
theorem Tiled.take (tiled : Tiled heap (front ++ cell :: back))
    (isFree : cell.free = true) (fits : size ≤ cell.size) :
    Tiled (Allocator.take heap cell.address size)
      (front ++ (taken cell size ++ back)) := by
  rcases Laid.append_iff.mp tiled.laid with ⟨middle, first, rfl, header, last⟩
  have lower := first.bounds.1
  have upper := last.bounds.1
  rcases take_static heap cell.address size with ⟨base, firstBlock⟩
  refine ⟨?_, ?_, ?_⟩
  · rw [base, firstBlock]
    exact tiled.first
  · rw [base]
    refine first.replace last base ?_ (take_laid header fits lower upper)
    intro address outside
    exact take_memory header fits lower upper outside
  · have coalesced := tiled.coalesced
    rw [List.isChain_append, List.isChain_cons] at coalesced
    rcases coalesced with ⟨ofFront, ⟨behind, ofBack⟩, seam⟩
    unfold taken
    split
    · simp only [List.cons_append, List.nil_append, List.isChain_append,
        List.isChain_cons]
      refine ⟨ofFront, ⟨?_, ?_, ofBack⟩, ?_⟩
      · simp
      · intro other isHead both
        exact behind other isHead ⟨isFree, both.2⟩
      · simp
    · simp only [List.cons_append, List.nil_append, List.isChain_append,
        List.isChain_cons]
      refine ⟨ofFront, ⟨?_, ofBack⟩, ?_⟩
      · simp
      · simp

/-! ## `kfree` -/

/-- The inner loop finds the block before the given one. -/
theorem findPrevious_spec (front : List Cell) :
    ∀ {start : Nat} (rounds : Nat) {previous : Cell},
      Laid heap start (front ++ previous :: cell :: back) (heap.base + heapSize) →
      front.length < rounds →
      findPrevious heap cell.address rounds start = some previous.address := by
  induction front with
  | nil =>
      intro start rounds previous laid enough
      cases rounds with
      | zero => cases enough
      | succ rounds =>
          rcases laid with ⟨rfl, header, rest⟩
          have link := rest.linkTo_eq
          have isNext : heap.next previous.address = cell.address :=
            header.next.trans link
          rw [findPrevious, isNext, if_neg (fun different => different rfl)]
  | cons head front induction =>
      intro start rounds previous laid enough
      cases rounds with
      | zero => cases enough
      | succ rounds =>
          rcases laid with ⟨rfl, header, rest⟩
          -- The block after this one is still before the given one.
          have link : heap.next head.address = head.stop := by
            have upper := rest.bounds
            have within := (upper.2 cell (by simp)).2
            have isStop : cell.stop = cell.address + headerSize + cell.size := rfl
            have isHeader : headerSize = 12 := rfl
            have before := (upper.2 cell (by simp)).1
            exact header.next.trans (if_neg (by omega))
          have different : head.stop ≠ cell.address := by
            rcases Laid.append_iff.mp rest with ⟨middle, first, rfl, _, adjacent, _⟩
            have order := first.bounds.1
            have isStop : previous.stop =
              previous.address + headerSize + previous.size := rfl
            have isHeader : headerSize = 12 := rfl
            omega
          rw [findPrevious, link, if_pos different]
          exact induction rounds rest (by simpa using enough)

theorem findPrevious_tiled {previous : Cell}
    (laid : Laid heap heap.base (front ++ previous :: cell :: back)
      (heap.base + heapSize)) :
    findPrevious heap cell.address maxRounds heap.base = some previous.address := by
  apply findPrevious_spec front maxRounds laid
  have most := laid.length_lt
  simp only [List.length_append, List.length_cons] at most
  omega

/-- A block is free, and so may be the next one. -/
structure Loose (heap : Heap) (front : List Cell) (cell : Cell) (back : List Cell) :
    Prop where
  first : heap.firstBlock = heap.base
  laid : Laid heap heap.base (front ++ cell :: back) (heap.base + heapSize)
  free : cell.free = true
  before : front.IsChain fun cell next => ¬ (cell.free = true ∧ next.free = true)
  after : back.IsChain fun cell next => ¬ (cell.free = true ∧ next.free = true)

/-- The bytes outside the headers stay. -/
def SamePayloads (cells : List Cell) (heap heap' : Heap) : Prop :=
  ∀ address, (∀ cell ∈ cells, address < cell.address ∨
    cell.address + headerSize ≤ address) →
    heap'.memory address = heap.memory address

/-- The first two steps of `release`. -/
theorem Tiled.mergeNext (tiled : Tiled heap (front ++ cell :: back)) :
    ∃ larger rest, Loose (mergeNext (heap.setFree cell.address 1) cell.address) front
        larger rest ∧
      (∀ next ∈ rest.head?, next.free = false) ∧
      larger.address = cell.address ∧
      (∀ other, other.free = false → (other ∈ rest ↔ other ∈ back)) ∧
      (mergeNext (heap.setFree cell.address 1) cell.address).base = heap.base ∧
      SamePayloads (front ++ cell :: back) heap
        (mergeNext (heap.setFree cell.address 1) cell.address) := by
  have coalesced := tiled.coalesced
  rw [List.isChain_append, List.isChain_cons] at coalesced
  rcases coalesced with ⟨ofFront, ⟨_, ofBack⟩, _⟩
  have laid := tiled.laid.setFree
  have isHeader : headerSize = 12 := rfl
  have freed : ∀ address, (∀ other ∈ front ++ cell :: back,
      address < other.address ∨ other.address + headerSize ≤ address) →
      (heap.setFree cell.address 1).memory address = heap.memory address := by
    intro address outside
    have away := outside cell (by simp)
    exact Heap.memory_store_other (by omega)
  rcases Laid.append_iff.mp laid with ⟨middle, first, isMiddle, header, last⟩
  cases back with
  | nil =>
      have isEnd : (heap.setFree cell.address 1).next cell.address = 0 :=
        header.next.trans (if_pos last)
      have same : Allocator.mergeNext (heap.setFree cell.address 1) cell.address =
          heap.setFree cell.address 1 := by
        unfold Allocator.mergeNext
        rw [isEnd]
        exact if_neg fun both => both.1 rfl
      rw [same]
      exact ⟨_, [], ⟨tiled.first, laid, rfl, ofFront, ofBack⟩,
        fun _ impossible => (by cases impossible), rfl, fun _ _ => Iff.rfl, rfl,
        freed⟩
  | cons next back =>
      have link := last.linkTo_eq
      have isNext : (heap.setFree cell.address 1).next cell.address =
          next.address := header.next.trans link
      rcases last with ⟨adjacent, header', rest⟩
      have positive := heap.base_pos
      have notNull : next.address ≠ 0 := by
        have order := first.bounds.1
        have isStop : Cell.stop { cell with free := true } =
          cell.address + headerSize + cell.size := rfl
        omega
      by_cases isFree : next.free = true
      · have merges : Allocator.mergeNext (heap.setFree cell.address 1)
            cell.address = merge (heap.setFree cell.address 1) cell.address
              next.address := by
          unfold Allocator.mergeNext
          rw [isNext, header'.free, isFree]
          exact if_pos ⟨notNull, by decide⟩
        rw [merges]
        refine ⟨joined { cell with free := true } next, back, ⟨tiled.first,
          laid.merge rfl, rfl, ofFront, ofBack.tail⟩, ?_, rfl, ?_, rfl, ?_⟩
        · intro other isHead
          rw [List.isChain_cons] at ofBack
          have apart := ofBack.1 other isHead
          cases free : other.free with
          | false => rfl
          | true => exact absurd ⟨isFree, free⟩ apart
        · intro other notFree
          refine ⟨List.mem_cons_of_mem next, fun member => ?_⟩
          rcases List.mem_cons.mp member with isNext' | inRest
          · rw [isNext', isFree] at notFree
            cases notFree
          · exact inRest
        · intro address outside
          rw [merge_memory _ (outside cell (by simp))]
          exact freed address outside
      · have same : Allocator.mergeNext (heap.setFree cell.address 1) cell.address =
            heap.setFree cell.address 1 := by
          unfold Allocator.mergeNext
          rw [isNext, header'.free, if_neg isFree]
          exact if_neg fun both => both.2 rfl
        rw [same]
        refine ⟨_, next :: back, ⟨tiled.first, laid, rfl, ofFront, ofBack⟩, ?_, rfl,
          fun _ _ => Iff.rfl, rfl, freed⟩
        intro other isHead
        rw [List.head?_cons, Option.mem_some_iff] at isHead
        rw [← isHead]
        exact Bool.not_eq_true _ ▸ isFree

/-- What `kfree` leaves when it found the block of its pointer. -/
structure Freed (heap heap' : Heap) (cells cells' : List Cell) (cell : Cell) :
    Prop where
  tiled : Tiled heap' cells'
  base : heap'.base = heap.base
  payloads : SamePayloads cells heap heap'
  taken : ∀ other, other.free = false →
    (other ∈ cells' ↔ other ∈ cells ∧ other ≠ cell)

/-- Cells with a neighbour in between. -/
theorem isChain_three {R : Cell → Cell → Prop} {front back : List Cell} {cell : Cell}
    (ofFront : front.IsChain R) (ofBack : back.IsChain R)
    (left : ∀ previous ∈ front.getLast?, R previous cell)
    (right : ∀ next ∈ back.head?, R cell next) :
    (front ++ cell :: back).IsChain R := by
  rw [List.isChain_append, List.isChain_cons]
  refine ⟨ofFront, ⟨right, ofBack⟩, fun previous isLast next isHead => ?_⟩
  rw [List.head?_cons, Option.mem_some_iff] at isHead
  rw [← isHead]
  exact left previous isLast

/-- A block is at one place of the list only. -/
theorem Tiled.once (tiled : Tiled heap (front ++ cell :: back)) :
    ∀ other, other ∈ front ∨ other ∈ back ↔
      other ∈ front ++ cell :: back ∧ other ≠ cell := by
  rcases Laid.append_iff.mp tiled.laid with ⟨middle, first, rfl, _, last⟩
  have isHeader : headerSize = 12 := rfl
  have isStop : ∀ other : Cell, other.stop =
    other.address + headerSize + other.size := fun _ => rfl
  intro other
  constructor
  · rintro (inFront | inBack)
    · refine ⟨by simp [inFront], ?_⟩
      rintro rfl
      have within := (first.bounds.2 other inFront).2
      have own := isStop other
      omega
    · refine ⟨by simp [inBack], ?_⟩
      rintro rfl
      have within := (last.bounds.2 other inBack).1
      have own := isStop other
      omega
  · rintro ⟨member, different⟩
    rcases List.mem_append.mp member with inFront | inRest
    · exact Or.inl inFront
    · exact Or.inr ((List.mem_cons.mp inRest).resolve_left different)

theorem release_spec (tiled : Tiled heap (front ++ cell :: back)) :
    ∃ heap' cells', release heap cell.address = .done () heap' ∧
      Freed heap heap' (front ++ cell :: back) cells' cell := by
  rcases tiled.mergeNext with ⟨larger, rest, loose, after, isAddress, sameTaken, base,
    payloads⟩
  have once := tiled.once
  have order := tiled.laid.bounds.2 cell (by simp)
  have first := tiled.first
  simp only [release]
  generalize mergeNext (heap.setFree cell.address 1) cell.address = merged at *
  have right : ∀ (free : Bool) (size address : Nat), ∀ next ∈ rest.head?,
      ¬ ((⟨address, size, free⟩ : Cell).free = true ∧ next.free = true) := by
    intro free size address next isHead both
    rw [after next isHead] at both
    cases both.2
  rcases List.eq_nil_or_concat front with rfl | ⟨front, previous, rfl⟩
  · have isFirst : cell.address = merged.firstBlock := by
      rw [loose.first, base]
      exact tiled.laid.1
    refine ⟨merged, larger :: rest, ?_, ⟨?_, base, payloads, ?_⟩⟩
    · exact if_neg fun different => different isFirst
    · exact ⟨loose.first, loose.laid, isChain_three loose.before loose.after
        (fun _ impossible => by cases impossible) (right _ _ _)⟩
    · intro other notFree
      rw [← once other, List.mem_cons, ← sameTaken other notFree]
      constructor
      · rintro (rfl | inRest)
        · rw [loose.free] at notFree
          cases notFree
        · exact Or.inr inRest
      · rintro (impossible | inRest)
        · cases impossible
        · exact Or.inr inRest
  · rw [List.concat_eq_append] at *
    have laid := loose.laid
    rw [List.append_assoc, List.singleton_append] at laid
    have before := tiled.laid.bounds.2 previous (by simp)
    have notFirst : cell.address ≠ merged.firstBlock := by
      rcases Laid.append_iff.mp tiled.laid with ⟨middle, firstPart, isMiddle, _⟩
      have below := (firstPart.bounds.2 previous (by simp)).2
      have isStop : previous.stop =
        previous.address + headerSize + previous.size := rfl
      have isHeader : headerSize = 12 := rfl
      rw [loose.first, base]
      omega
    have found := findPrevious_tiled laid
    rw [isAddress, ← loose.first] at found
    have header : Header merged previous := by
      rcases Laid.append_iff.mp laid with ⟨_, _, _, header, _⟩
      exact header
    have chain := loose.before
    rw [List.isChain_append] at chain
    simp only [if_pos notFirst, found, header.free]
    by_cases isFree : previous.free = true
    · refine ⟨merge merged previous.address cell.address,
        front ++ joined previous larger :: rest, ?_, ⟨?_, base, ?_, ?_⟩⟩
      · rw [isFree]
        rfl
      · rw [← isAddress]
        refine ⟨loose.first, laid.merge rfl, isChain_three chain.1 loose.after ?_
          (right _ _ _)⟩
        intro other isLast both
        exact chain.2.2 other isLast previous (by simp) ⟨both.1, isFree⟩
      · intro address outside
        rw [merge_memory _ (outside previous (by simp))]
        exact payloads address outside
      · intro other notFree
        have different : other ≠ previous := by
          rintro rfl
          rw [isFree] at notFree
          cases notFree
        have notJoined : other ≠ joined previous larger := by
          rintro rfl
          rw [show (joined previous larger).free = previous.free from rfl, isFree]
            at notFree
          cases notFree
        rw [← once other, ← sameTaken other notFree]
        simp only [List.mem_append, List.mem_cons, List.not_mem_nil, or_false,
          different, notJoined, false_or]
    · refine ⟨merged, (front ++ [previous]) ++ larger :: rest, ?_,
        ⟨⟨loose.first, loose.laid, isChain_three loose.before loose.after ?_
          (right _ _ _)⟩, base, payloads, ?_⟩⟩
      · rw [if_neg isFree]
        rfl
      · intro other isLast both
        rw [List.getLast?_append, List.getLast?_singleton, Option.some_or,
          Option.mem_some_iff] at isLast
        rw [← isLast] at both
        exact isFree both.1
      · intro other notFree
        have notLarger : other ≠ larger := by
          rintro rfl
          rw [loose.free] at notFree
          cases notFree
        rw [← once other, ← sameTaken other notFree, List.mem_append, List.mem_cons]
        simp only [notLarger, false_or]

/-- The loop finds the block of the pointer, or leaves the heap alone. -/
theorem kfreeLoop_spec (cells : List Cell) :
    ∀ {start : Nat} (rounds : Nat), heap.base ≤ start →
      Laid heap start cells (heap.base + heapSize) → cells.length < rounds →
      (kfreeLoop heap pointer rounds (linkTo heap start) = .done () heap ∧
        ∀ cell ∈ cells, cell.payload ≠ pointer) ∨
      ∃ front cell back, cells = front ++ cell :: back ∧ cell.payload = pointer ∧
        kfreeLoop heap pointer rounds (linkTo heap start) =
          release heap cell.address := by
  induction cells with
  | nil =>
      intro start rounds _ laid enough
      cases rounds with
      | zero => cases enough
      | succ rounds =>
          have isEnd : linkTo heap start = 0 := if_pos laid
          refine Or.inl ⟨?_, fun _ impossible => by cases impossible⟩
          rw [kfreeLoop, isEnd, if_pos rfl]
  | cons cell cells induction =>
      intro start rounds lower laid enough
      cases rounds with
      | zero => cases enough
      | succ rounds =>
          have link := laid.linkTo_eq
          rcases laid with ⟨isStart, header, rest⟩
          have positive := heap.base_pos
          have isStop : cell.stop = cell.address + headerSize + cell.size := rfl
          have notNull : cell.address ≠ 0 := by omega
          have isNext : heap.next cell.address = linkTo heap cell.stop := header.next
          rw [kfreeLoop, link, if_neg notNull]
          by_cases here : cell.address + headerSize = pointer
          · rw [if_pos here]
            exact Or.inr ⟨[], cell, cells, rfl, here, rfl⟩
          · rw [if_neg here, isNext]
            rcases induction rounds (by omega) rest (by simpa using enough) with
              ⟨done, none⟩ | ⟨front, found, back, rfl, isPointer, releases⟩
            · refine Or.inl ⟨done, fun other member => ?_⟩
              rcases List.mem_cons.mp member with isHead | inRest
              · rw [isHead]
                exact here
              · exact none other inRest
            · exact Or.inr ⟨cell :: front, found, back, rfl, isPointer, releases⟩

/-! ## The loops from the first block on -/

theorem Tiled.linkTo_base (tiled : Tiled heap cells) :
    linkTo heap heap.base = heap.firstBlock := by
  have large : 0 < heapSize := by decide
  rw [tiled.first]
  exact if_neg (by omega)

theorem Tiled.kmallocLoop (tiled : Tiled heap cells) (size : Nat) :
    (Allocator.kmallocLoop heap size maxRounds heap.firstBlock = .panic ∧
      ∀ cell ∈ cells, cell.free = true → cell.size < size) ∨
    ∃ front cell back, cells = front ++ cell :: back ∧ cell.free = true ∧
      size ≤ cell.size ∧
      Allocator.kmallocLoop heap size maxRounds heap.firstBlock =
        .done cell.payload (Allocator.take heap cell.address size) := by
  rw [← tiled.linkTo_base]
  exact kmallocLoop_spec cells maxRounds (Nat.le_refl _) tiled.laid
    tiled.laid.length_lt

theorem Tiled.kfreeLoop (tiled : Tiled heap cells) (pointer : Nat) :
    (Allocator.kfreeLoop heap pointer maxRounds heap.firstBlock = .done () heap ∧
      ∀ cell ∈ cells, cell.payload ≠ pointer) ∨
    ∃ front cell back, cells = front ++ cell :: back ∧ cell.payload = pointer ∧
      Allocator.kfreeLoop heap pointer maxRounds heap.firstBlock =
        release heap cell.address := by
  rw [← tiled.linkTo_base]
  exact kfreeLoop_spec cells maxRounds (Nat.le_refl _) tiled.laid
    tiled.laid.length_lt

end Calls

end Katela.Allocator
