import Katela.Filesystem.Volume

/-! # Directory entries and names

How entries are stored in a sector and how names are stored in entries. -/

namespace Katela.Filesystem

/-! ## Entries in a sector -/

/-- The words of an entry in memory are 32 bits wide. -/
structure DirEntry.Bounded (entry : DirEntry) : Prop where
  first : entry.first < wordSize
  size : entry.size < wordSize
  flags : entry.flags < wordSize

theorem entryAt_bounded (contents : Sector) (slot : Nat) :
    (entryAt contents slot).Bounded :=
  ⟨Block.wordAt_lt _ _, Block.wordAt_lt _ _, Block.wordAt_lt _ _⟩

theorem word_congr {source other : Nat → UInt8}
    (same : ∀ index, index < 4 → source index = other index) :
    word source = word other := by
  simp only [word, same 0 (by omega), same 1 (by omega), same 2 (by omega),
    same 3 (by omega)]

section Sector

variable {contents : Sector} {slot other : Nat}

theorem entryAt_copyInto_self (inside : slot < slotsPerSector) {entry : DirEntry}
    (bounded : entry.Bounded) :
    entryAt (contents.copyInto (slot * dirEntrySize) dirEntrySize entry.toBytes)
      slot = entry := by
  simp only [slotsPerSector, dirEntrySize] at *
  have field : ∀ offset value, offset + 4 ≤ 128 → value < wordSize →
      (∀ index, index < 4 →
        entry.toBytes (offset + index) = wordBytes value index) →
      (contents.copyInto (slot * 128) 128 entry.toBytes).wordAt
        (128 * slot + offset) = value := by
    intro offset value fits small bytes
    rw [Block.wordAt_copyInto_inside (by omega) (by omega) (by omega)]
    have start : 128 * slot + offset - slot * 128 = offset := by omega
    rw [start, word_congr bytes, word_wordBytes, Nat.mod_eq_of_lt small]
  ext1
  · funext index
    have small := index.isLt
    simp only [entryAt, dirEntrySize]
    rw [Block.byteAt_copyInto_inside (by omega) (by omega) (by omega)]
    have start : 128 * slot + index.val - slot * 128 = index.val := by omega
    simp [start, DirEntry.toBytes, small, Block.byteAt]
  · refine field 116 entry.first (by omega) bounded.first ?_
    intro index small
    simp only [DirEntry.toBytes]
    rw [if_neg (by omega), if_pos (by omega), Nat.add_sub_cancel_left]
  · refine field 120 entry.size (by omega) bounded.size ?_
    intro index small
    simp only [DirEntry.toBytes]
    rw [if_neg (by omega), if_neg (by omega), if_pos (by omega),
      Nat.add_sub_cancel_left]
  · refine field 124 entry.flags (by omega) bounded.flags ?_
    intro index small
    simp only [DirEntry.toBytes]
    rw [if_neg (by omega), if_neg (by omega), if_neg (by omega),
      Nat.add_sub_cancel_left]

/-- An entry reads 128 bytes of its sector. -/
theorem entryAt_congr {contents' : Sector}
    (same : ∀ index, dirEntrySize * slot ≤ index →
      index < dirEntrySize * slot + dirEntrySize →
      contents'.byteAt index = contents.byteAt index) :
    entryAt contents' slot = entryAt contents slot := by
  simp only [dirEntrySize] at same
  have field : ∀ offset, offset + 4 ≤ 128 →
      contents'.wordAt (128 * slot + offset) =
        contents.wordAt (128 * slot + offset) := by
    intro offset fits
    apply word_congr
    intro index small
    exact same _ (by omega) (by omega)
  ext1
  · funext index
    have small := index.isLt
    simp only [entryAt, dirEntrySize]
    exact same _ (by omega) (by omega)
  · exact field 116 (by omega)
  · exact field 120 (by omega)
  · exact field 124 (by omega)

theorem entryAt_copyInto_other (different : other ≠ slot) (source : Nat → UInt8) :
    entryAt (contents.copyInto (slot * dirEntrySize) dirEntrySize source) other =
      entryAt contents other := by
  apply entryAt_congr
  intro index lower upper
  apply Block.byteAt_copyInto_outside
  simp only [dirEntrySize] at *
  omega

/-- `file_sync` changes two words of an entry. -/
theorem entryAt_sync_self (inside : slot < slotsPerSector) {first size : Nat}
    (firstSmall : first < wordSize) (sizeSmall : size < wordSize) :
    entryAt (contents
      |>.setWordAt (dirEntrySize * slot + 116) first
      |>.setWordAt (dirEntrySize * slot + 120) size) slot =
      { entryAt contents slot with first := first, size := size } := by
  simp only [slotsPerSector, dirEntrySize] at *
  ext1
  · funext index
    have small := index.isLt
    simp only [entryAt, dirEntrySize, Block.setWordAt]
    rw [Block.byteAt_copyInto_outside (by omega),
      Block.byteAt_copyInto_outside (by omega)]
  · simp only [entryAt, dirEntrySize]
    rw [Block.wordAt_setWordAt_other (by omega),
      Block.wordAt_setWordAt_self (by omega), Nat.mod_eq_of_lt firstSmall]
  · simp only [entryAt, dirEntrySize]
    rw [Block.wordAt_setWordAt_self (by omega), Nat.mod_eq_of_lt sizeSmall]
  · simp only [entryAt, dirEntrySize]
    rw [Block.wordAt_setWordAt_other (by omega),
      Block.wordAt_setWordAt_other (by omega)]

theorem entryAt_sync_other (different : other ≠ slot) (first size : Nat) :
    entryAt (contents
      |>.setWordAt (dirEntrySize * slot + 116) first
      |>.setWordAt (dirEntrySize * slot + 120) size) other =
      entryAt contents other := by
  apply entryAt_congr
  intro index lower upper
  simp only [dirEntrySize, Block.setWordAt] at *
  rw [Block.byteAt_copyInto_outside (by omega),
    Block.byteAt_copyInto_outside (by omega)]

theorem entryAt_zeroSector (slot : Nat) :
    (entryAt zeroSector slot).flags = 0 := by
  simp [entryAt, Block.wordAt, word, Block.byteAt, zeroSector]

end Sector

theorem newEntry_bounded (name : CString) : (newEntry name).Bounded := by
  constructor
  all_goals simp [newEntry, DirEntry.zero, slotUsed, wordSize]

theorem zero_bounded : DirEntry.zero.Bounded := by
  constructor
  all_goals simp [DirEntry.zero, wordSize]

/-! ## Names -/

theorem nameChars_length {length : Nat} {chars : List UInt8}
    (valid : nameChars length chars = true) :
    chars = [] ∨ length + chars.length ≤ fsNameMax := by
  induction chars generalizing length with
  | nil => exact Or.inl rfl
  | cons c rest induction =>
      right
      unfold nameChars at valid
      split at valid
      · cases valid
      split at valid
      · cases valid
      · rename_i short
        rcases induction valid with empty | bounded
        · subst empty
          simp only [List.length_cons, List.length_nil]
          omega
        · simp only [List.length_cons]
          omega

theorem length_of_nameOk {name : CString} (valid : nameOk name = true) :
    name.bytes.length ≤ fsNameMax := by
  simp only [nameOk, Bool.and_eq_true, decide_eq_true_eq] at valid
  rcases nameChars_length valid.2 with empty | bounded
  · exact absurd empty valid.1
  · omega

/-- The characters of memory up to the first NUL are a given list exactly if
memory holds that list and a NUL. -/
theorem takeWhile_eq_iff {chars : List UInt8} (noNul : 0 ∉ chars)
    {memory : Nat → UInt8} {limit : Nat} (short : chars.length < limit) :
    ((List.range limit).map memory).takeWhile (· ≠ 0) = chars ↔
      ∀ index, index ≤ chars.length → memory index = chars.getD index 0 := by
  induction chars generalizing memory limit with
  | nil =>
      cases limit with
      | zero => simp at short
      | succ limit =>
          rw [List.range_succ_eq_map, List.map_cons, List.takeWhile_cons]
          by_cases zero : memory 0 = 0
          · simp [zero]
          · simp [zero]
  | cons c rest induction =>
      cases limit with
      | zero => simp at short
      | succ limit =>
          have nonzero : c ≠ 0 := fun zero => noNul (by simp [zero])
          have rest' : 0 ∉ rest := fun member => noNul (by simp [member])
          have shorter : rest.length < limit := by simpa using short
          have tail : ((List.range limit).map fun index =>
              memory (index + 1)).takeWhile (· ≠ 0) = rest ↔ _ :=
            induction rest' shorter
          rw [List.range_succ_eq_map, List.map_cons, List.map_map,
            List.takeWhile_cons]
          by_cases equal : memory 0 = c
          · have shifted : (List.range limit).map (memory ∘ Nat.succ) =
                (List.range limit).map fun index => memory (index + 1) := rfl
            rw [equal, if_pos (by simpa using nonzero), shifted]
            constructor
            · intro same index bound
              injection same with _ same
              cases index with
              | zero => simpa using equal
              | succ index =>
                  simpa using tail.mp same index (by simpa using bound)
            · intro same
              rw [tail.mpr]
              intro index bound
              simpa using same (index + 1) (by simpa using bound)
          · constructor
            · intro same
              split at same
              · injection same with first _
                exact absurd first equal
              · cases same
            · intro same
              exact absurd (same 0 (Nat.zero_le _)) equal

theorem boundedString_eq_iff {name : CString} {memory : Nat → UInt8} {limit : Nat}
    (short : name.bytes.length < limit) :
    boundedString memory limit = name ↔
      ∀ index, index ≤ name.bytes.length → memory index = name.charAt index := by
  rw [CString.ext_iff]
  exact takeWhile_eq_iff name.noNul short

theorem charAt_eq_zero_iff (name : CString) (index : Nat) :
    name.charAt index = 0 ↔ name.bytes.length ≤ index := by
  unfold CString.charAt
  constructor
  · intro zero
    by_contra inside
    have bound : index < name.bytes.length := by omega
    simp only [List.getD_eq_getElem?_getD, List.getElem?_eq_getElem bound,
      Option.getD_some] at zero
    exact name.noNul (zero ▸ List.getElem_mem bound)
  · intro outside
    simp [List.getElem?_eq_none outside]

theorem sameNameFrom_iff (stored : Block 116) (name : CString) (rounds : Nat) :
    ∀ {index : Nat}, index ≤ name.bytes.length →
    name.bytes.length < index + rounds →
    (sameNameFrom stored name rounds index = true ↔
      ∀ position, index ≤ position → position ≤ name.bytes.length →
        stored.byteAt position = name.charAt position) := by
  induction rounds with
  | zero =>
      intro index inside enough
      omega
  | succ rounds induction =>
      intro index inside enough
      unfold sameNameFrom
      split
      · rename_i differs
        simp only [Bool.false_eq_true, false_iff, not_forall]
        exact ⟨index, Nat.le_refl _, inside, differs⟩
      · rename_i agrees
        have here : stored.byteAt index = name.charAt index := by
          by_contra differs
          exact agrees differs
        split
        · rename_i ends
          have last := (charAt_eq_zero_iff name index).mp ends
          simp only [true_iff]
          intro position lower upper
          have equal : position = index := by omega
          rw [equal]
          exact here
        · rename_i more
          have inside' : index < name.bytes.length := by
            by_contra outside
            exact more ((charAt_eq_zero_iff name index).mpr (by omega))
          rw [induction (by omega) (by omega)]
          constructor
          · intro same position lower upper
            by_cases equal : position = index
            · rw [equal]
              exact here
            · exact same position (by omega) upper
          · intro same position lower upper
            exact same position (by omega) upper

/-- `same_name` compares the stored name with a name that was checked. -/
theorem sameName_iff {entry : DirEntry} {name : CString}
    (valid : nameOk name = true) :
    sameName entry.name name = true ↔ storedName entry = name := by
  have short := length_of_nameOk valid
  simp only [fsNameMax] at short
  unfold sameName storedName
  rw [sameNameFrom_iff entry.name name _ (Nat.zero_le _)
    (by simp only [fsNameMax]; omega), boundedString_eq_iff (by omega)]
  simp

theorem storedName_nameField {entry : DirEntry} {name : CString}
    (valid : nameOk name = true) (isField : entry.name = nameField name) :
    storedName entry = name := by
  have short := length_of_nameOk valid
  simp only [fsNameMax] at short
  unfold storedName
  rw [boundedString_eq_iff (by omega)]
  intro index bound
  have small : index < 116 := by omega
  simp [isField, Block.byteAt, small, nameField]

end Katela.Filesystem
