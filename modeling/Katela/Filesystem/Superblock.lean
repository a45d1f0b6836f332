import Katela.Filesystem.Model

/-! # Superblocks

What `superblock_check` makes sure of on a disk of a given size. All of its sums and
products wrap at 2^32. -/

namespace Katela.Filesystem

/-! ## Powers of two -/

theorem shiftFor_pow {shift : Nat} (small : shift ≤ 7) :
    shiftFor (2 ^ shift) = shift := by
  have all : ∀ shift, shift < 8 → shiftFor (2 ^ shift) = shift := by decide
  exact all shift (by omega)

theorem pow_and_pred {shift : Nat} (small : shift ≤ 7) :
    2 ^ shift &&& (2 ^ shift - 1) = 0 := by
  have all : ∀ shift, shift < 8 → 2 ^ shift &&& (2 ^ shift - 1) = 0 := by decide
  exact all shift (by omega)

/-- The test for a power of two. -/
theorem pow_of_and_pred {sectors : Nat} (positive : sectors ≠ 0)
    (small : sectors ≤ maxClusterSectors) (isPow : sectors &&& (sectors - 1) = 0) :
    ∃ shift, shift ≤ 7 ∧ sectors = 2 ^ shift := by
  have all : ∀ sectors, sectors < 129 → sectors ≠ 0 → sectors &&& (sectors - 1) = 0 →
      ∃ shift, shift < 8 ∧ sectors = 2 ^ shift := by
    decide +kernel
  rcases all sectors (Nat.lt_succ_of_le small) positive isPow with ⟨shift, less, same⟩
  exact ⟨shift, by omega, same⟩

/-! ## Superblocks in sectors -/

/-- The fields of a superblock are words. -/
structure SuperBlock.Words (sb : SuperBlock) : Prop where
  magic : sb.magic < wordSize
  version : sb.version < wordSize
  totalSectors : sb.totalSectors < wordSize
  clusterSectors : sb.clusterSectors < wordSize
  clusterCount : sb.clusterCount < wordSize
  fatSectors : sb.fatSectors < wordSize
  dataStart : sb.dataStart < wordSize
  rootCluster : sb.rootCluster < wordSize

theorem ofSector_toSector {sb : SuperBlock} (words : sb.Words) :
    SuperBlock.ofSector sb.toSector = sb := by
  rcases words with ⟨magic, version, totalSectors, clusterSectors, clusterCount,
    fatSectors, dataStart, rootCluster⟩
  unfold SuperBlock.ofSector SuperBlock.toSector
  simp (disch := omega) only [Block.wordAt_setWordAt_self, Block.wordAt_setWordAt_other,
    Nat.mod_eq_of_lt]

/-! ## Accepted layouts -/

/-- The layout of a superblock lies on the disk. -/
structure SoundLayout (diskSectors : Nat) (sb : SuperBlock) : Prop where
  start : 1 + sb.fatSectors = sb.dataStart
  fat : ∀ cluster, 1 ≤ cluster → cluster ≤ sb.clusterCount →
    1 + cluster / fatPerSector ≤ sb.fatSectors
  fits : sb.dataStart + sb.clusterCount * sb.clusterSectors ≤ sb.totalSectors
  total : fsLbaStart + sb.totalSectors ≤ diskSectors
  root : 1 ≤ sb.rootCluster ∧ sb.rootCluster ≤ sb.clusterCount
  clusters : ∀ s : Fs, s.sb = sb → s.clusterShift = shiftFor sb.clusterSectors →
    ∀ cluster, 1 ≤ cluster → cluster ≤ sb.clusterCount →
      clusterSector s cluster = sb.dataStart + (cluster - 1) * sb.clusterSectors

/-- The first size of a disk for which the last sum of the check can wrap. -/
def wrappingDisk : Nat := 4261677070

/-- The checks of an accepted superblock, one by one. -/
structure Accepted (diskSectors : Nat) (sb : SuperBlock) : Prop where
  nonzero : sb.clusterSectors ≠ 0
  small : sb.clusterSectors ≤ maxClusterSectors
  power : sb.clusterSectors &&& (sb.clusterSectors - 1) = 0
  total : sb.totalSectors ≤ diskSectors - fsLbaStart
  countPos : sb.clusterCount ≠ 0
  count : sb.clusterCount ≤ sb.totalSectors / sb.clusterSectors
  fat : sb.fatSectors = fatSectorsFor sb.clusterCount
  start : sb.dataStart = (1 + sb.fatSectors) % wordSize
  fits : (sb.dataStart + sb.clusterCount * sb.clusterSectors) % wordSize ≤
    sb.totalSectors
  root : 1 ≤ sb.rootCluster ∧ sb.rootCluster ≤ sb.clusterCount

theorem superblockCheck_iff {diskSectors : Nat} {sb : SuperBlock} :
    superblockCheck diskSectors sb = true ↔ Accepted diskSectors sb := by
  unfold superblockCheck
  dsimp only
  constructor
  · intro accepted
    split at accepted
    · cases accepted
    split at accepted
    · cases accepted
    split at accepted
    · cases accepted
    split at accepted
    · cases accepted
    split at accepted
    · cases accepted
    split at accepted
    · cases accepted
    · next sectors total count fat fits root =>
        simp only [not_or, ne_eq, Classical.not_not] at sectors count fat root
        exact ⟨sectors.1, by omega, sectors.2.2, by omega, count.1, by omega, fat.1, fat.2,
          by omega, by omega⟩
  · rintro ⟨nonzero, small, power, total, countPos, count, fat, start, fits, root⟩
    rw [if_neg (by simp only [not_or, ne_eq, Classical.not_not]; omega),
      if_neg (by omega), if_neg (by omega), if_neg (by omega), if_neg (by omega),
      if_neg (by omega)]

/-- On a disk that is small enough no sum or product of the check wraps. -/
theorem Accepted.sound {diskSectors : Nat} {sb : SuperBlock}
    (accepted : Accepted diskSectors sb) (large : minDiskSectors ≤ diskSectors)
    (small : diskSectors < wrappingDisk) : SoundLayout diskSectors sb := by
  have isMin : minDiskSectors = 4160 := rfl
  have isWord : wordSize = 2 ^ 32 := rfl
  have isStart : fsLbaStart = 4096 := rfl
  have isPer : fatPerSector = 128 := rfl
  have isWrapping : wrappingDisk = 4261677070 := rfl
  rcases accepted with ⟨nonzero, isSmall, power, total, countPos, count, fat, start, fits,
    root⟩
  have product : sb.clusterCount * sb.clusterSectors ≤ sb.totalSectors :=
    (Nat.le_div_iff_mul_le (Nat.pos_of_ne_zero nonzero)).mp count
  have countLe : sb.clusterCount ≤ sb.clusterCount * sb.clusterSectors :=
    Nat.le_mul_of_pos_right _ (Nat.pos_of_ne_zero nonzero)
  have isFat : sb.fatSectors = (sb.clusterCount + 128) / 128 := by
    rw [fat]
    unfold fatSectorsFor
    rw [isPer, Nat.mod_eq_of_lt (by omega)]
    omega
  have isDataStart : sb.dataStart = 1 + sb.fatSectors := by
    rw [start]
    exact Nat.mod_eq_of_lt (by omega)
  have exactFits : sb.dataStart + sb.clusterCount * sb.clusterSectors ≤
      sb.totalSectors := by
    rw [Nat.mod_eq_of_lt (by omega)] at fits
    exact fits
  refine ⟨isDataStart.symm, ?_, exactFits, by omega, root, ?_⟩
  · intro cluster _ inCount
    rw [isPer, isFat]
    omega
  · intro s isSb isShift cluster positive inCount
    rcases pow_of_and_pred nonzero isSmall power with ⟨shift, shift_le, isPow⟩
    have before : (cluster - 1) * sb.clusterSectors ≤
        sb.clusterCount * sb.clusterSectors := Nat.mul_le_mul_right _ (by omega)
    have isIndex : (cluster + wordSize - 1) % wordSize = cluster - 1 := by
      rw [show cluster + wordSize - 1 = cluster - 1 + wordSize by omega, Nat.add_mod_right,
        Nat.mod_eq_of_lt (by omega)]
    unfold clusterSector
    rw [isSb, isShift, isIndex, isPow, shiftFor_pow shift_le, ← isPow]
    exact Nat.mod_eq_of_lt (by omega)

/-- A superblock with a cluster for every sector after the start of the filesystem. -/
def fullSuperBlock (diskSectors : Nat) : SuperBlock where
  magic := magicValue
  version := formatVersion
  totalSectors := diskSectors - fsLbaStart
  clusterSectors := 1
  clusterCount := diskSectors - fsLbaStart
  fatSectors := (diskSectors - fsLbaStart + 128) / 128
  dataStart := 1 + (diskSectors - fsLbaStart + 128) / 128
  rootCluster := 1

section Wrapping

variable {diskSectors : Nat}

theorem fullSuperBlock_words (large : wrappingDisk ≤ diskSectors)
    (isWord : diskSectors < wordSize) : (fullSuperBlock diskSectors).Words := by
  have isSize : wordSize = 2 ^ 32 := rfl
  have isStart : fsLbaStart = 4096 := rfl
  have isWrapping : wrappingDisk = 4261677070 := rfl
  constructor
  · exact (by decide : magicValue < wordSize)
  · exact (by decide : formatVersion < wordSize)
  all_goals
    simp only [fullSuperBlock]
    omega

/-- The last sum of the check wraps, so that the superblock is accepted. -/
theorem fullSuperBlock_accepted (large : wrappingDisk ≤ diskSectors)
    (isWord : diskSectors < wordSize) :
    superblockCheck diskSectors (fullSuperBlock diskSectors) = true := by
  have isSize : wordSize = 2 ^ 32 := rfl
  have isStart : fsLbaStart = 4096 := rfl
  have isPer : fatPerSector = 128 := rfl
  have isWrapping : wrappingDisk = 4261677070 := rfl
  rw [superblockCheck_iff]
  constructor
  case nonzero => exact Nat.one_ne_zero
  case small => exact (by decide : 1 ≤ maxClusterSectors)
  case power => exact (by decide : 1 &&& (1 - 1) = 0)
  case fat =>
    simp only [fullSuperBlock, fatSectorsFor]
    rw [isPer, Nat.mod_eq_of_lt (by omega)]
    omega
  case fits =>
    simp only [fullSuperBlock, isSize, Nat.mul_one]
    have long : 33294321 ≤ (diskSectors - fsLbaStart + 128) / 128 := by omega
    have short : (diskSectors - fsLbaStart + 128) / 128 ≤ 33554432 := by omega
    have reaches : 2 ^ 32 ≤
        1 + (diskSectors - fsLbaStart + 128) / 128 + (diskSectors - fsLbaStart) := by omega
    rw [Nat.mod_eq_sub_mod reaches, Nat.mod_eq_of_lt (by omega)]
    omega
  all_goals
    simp only [fullSuperBlock, isSize, Nat.div_one]
    omega

theorem fullSuperBlock_not_sound (diskSectors : Nat) :
    ¬ SoundLayout diskSectors (fullSuperBlock diskSectors) := by
  intro sound
  have fits := sound.fits
  simp only [fullSuperBlock] at fits
  omega

end Wrapping

/-- The check makes sure of the layout on every disk of fewer than `wrappingDisk`
sectors, and on no other. -/
theorem superblockCheck_sound_iff (diskSectors : UInt32)
    (large : minDiskSectors ≤ diskSectors.toNat) :
    (∀ sector : Sector,
      superblockCheck diskSectors.toNat (SuperBlock.ofSector sector) = true →
      SoundLayout diskSectors.toNat (SuperBlock.ofSector sector)) ↔
    diskSectors.toNat < wrappingDisk := by
  have isWord : diskSectors.toNat < wordSize := diskSectors.toNat_lt
  constructor
  · intro allSound
    by_contra notLess
    have isLarge : wrappingDisk ≤ diskSectors.toNat := Nat.not_lt.mp notLess
    have decoded := ofSector_toSector (fullSuperBlock_words isLarge isWord)
    have sound := allSound (fullSuperBlock diskSectors.toNat).toSector
    rw [decoded] at sound
    exact fullSuperBlock_not_sound _ (sound (fullSuperBlock_accepted isLarge isWord))
  · intro less sector accepted
    exact (superblockCheck_iff.mp accepted).sound large less

theorem superblockCheck_sound_small :
    8192 < wrappingDisk ∧
      ((∀ sector : Sector, superblockCheck 8192 (SuperBlock.ofSector sector) = true →
        SoundLayout 8192 (SuperBlock.ofSector sector)) ↔ 8192 < wrappingDisk) :=
  ⟨by decide, superblockCheck_sound_iff 8192 (by decide)⟩

/-- The largest disk, and a superblock whose clusters run past its end. -/
theorem superblockCheck_largest_wraps :
    ¬ ∀ (diskSectors : UInt32) (sector : Sector), minDiskSectors ≤ diskSectors.toNat →
      superblockCheck diskSectors.toNat (SuperBlock.ofSector sector) = true →
      SoundLayout diskSectors.toNat (SuperBlock.ofSector sector) := by
  intro allSound
  have isLarge : wrappingDisk ≤ (0xFFFFFFFF : UInt32).toNat := by decide
  have isWord : (0xFFFFFFFF : UInt32).toNat < wordSize := by decide
  have decoded := ofSector_toSector (fullSuperBlock_words isLarge isWord)
  have sound := allSound 0xFFFFFFFF (fullSuperBlock (0xFFFFFFFF : UInt32).toNat).toSector
    (by decide)
  rw [decoded] at sound
  exact fullSuperBlock_not_sound _ (sound (fullSuperBlock_accepted isLarge isWord))

end Katela.Filesystem
