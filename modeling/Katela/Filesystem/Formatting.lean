import Katela.Filesystem.Contents
import Katela.Filesystem.NameCalls
import Katela.Filesystem.Superblock

/-! # Formatting

`format_now` chooses a layout for the disk, erases the FAT, clears the root
directory and writes the superblock last. -/

namespace Katela.Filesystem

/-! ## The layout -/

section Layout

variable {total : Nat}

/-- The clusters have a power of two of sectors, and there are not too many of
them. -/
theorem chooseSectors_pow (total rounds : Nat) : ∀ power, power ≤ 7 →
    7 < rounds + power →
    ∃ shift, shift ≤ 7 ∧ chooseSectors total rounds (2 ^ power) = 2 ^ shift ∧
      (shift = power ∨ 64 * 2 ^ shift ≤ total) ∧
      (shift = 7 ∨ total / 2 ^ shift ≤ targetClusters) := by
  induction rounds with
  | zero => exact fun power small enough => absurd enough (by omega)
  | succ rounds induction =>
      intro power small enough
      unfold chooseSectors
      split
      · rename_i more
        have less : 2 ^ power < 2 ^ 7 := more.2
        have smaller : power < 7 := Nat.pow_lt_pow_iff_right (by decide) |>.mp less
        rcases induction (power + 1) smaller (by omega) with
          ⟨shift, shift_le, isPow, large, few⟩
        rw [Nat.pow_succ] at isPow
        refine ⟨shift, shift_le, isPow, Or.inr ?_, few⟩
        rcases large with rfl | large
        · -- The quotient by the smaller power is still more than the target.
          have target : targetClusters = 2 ^ 20 := rfl
          have quotient := Nat.div_mul_le_self total (2 ^ power)
          have product : 128 * 2 ^ power ≤ total / 2 ^ power * 2 ^ power :=
            Nat.mul_le_mul_right _ (by omega)
          rw [Nat.pow_succ]
          omega
        · exact large
      · rename_i done
        refine ⟨power, small, rfl, Or.inl rfl, ?_⟩
        by_contra more
        rw [not_or, Nat.not_le] at more
        refine done ⟨more.2, ?_⟩
        have less : 2 ^ power < 2 ^ 7 := Nat.pow_lt_pow_right (by decide) (by omega)
        exact less

theorem fitClusters_le (total sectors clusters : Nat) :
    fitClusters total sectors clusters ≤ clusters := by
  induction clusters with
  | zero => exact Nat.le_refl 0
  | succ clusters induction =>
      unfold fitClusters
      split
      · omega
      · exact Nat.le_refl _

theorem fatSectorsFor_eq {clusters : Nat} (small : clusters < 2 ^ 31) :
    fatSectorsFor clusters = clusters / fatPerSector + 1 := by
  have word : wordSize = 2 ^ 32 := rfl
  have per : fatPerSector = 128 := rfl
  unfold fatSectorsFor
  rw [Nat.mod_eq_of_lt (by omega), per]
  omega

/-- The FAT of the chosen number of clusters fits, and no larger number was
tried that fits as well. -/
theorem fitClusters_fits (total sectors clusters : Nat) :
    let fit := fitClusters total sectors clusters
    (fit * sectors + fatSectorsFor fit) % wordSize ≤ total - 1 ∨ fit = 0 := by
  induction clusters with
  | zero => exact Or.inr rfl
  | succ clusters induction =>
      unfold fitClusters
      split
      · exact induction
      · rename_i fits
        exact Or.inl (Nat.le_of_not_lt fits)

/-- A number of clusters that fits is a lower bound. -/
theorem le_fitClusters {sectors clusters enough : Nat} (less : enough ≤ clusters)
    (fits : (enough * sectors + fatSectorsFor enough) % wordSize ≤ total - 1) :
    enough ≤ fitClusters total sectors clusters := by
  induction clusters with
  | zero => exact less
  | succ clusters induction =>
      unfold fitClusters
      split
      · rename_i tooLarge
        apply induction
        by_contra more
        have equal : enough = clusters + 1 := by omega
        subst equal
        omega
      · exact less

/-- The layout of a new filesystem. On the largest disks its last sum wraps. -/
structure LaidOut (total : Nat) (shift : Nat) : Prop where
  sectors : (formatLayout total).clusterSectors = 2 ^ shift
  shift_le : shift ≤ 7
  few : (formatLayout total).clusterCount < 2 ^ 25
  fat : (formatLayout total).fatSectors =
    (formatLayout total).clusterCount / fatPerSector + 1
  product : (formatLayout total).clusterCount * 2 ^ shift < total
  fits : ((formatLayout total).clusterCount * 2 ^ shift +
    (formatLayout total).fatSectors) % wordSize < total
  enough : 48 ≤ (formatLayout total).clusterCount

theorem formatLayout_laidOut (large : 64 ≤ total) (isWord : total < wordSize) :
    ∃ shift, LaidOut total shift := by
  rcases chooseSectors_pow total 8 0 (by decide) (by decide) with
    ⟨shift, shift_le, isPow, large', few⟩
  have word : wordSize = 2 ^ 32 := rfl
  have per : fatPerSector = 128 := rfl
  rw [Nat.pow_zero] at isPow
  have sectors : (formatLayout total).clusterSectors = 2 ^ shift := isPow
  have count : (formatLayout total).clusterCount =
      fitClusters total (2 ^ shift) ((total - 1) / 2 ^ shift) := by
    rw [← isPow]
    rfl
  have most := fitClusters_le total (2 ^ shift) ((total - 1) / 2 ^ shift)
  rw [← count] at most
  have product : (formatLayout total).clusterCount * 2 ^ shift ≤ total - 1 :=
    (Nat.mul_le_mul_right _ most).trans (Nat.div_mul_le_self _ _)
  have power : 1 ≤ 2 ^ shift := Nat.two_pow_pos shift
  have below : (formatLayout total).clusterCount < 2 ^ 25 := by
    have target : targetClusters = 2 ^ 20 := rfl
    have quotient : (total - 1) / 2 ^ shift ≤ total / 2 ^ shift :=
      Nat.div_le_div_right (Nat.sub_le _ _)
    rcases few with rfl | few
    · omega
    · omega
  have fat : (formatLayout total).fatSectors =
      (formatLayout total).clusterCount / fatPerSector + 1 :=
    fatSectorsFor_eq (Nat.lt_trans below (by decide))
  have enough : 48 ≤ (formatLayout total).clusterCount := by
    rw [count]
    have fitting : 64 * 2 ^ shift ≤ total := by
      rcases large' with rfl | fitting
      · omega
      · exact fitting
    apply le_fitClusters
    · apply (Nat.le_div_iff_mul_le power).mpr
      omega
    · have fat : fatSectorsFor 48 = 1 := by decide
      rw [fat, Nat.mod_eq_of_lt (by omega)]
      omega
  refine ⟨shift, sectors, shift_le, below, fat, by omega, ?_, enough⟩
  have fits := fitClusters_fits total (2 ^ shift) ((total - 1) / 2 ^ shift)
  simp only [← count] at fits
  rcases fits with fits | none
  · rw [fatSectorsFor_eq (by omega), ← fat] at fits
    omega
  · omega

namespace LaidOut

variable {shift : Nat}

/-- Unless the disk has nearly 2^32 sectors the clusters end before it does. -/
theorem fits_total (laidOut : LaidOut total shift) (small : total < 2 ^ 32 - 2 ^ 19) :
    1 + (formatLayout total).fatSectors +
      (formatLayout total).clusterCount * 2 ^ shift ≤ total := by
  have fits : ((formatLayout total).clusterCount * 2 ^ shift +
    (formatLayout total).fatSectors) % 2 ^ 32 < total := laidOut.fits
  have few := laidOut.few
  have fat : (formatLayout total).fatSectors =
    (formatLayout total).clusterCount / 128 + 1 := laidOut.fat
  have product := laidOut.product
  rw [Nat.mod_eq_of_lt (by omega)] at fits
  omega

/-- The new superblock is one that `mount_now` accepts. -/
theorem accepted (laidOut : LaidOut total shift) (isWord : total < wordSize) :
    superblockCheck (fsLbaStart + total) (formatLayout total) = true := by
  have word : wordSize = 2 ^ 32 := rfl
  have isMax : maxClusterSectors = 2 ^ 7 := rfl
  have few := laidOut.few
  have fat : (formatLayout total).fatSectors =
    (formatLayout total).clusterCount / 128 + 1 := laidOut.fat
  have fits : ((formatLayout total).clusterCount * 2 ^ shift +
    (formatLayout total).fatSectors) % 2 ^ 32 < total := laidOut.fits
  have product := laidOut.product
  have enough := laidOut.enough
  have power : 1 ≤ 2 ^ shift := Nat.two_pow_pos shift
  have isStart : (formatLayout total).dataStart = 1 + (formatLayout total).fatSectors :=
    rfl
  have isTotal : (formatLayout total).totalSectors = total := rfl
  have isRoot : (formatLayout total).rootCluster = 1 := rfl
  rw [superblockCheck_iff]
  constructor
  case nonzero =>
    rw [laidOut.sectors]
    omega
  case small =>
    rw [laidOut.sectors, isMax]
    exact Nat.pow_le_pow_right (by decide) laidOut.shift_le
  case power =>
    rw [laidOut.sectors]
    exact pow_and_pred laidOut.shift_le
  case total =>
    rw [isTotal]
    omega
  case countPos => omega
  case count =>
    rw [laidOut.sectors, isTotal]
    exact (Nat.le_div_iff_mul_le power).mpr (by omega)
  case fat => rfl
  case start =>
    rw [isStart, word, Nat.mod_eq_of_lt (by omega)]
  case fits =>
    rw [laidOut.sectors, isStart, isTotal, word]
    omega
  case root =>
    rw [isRoot]
    omega

theorem words (laidOut : LaidOut total shift) (isWord : total < wordSize) :
    (formatLayout total).Words := by
  have word : wordSize = 2 ^ 32 := rfl
  have few := laidOut.few
  have fat : (formatLayout total).fatSectors =
    (formatLayout total).clusterCount / 128 + 1 := laidOut.fat
  have power : 2 ^ shift ≤ 2 ^ 7 := Nat.pow_le_pow_right (by decide) laidOut.shift_le
  constructor
  · exact (by decide : magicValue < wordSize)
  · exact (by decide : formatVersion < wordSize)
  · exact isWord
  · rw [laidOut.sectors]
    omega
  · omega
  · omega
  · change 1 + (formatLayout total).fatSectors < wordSize
    omega
  · exact (by decide : 1 < wordSize)

/-- The new superblock as a format of the disk. -/
def format (laidOut : LaidOut total shift) (large : 64 ≤ total)
    (small : total < 2 ^ 32 - 2 ^ 19) (past : List (Nat → Sector)) : Format where
  sb := formatLayout total
  shift := shift
  label := (formatLayout total).toSector
  total := fsLbaStart + total
  geometry :=
    { sectors := laidOut.sectors
      shift_le := laidOut.shift_le
      fat := laidOut.fat
      start := rfl
      fits := laidOut.fits_total small
      small := by
        have start : fsLbaStart = 4096 := rfl
        change fsLbaStart + total ≤ 0xFFFFFFFF
        omega
      root_pos := Nat.le_refl 1
      root_le := Nat.le_trans (by decide : 1 ≤ 48) laidOut.enough }
  decoded := ofSector_toSector (laidOut.words (small.trans (by decide)))
  magic := rfl
  version := rfl
  accepted := laidOut.accepted (small.trans (by decide))
  shifted := by
    rw [laidOut.sectors]
    exact shiftFor_pow laidOut.shift_le
  large := by
    change fsLbaStart + 64 ≤ fsLbaStart + total
    omega
  past := past

/-- The sectors that formatting writes have numbers that do not wrap. -/
theorem low (laidOut : LaidOut total shift) :
    (formatLayout total).dataStart + 2 ^ shift < 2 ^ 19 := by
  have few := laidOut.few
  have fat : (formatLayout total).fatSectors =
    (formatLayout total).clusterCount / 128 + 1 := laidOut.fat
  have power : 2 ^ shift ≤ 2 ^ 7 := Nat.pow_le_pow_right (by decide) laidOut.shift_le
  have isStart : (formatLayout total).dataStart = 1 + (formatLayout total).fatSectors :=
    rfl
  omega

end LaidOut

end Layout

/-! ## Clearing sectors -/

/-- Some of the sectors `Here` were cleared, one after the other. -/
structure Wiped (Here : Nat → Prop) (s s' : Fs) : Prop where
  still : Still s s'
  cacheSector : s'.fatCacheSector = s.fatCacheSector
  dirty : s'.fatDirty = s.fatDirty
  cache : s'.fatCache = s.fatCache
  disk : ∀ sector, s'.disk sector = s.disk sector ∨
    Here sector ∧ s'.disk sector = zeroSector
  history : ∀ sectors ∈ s'.history, sectors ∈ s.history ∨
    ∀ sector, volumeOf sectors sector = s.disk sector ∨
      Here sector ∧ volumeOf sectors sector = zeroSector

namespace Wiped

variable {Here There : Nat → Prop} {s s' s'' : Fs}

theorem refl (s : Fs) : Wiped Here s s :=
  ⟨.refl s, rfl, rfl, rfl, fun _ => Or.inl rfl, fun _ member => Or.inl member⟩

theorem request (s : Fs) (sector : Nat) (purpose : Option Purpose) :
    Wiped Here s (s.request sector purpose) :=
  ⟨⟨⟨rfl, rfl, rfl, rfl, rfl, rfl, List.suffix_refl _⟩, rfl, rfl⟩, rfl, rfl, rfl,
    fun _ => Or.inl rfl, fun _ member => Or.inl member⟩

theorem mono (wiped : Wiped Here s s')
    (more : ∀ sector, Here sector → There sector) : Wiped There s s' where
  still := wiped.still
  cacheSector := wiped.cacheSector
  dirty := wiped.dirty
  cache := wiped.cache
  disk sector := (wiped.disk sector).imp_right (And.imp_left (more sector))
  history sectors member := (wiped.history sectors member).imp_right
    fun new sector => (new sector).imp_right (And.imp_left (more sector))

theorem trans (first : Wiped Here s s') (second : Wiped Here s' s'') :
    Wiped Here s s'' where
  still := first.still.trans second.still
  cacheSector := second.cacheSector.trans first.cacheSector
  dirty := second.dirty.trans first.dirty
  cache := second.cache.trans first.cache
  disk sector := by
    rcases second.disk sector with same | zero
    · rw [same]
      exact first.disk sector
    · exact Or.inr zero
  history sectors member := by
    rcases second.history sectors member with before | new
    · exact first.history sectors before
    · right
      intro sector
      rcases new sector with same | zero
      · rw [same]
        exact first.disk sector
      · exact Or.inr zero

/-- A sector that is clear stays clear. -/
theorem zero (wiped : Wiped Here s s') {sector : Nat}
    (isZero : s.disk sector = zeroSector) : s'.disk sector = zeroSector := by
  rcases wiped.disk sector with same | zero
  · exact same.trans isZero
  · exact zero.2

theorem disk_eq (wiped : Wiped Here s s') {sector : Nat} (away : ¬ Here sector) :
    s'.disk sector = s.disk sector :=
  (wiped.disk sector).resolve_right fun zero => away zero.1

end Wiped

/-- The number of a sector in the lower part of the disk. -/
theorem lbaOf_eq {sector : Nat} (low : sector < 2 ^ 19) :
    lbaOf sector = fsLbaStart + sector := by
  have start : fsLbaStart = 4096 := rfl
  have word : wordSize = 2 ^ 32 := rfl
  apply Nat.mod_eq_of_lt
  omega

section Clearing

variable {s : Fs}

theorem blockWrite_wiped (purpose : Purpose) {sector : Nat} (low : sector < 2 ^ 19) :
    Meets (blockWrite purpose sector zeroSector) s
      (fun _ s' => Wiped (· = sector) s s' ∧ s'.disk sector = zeroSector)
      fun error s' => error = .io ∧ ¬ s.Quiet ∧ Wiped (· = sector) s s' := by
  refine (blockWrite_spec s purpose sector zeroSector).mono ?_ ?_
  · rintro _ s' rfl
    have disk : ((s.request sector (some purpose)).store sector zeroSector).disk =
        Function.update s.disk sector zeroSector :=
      Fs.disk_store (s.request sector (some purpose)) zeroSector (lbaOf_eq low)
    have changed : ∀ other, Function.update s.disk sector zeroSector other =
        s.disk other ∨ other = sector ∧
          Function.update s.disk sector zeroSector other = zeroSector := by
      intro other
      by_cases equal : other = sector
      · subst equal
        exact Or.inr ⟨rfl, Function.update_self ..⟩
      · exact Or.inl (Function.update_of_ne equal _ _)
    refine ⟨⟨⟨⟨rfl, rfl, rfl, rfl, rfl, rfl, List.suffix_cons _ _⟩, rfl, rfl⟩, rfl, rfl,
      rfl, ?_, ?_⟩, ?_⟩
    · rw [disk]
      exact changed
    · intro sectors member
      rcases List.mem_cons.mp member with rfl | before
      · right
        intro other
        change ((s.request sector (some purpose)).store sector zeroSector).disk other = _ ∨
          _ ∧ ((s.request sector (some purpose)).store sector zeroSector).disk other = _
        rw [disk]
        exact changed other
      · exact Or.inl before
    · rw [disk]
      exact Function.update_self ..
  · rintro error s' ⟨isIo, loud, rfl⟩
    exact ⟨isIo, loud, .request s sector _⟩

/-- Sectors that are written together. Later ones are written also after an
error. -/
theorem blocksWrite_wiped (purpose : Purpose) (count : Nat) :
    ∀ {s : Fs} {sector : Nat}, sector + count ≤ 2 ^ 19 →
    Meets (blocksWrite purpose sector (List.replicate count zeroSector)) s
      (fun _ s' => Wiped (InRun sector count) s s' ∧
        ∀ other, InRun sector count other → s'.disk other = zeroSector)
      fun error s' => error = .io ∧ ¬ s.Quiet ∧ Wiped (InRun sector count) s s' := by
  induction count with
  | zero =>
      intro s sector _
      refine .pure ⟨.refl s, fun other inRun => ?_⟩
      simp only [InRun] at inRun
      omega
  | succ count induction =>
      intro s sector low
      have wider : ∀ other, InRun (sector + 1) count other →
          InRun sector (count + 1) other := by
        intro other inRun
        simp only [InRun] at *
        omega
      have here : ∀ other, other = sector → InRun sector (count + 1) other := by
        rintro other rfl
        simp [InRun]
      rw [List.replicate_succ]
      unfold blocksWrite
      refine .bind (.attempt ((blockWrite_wiped purpose (by omega)).mono ?_ ?_))
      · rintro _ s1 ⟨first, isZero⟩
        refine .bind (.attempt ((induction (by omega)).mono ?_ ?_))
        · rintro _ s2 ⟨rest, zeros⟩
          refine .pure ⟨(first.mono here).trans (rest.mono wider), ?_⟩
          intro other inRun
          by_cases equal : other = sector
          · subst equal
            exact rest.zero isZero
          · apply zeros
            simp only [InRun] at *
            omega
        · rintro error s2 ⟨_, loud, rest⟩
          exact .throw ⟨rfl, first.still.same.not_quiet loud,
            (first.mono here).trans (rest.mono wider)⟩
      · rintro error s1 ⟨_, loud, first⟩
        refine .bind (.attempt ((induction (by omega)).mono ?_ ?_))
        · rintro _ s2 ⟨rest, _⟩
          exact .throw ⟨rfl, loud, (first.mono here).trans (rest.mono wider)⟩
        · rintro _ s2 ⟨_, _, rest⟩
          exact .throw ⟨rfl, loud, (first.mono here).trans (rest.mono wider)⟩

theorem eraseFat_wiped {fat : Nat} (low : fat ≤ 2 ^ 18) (rounds : Nat) :
    ∀ {s : Fs} {index : Nat}, fat - index ≤ rounds →
    Meets (eraseFat fat rounds index) s
      (fun _ s' => Wiped (InRun (1 + index) (fat - index)) s s' ∧
        ∀ other, InRun (1 + index) (fat - index) other → s'.disk other = zeroSector)
      fun error s' => error = .io ∧ ¬ s.Quiet ∧
        Wiped (InRun (1 + index) (fat - index)) s s' := by
  have batch : zeroBatch = 8 := rfl
  induction rounds with
  | zero =>
      intro s index enough
      refine .pure ⟨.refl s, fun other inRun => ?_⟩
      simp only [InRun] at inRun
      omega
  | succ rounds induction =>
      intro s index enough
      unfold eraseFat
      refine .ite (fun less => ?_) fun done => ?_
      · have inBatch : ∀ other, InRun (1 + index) (min (fat - index) zeroBatch) other →
            InRun (1 + index) (fat - index) other := by
          intro other inRun
          simp only [InRun] at *
          omega
        have wider : ∀ other,
            InRun (1 + (index + zeroBatch)) (fat - (index + zeroBatch)) other →
            InRun (1 + index) (fat - index) other := by
          intro other inRun
          simp only [InRun] at *
          omega
        refine (blocksWrite_wiped .fat _ (by omega)).seq ?_ ?_
        · rintro _ s1 ⟨first, zeros⟩
          refine (induction (by omega)).mono ?_ ?_
          · rintro _ s2 ⟨rest, zeros'⟩
            refine ⟨(first.mono inBatch).trans (rest.mono wider), ?_⟩
            intro other inRun
            by_cases early : other < 1 + index + zeroBatch
            · refine rest.zero (zeros other ?_)
              simp only [InRun] at *
              omega
            · refine zeros' other ?_
              simp only [InRun] at *
              omega
          · rintro error s2 ⟨isIo, loud, rest⟩
            exact ⟨isIo, first.still.same.not_quiet loud,
              (first.mono inBatch).trans (rest.mono wider)⟩
        · rintro error s1 ⟨isIo, loud, first⟩
          exact ⟨isIo, loud, first.mono inBatch⟩
      · refine .pure ⟨.refl s, fun other inRun => ?_⟩
        simp only [InRun] at inRun
        omega

theorem zeroSectors_wiped (count : Nat) :
    ∀ {s : Fs} {sector : Nat}, sector + count ≤ 2 ^ 19 →
    Meets (zeroSectors count sector) s
      (fun _ s' => Wiped (InRun sector count) s s' ∧
        ∀ other, InRun sector count other → s'.disk other = zeroSector)
      fun error s' => error = .io ∧ ¬ s.Quiet ∧ Wiped (InRun sector count) s s' := by
  induction count with
  | zero =>
      intro s sector _
      refine .pure ⟨.refl s, fun other inRun => ?_⟩
      simp only [InRun] at inRun
      omega
  | succ count induction =>
      intro s sector low
      have wider : ∀ other, InRun (sector + 1) count other →
          InRun sector (count + 1) other := by
        intro other inRun
        simp only [InRun] at *
        omega
      have here : ∀ other, other = sector → InRun sector (count + 1) other := by
        rintro other rfl
        simp [InRun]
      unfold zeroSectors
      refine (blockWrite_wiped .directory (by omega)).seq ?_ ?_
      · rintro _ s1 ⟨first, isZero⟩
        refine (induction (by omega)).mono ?_ ?_
        · rintro _ s2 ⟨rest, zeros⟩
          refine ⟨(first.mono here).trans (rest.mono wider), ?_⟩
          intro other inRun
          by_cases equal : other = sector
          · subst equal
            exact rest.zero isZero
          · apply zeros
            simp only [InRun] at *
            omega
        · rintro error s2 ⟨isIo, loud, rest⟩
          exact ⟨isIo, first.still.same.not_quiet loud,
            (first.mono here).trans (rest.mono wider)⟩
      · rintro error s1 ⟨isIo, loud, first⟩
        exact ⟨isIo, loud, first.mono here⟩

end Clearing

/-! ## A new filesystem -/

/-- The first sector of a new FAT: only the root directory is in use. -/
def rootFat : Sector := zeroSector.setWordAt 4 chainEnd

/-- A disk that was just formatted. -/
structure Fresh (layout : SuperBlock) (shift : Nat) (image : Image) : Prop where
  label : image 0 = layout.toSector
  first : image 1 = rootFat
  fat : ∀ sector, 2 ≤ sector → sector ≤ layout.fatSectors → image sector = zeroSector
  root : ∀ sector, InRun layout.dataStart (2 ^ shift) sector →
    image sector = zeroSector

/-- A disk on which formatting has started. The superblock is written last. -/
structure Begun (layout : SuperBlock) (shift : Nat) (before image : Image) : Prop where
  label : image 0 = before 0
  rest : ∀ sector, image sector = before sector ∨
    sector < layout.dataStart + 2 ^ shift ∧
      (image sector = zeroSector ∨ sector = 1 ∧ image sector = rootFat)

theorem Begun.refl {layout : SuperBlock} {shift : Nat} (before : Image) :
    Begun layout shift before before :=
  ⟨rfl, fun _ => Or.inl rfl⟩

/-- The first sector of the FAT was written. -/
theorem Begun.rootFat {layout : SuperBlock} {shift : Nat} {before image : Image}
    (begun : Begun layout shift before image) (behind : 1 < layout.dataStart + 2 ^ shift) :
    Begun layout shift before (Function.update image 1 rootFat) where
  label := by
    rw [Function.update_of_ne (by decide)]
    exact begun.label
  rest sector := by
    by_cases equal : sector = 1
    · subst equal
      rw [Function.update_self]
      exact Or.inr ⟨behind, Or.inr ⟨rfl, rfl⟩⟩
    · rw [Function.update_of_ne equal]
      exact begun.rest sector

/-- The first sector of the FAT and the superblock are written to cleared sectors. -/
theorem Fresh.of_cleared {layout : SuperBlock} {shift : Nat} {image : Image}
    (behind : 2 ≤ layout.dataStart)
    (fat : ∀ sector, 2 ≤ sector → sector ≤ layout.fatSectors → image sector = zeroSector)
    (root : ∀ sector, InRun layout.dataStart (2 ^ shift) sector → image sector = zeroSector) :
    Fresh layout shift
      (Function.update (Function.update image 1 Filesystem.rootFat) 0 layout.toSector) := by
  have elsewhere : ∀ sector, 2 ≤ sector →
      Function.update (Function.update image 1 Filesystem.rootFat) 0 layout.toSector sector =
        image sector := by
    intro sector atLeast
    rw [Function.update_of_ne (by omega), Function.update_of_ne (by omega)]
  constructor
  case label => exact Function.update_self ..
  case first =>
    rw [Function.update_of_ne (by decide)]
    exact Function.update_self ..
  case fat =>
    intro sector atLeast atMost
    rw [elsewhere sector atLeast]
    exact fat sector atLeast atMost
  case root =>
    intro sector inRun
    rw [elsewhere sector (Nat.le_trans behind inRun.1)]
    exact root sector inRun

/-- Sectors behind the superblock were cleared. -/
theorem Begun.wiped {layout : SuperBlock} {shift : Nat} {before image image' : Image}
    {Here : Nat → Prop} (begun : Begun layout shift before image)
    (inside : ∀ sector, Here sector →
      1 ≤ sector ∧ sector < layout.dataStart + 2 ^ shift)
    (changed : ∀ sector, image' sector = image sector ∨
      Here sector ∧ image' sector = zeroSector) :
    Begun layout shift before image' where
  label := by
    rcases changed 0 with same | ⟨here, _⟩
    · exact same.trans begun.label
    · exact absurd (inside 0 here).1 (by decide)
  rest sector := by
    rcases changed sector with same | ⟨here, zero⟩
    · rw [same]
      exact begun.rest sector
    · exact Or.inr ⟨(inside sector here).2, Or.inl zero⟩

/-- What `format_now` changes in memory and what it may have written so far. -/
structure Reformats (layout : SuperBlock) (shift : Nat) (s s' : Fs) : Prop where
  sb : s'.sb = layout
  clusterShift : s'.clusterShift = shift
  diskSectors : s'.diskSectors = s.diskSectors
  total : s'.total = s.total
  fails : s'.fails = s.fails
  files : s'.files = s.files
  iters : s'.iters = s.iters
  history : ∀ sectors ∈ s'.history, sectors ∈ s.history ∨
    Begun layout shift s.disk (volumeOf sectors) ∨ Fresh layout shift (volumeOf sectors)
  grows : s.history <:+ s'.history

namespace Reformats

variable {layout : SuperBlock} {shift : Nat} {s s' s'' : Fs}

theorem still (reformats : Reformats layout shift s s') (still : Still s' s'')
    (history : ∀ sectors ∈ s''.history, sectors ∈ s'.history ∨
      Begun layout shift s.disk (volumeOf sectors) ∨
        Fresh layout shift (volumeOf sectors)) : Reformats layout shift s s'' where
  sb := still.same.sb.trans reformats.sb
  clusterShift := still.same.clusterShift.trans reformats.clusterShift
  diskSectors := still.same.diskSectors.trans reformats.diskSectors
  total := still.same.total.trans reformats.total
  fails := still.same.fails.trans reformats.fails
  files := still.files.trans reformats.files
  iters := still.iters.trans reformats.iters
  history sectors member := by
    rcases history sectors member with before | new
    · exact reformats.history sectors before
    · exact Or.inr new
  grows := reformats.grows.trans still.same.grows

theorem wiped {Here : Nat → Prop} (reformats : Reformats layout shift s s')
    (begun : Begun layout shift s.disk s'.disk) (wiped : Wiped Here s' s'')
    (inside : ∀ sector, Here sector →
      1 ≤ sector ∧ sector < layout.dataStart + 2 ^ shift) :
    Reformats layout shift s s'' :=
  reformats.still wiped.still fun sectors member =>
    (wiped.history sectors member).imp_right fun new =>
      Or.inl (begun.wiped inside new)

theorem withMounted (reformats : Reformats layout shift s s') (mounted : Bool) :
    Reformats layout shift s { s' with mounted := mounted } :=
  ⟨reformats.sb, reformats.clusterShift, reformats.diskSectors, reformats.total,
    reformats.fails, reformats.files, reformats.iters, reformats.history, reformats.grows⟩

theorem request (reformats : Reformats layout shift s s') (sector : Nat)
    (purpose : Option Purpose) : Reformats layout shift s (s'.request sector purpose) :=
  ⟨reformats.sb, reformats.clusterShift, reformats.diskSectors, reformats.total,
    reformats.fails, reformats.files, reformats.iters, reformats.history, reformats.grows⟩

theorem not_quiet (reformats : Reformats layout shift s s') (loud : ¬ s'.Quiet) :
    ¬ s.Quiet := by
  intro quiet
  apply loud
  unfold Fs.Quiet
  rw [reformats.fails]
  exact quiet

end Reformats

section NewFilesystem

variable {s : Fs}

/-- The first entry of a FAT that is not cached yet. -/
theorem fatSet_first (empty : s.fatCacheSector = noSector)
    (clean : s.fatDirty = false) (nonempty : 1 ≤ s.sb.clusterCount) :
    Meets (fatSet 1 chainEnd) s
      (fun _ s' => Still s s' ∧ s'.disk = s.disk ∧ s'.history = s.history ∧
        s'.fatCacheSector = 1 ∧ s'.fatDirty = true ∧
        s'.fatCache = (s.disk 1).setWordAt 4 chainEnd)
      fun error s' => error = .io ∧ ¬ s.Quiet ∧ Still s s' ∧ s'.disk = s.disk ∧
        s'.history = s.history := by
  have here : 1 + 1 / fatPerSector = 1 := by decide
  have offset : 4 * (1 % fatPerSector) = 4 := by decide
  have notCached : ¬ s.fatCacheSector = 1 := by
    rw [empty]
    decide
  unfold fatSet
  refine .bind (.get (.bind (.require (fun _ => ?_) fun outside => ?_)))
  · rw [here, offset]
    unfold fatLoad fatFlush fatFill
    refine .bind (.bind (.get ?_))
    rw [if_neg notCached]
    refine .bind (.bind (.get ?_))
    rw [clean]
    refine .pure (.bind (.attempt ((blockRead_spec s 1).mono ?_ ?_)))
    · rintro contents s' ⟨rfl, rfl⟩
      refine .modify (.modify ?_)
      exact ⟨⟨⟨rfl, rfl, rfl, rfl, rfl, rfl, List.suffix_refl _⟩, rfl, rfl⟩, rfl, rfl, rfl,
        rfl, rfl⟩
    · rintro error s' ⟨rfl, loud, rfl⟩
      refine .bind (.modify (.throw ?_))
      exact ⟨rfl, loud, ⟨⟨rfl, rfl, rfl, rfl, rfl, rfl, List.suffix_refl _⟩, rfl, rfl⟩,
        rfl, rfl⟩
  · exact absurd ⟨Nat.one_ne_zero, nonempty⟩ outside

/-- The sector of the first cluster. -/
theorem clusterSector_one (bounded : s.sb.dataStart < wordSize) :
    clusterSector s 1 = s.sb.dataStart := by
  have first : (1 + wordSize - 1) % wordSize = 0 := by decide
  unfold clusterSector
  rw [first, Nat.zero_mul, Nat.add_zero]
  exact Nat.mod_eq_of_lt bounded

/-- A new filesystem is mounted, and the start of its FAT is in the cache. -/
structure Installed (layout : SuperBlock) (shift : Nat) (s : Fs) : Prop where
  sb : s.sb = layout
  clusterShift : s.clusterShift = shift
  mounted : s.mounted = true
  clean : s.fatDirty = false
  cacheSector : s.fatCacheSector = 1
  cache : s.fatCache = rootFat
  fresh : Fresh layout shift s.disk

/-- What `format_now` leaves when it succeeds. -/
structure NewFilesystem (layout : SuperBlock) (shift : Nat) (s s' : Fs) : Prop
    extends Installed layout shift s' where
  reformats : Reformats layout shift s s'
  written : s'.sectors ∈ s'.history

/-- A write to the first sectors of the filesystem. -/
theorem blockWrite_low (purpose : Purpose) {sector : Nat} (contents : Sector)
    (low : sector < 2 ^ 19) :
    Meets (blockWrite purpose sector contents) s
      (fun _ s' => Still s s' ∧ s'.disk = Function.update s.disk sector contents ∧
        (∀ sectors ∈ s'.history, sectors ∈ s.history ∨ volumeOf sectors = s'.disk) ∧
        s'.fatDirty = s.fatDirty ∧ s'.fatCacheSector = s.fatCacheSector ∧
        s'.fatCache = s.fatCache ∧ s'.sectors ∈ s'.history)
      fun error s' => error = .io ∧ ¬ s.Quiet ∧ s' = s.request sector (some purpose) := by
  refine (blockWrite_spec s purpose sector contents).mono ?_ fun _ _ failed => failed
  rintro _ s' rfl
  refine ⟨⟨⟨rfl, rfl, rfl, rfl, rfl, rfl, List.suffix_cons _ _⟩, rfl, rfl⟩, ?_, ?_, rfl,
    rfl, rfl, List.mem_cons_self⟩
  · exact Fs.disk_store (s.request sector (some purpose)) contents (lbaOf_eq low)
  · intro sectors member
    rcases List.mem_cons.mp member with rfl | before
    · exact Or.inr rfl
    · exact Or.inl before

variable {total shift : Nat} {s0 : Fs}

/-- The end of `format_root`: the FAT is written back, and the superblock makes the new
filesystem the one on the disk. -/
theorem formatEnd_spec {layout : SuperBlock} (reformats : Reformats layout shift s0 s)
    (begun : Begun layout shift s0.disk s.disk) (behind : 1 < layout.dataStart + 2 ^ shift)
    (mounted : s.mounted = true) (dirty : s.fatDirty = true) (cached : s.fatCacheSector = 1)
    (cache : s.fatCache = rootFat)
    (fresh : Fresh layout shift
      (Function.update (Function.update s.disk 1 rootFat) 0 layout.toSector)) :
    Meets (do
        fatFlush
        blockWrite .superblock 0 layout.toSector) s
      (fun _ s' => NewFilesystem layout shift s0 s')
      fun error s' => error = .io ∧ ¬ s.Quiet ∧ Reformats layout shift s0 s' ∧
        Begun layout shift s0.disk s'.disk := by
  unfold fatFlush
  refine .bind (.bind (.get ?_))
  rw [dirty, cached, cache]
  refine (blockWrite_low .fat rootFat (by decide)).seq ?_ ?_
  · rintro _ s1 ⟨still1, disk1, history1, dirty1, cacheSector1, cache1, _⟩
    have begun1 : Begun layout shift s0.disk s1.disk := by
      rw [disk1]
      exact begun.rootFat behind
    have reformats1 : Reformats layout shift s0 s1 := by
      refine reformats.still still1 fun sectors member => ?_
      rcases history1 sectors member with before | new
      · exact Or.inl before
      · rw [new]
        exact Or.inr (Or.inl begun1)
    have cleaned1 : Reformats layout shift s0 { s1 with fatDirty := false } :=
      ⟨reformats1.sb, reformats1.clusterShift, reformats1.diskSectors, reformats1.total,
        reformats1.fails, reformats1.files, reformats1.iters, reformats1.history,
        reformats1.grows⟩
    refine .modify ((blockWrite_low .superblock _ (by decide)).mono ?_ ?_)
    · rintro _ s2 ⟨still2, disk2, history2, dirty2, cacheSector2, cache2, written⟩
      have fresh2 : Fresh layout shift s2.disk := by
        change s2.disk = Function.update s1.disk 0 layout.toSector at disk2
        rw [disk2, disk1]
        exact fresh
      have reformats2 : Reformats layout shift s0 s2 := by
        refine cleaned1.still still2 fun sectors member => ?_
        rcases history2 sectors member with before | new
        · exact Or.inl before
        · rw [new]
          exact Or.inr (Or.inr fresh2)
      have mounted2 : s2.mounted = true := still2.same.mounted.trans
        (still1.same.mounted.trans mounted)
      exact ⟨⟨reformats2.sb, reformats2.clusterShift, mounted2, dirty2,
        cacheSector2.trans (cacheSector1.trans cached), cache2.trans (cache1.trans cache),
        fresh2⟩, reformats2, written⟩
    · rintro error s2 ⟨isIo, loud, rfl⟩
      have loud1 : ¬ s1.Quiet := loud
      exact ⟨isIo, still1.same.not_quiet loud1, cleaned1.request _ _, begun1⟩
  · rintro error s1 ⟨isIo, loud, rfl⟩
    exact ⟨isIo, loud, reformats.request _ _, begun⟩

theorem formatRoot_spec (laidOut : LaidOut total shift)
    (reformats : Reformats (formatLayout total) shift s0 s)
    (begun : Begun (formatLayout total) shift s0.disk s.disk)
    (mounted : s.mounted = true) (empty : s.fatCacheSector = noSector)
    (clean : s.fatDirty = false)
    (zeros : ∀ sector, InRun 1 (formatLayout total).fatSectors sector →
      s.disk sector = zeroSector) :
    Meets formatRoot s
      (fun _ s' => NewFilesystem (formatLayout total) shift s0 s')
      fun error s' => error = .io ∧ ¬ s.Quiet ∧
        Reformats (formatLayout total) shift s0 s' ∧
        Begun (formatLayout total) shift s0.disk s'.disk := by
  have low := laidOut.low
  have power := Nat.two_pow_pos shift
  have someFat : 1 ≤ (formatLayout total).fatSectors := by
    rw [laidOut.fat]
    exact Nat.le_add_left 1 _
  have isStart : (formatLayout total).dataStart = 1 + (formatLayout total).fatSectors :=
    rfl
  have isRoot : s.sb.rootCluster = 1 := by
    rw [reformats.sb]
    rfl
  have nonempty : 1 ≤ s.sb.clusterCount := by
    rw [reformats.sb]
    exact Nat.le_trans (by decide : 1 ≤ 48) laidOut.enough
  have inside : ∀ sector, InRun (formatLayout total).dataStart (2 ^ shift) sector →
      1 ≤ sector ∧ sector < (formatLayout total).dataStart + 2 ^ shift := by
    intro sector inRun
    simp only [InRun] at inRun
    omega
  unfold formatRoot
  refine .bind (.get ?_)
  rw [isRoot, reformats.sb]
  refine (fatSet_first empty clean nonempty).seq ?_ ?_
  · rintro _ s1 ⟨still1, disk1, history1, cacheSector1, dirty1, cache1⟩
    have reformats1 := reformats.still still1 fun sectors member => by
      rw [history1] at member
      exact Or.inl member
    have begun1 : Begun (formatLayout total) shift s0.disk s1.disk := by
      rw [disk1]
      exact begun
    have isFirst : clusterSector s1 1 = (formatLayout total).dataStart := by
      rw [clusterSector_one, reformats1.sb]
      rw [reformats1.sb]
      simp only [wordSize]
      omega
    unfold clusterZero
    refine .bind (.bind (.get ?_))
    rw [isFirst, reformats1.clusterShift]
    refine (zeroSectors_wiped (2 ^ shift) (by omega)).mono ?_ ?_
    · rintro _ s2 ⟨wiped, isRootZero⟩
      have isMounted : s2.mounted = true :=
        wiped.still.same.mounted.trans (still1.same.mounted.trans mounted)
      have isCache : s2.fatCache = rootFat := by
        rw [wiped.cache, cache1, zeros 1 (by simp only [InRun]; omega)]
        rfl
      refine (formatEnd_spec (reformats1.wiped begun1 wiped inside)
        (begun1.wiped inside wiped.disk) (by omega) isMounted (wiped.dirty.trans dirty1)
        (wiped.cacheSector.trans cacheSector1) isCache ?_).mono (fun _ _ new => new) ?_
      · refine Fresh.of_cleared (by omega) (fun sector atLeast atMost => ?_) isRootZero
        rw [wiped.disk_eq fun inRun => by simp only [InRun] at inRun; omega, disk1]
        apply zeros
        simp only [InRun]
        omega
      · rintro error s3 ⟨isIo, loud, reformats3, begun3⟩
        exact ⟨isIo, still1.same.not_quiet (wiped.still.same.not_quiet loud), reformats3,
          begun3⟩
    · rintro error s2 ⟨isIo, loud, wiped⟩
      exact ⟨isIo, still1.same.not_quiet loud, reformats1.wiped begun1 wiped inside,
        begun1.wiped inside wiped.disk⟩
  · rintro error s1 ⟨isIo, loud, still1, disk1, history1⟩
    refine ⟨isIo, loud, reformats.still still1 fun sectors member => ?_, ?_⟩
    · rw [history1] at member
      exact Or.inl member
    · rw [disk1]
      exact begun

/-- What `format_now` leaves when a transfer fails. -/
structure FormatFailed (layout : SuperBlock) (shift : Nat) (s s' : Fs) : Prop where
  reformats : Reformats layout shift s s'
  loud : ¬ s.Quiet
  mounted : s'.mounted = false
  begun : Begun layout shift s.disk s'.disk

theorem formatNow_spec (large : minDiskSectors ≤ s.diskSectors)
    (laidOut : LaidOut (s.diskSectors - fsLbaStart) shift) :
    Meets formatNow s
      (fun _ s' =>
        NewFilesystem (formatLayout (s.diskSectors - fsLbaStart)) shift s s')
      fun error s' => error = .io ∧
        FormatFailed (formatLayout (s.diskSectors - fsLbaStart)) shift s s' := by
  have low := laidOut.low
  have power := Nat.two_pow_pos shift
  have isStart : (formatLayout (s.diskSectors - fsLbaStart)).dataStart =
    1 + (formatLayout (s.diskSectors - fsLbaStart)).fatSectors := rfl
  have isShift : shiftFor (formatLayout (s.diskSectors - fsLbaStart)).clusterSectors =
      shift := by
    rw [laidOut.sectors]
    exact shiftFor_pow laidOut.shift_le
  have few := laidOut.few
  have fewFat : (formatLayout (s.diskSectors - fsLbaStart)).fatSectors ≤ 2 ^ 18 := by
    rw [laidOut.fat]
    simp only [fatPerSector]
    omega
  unfold formatNow
  refine .bind (.get (.bind (.require (fun _ => ?_) fun small => absurd large small)))
  dsimp only
  refine .bind (.require (fun _ => ?_) fun few => absurd
    (Nat.le_trans (by decide : minClusters ≤ 48) laidOut.enough) few)
  refine .bind (.modify ?_)
  rw [isShift]
  generalize layout_eq : formatLayout (s.diskSectors - fsLbaStart) = layout at *
  generalize start_eq : ({ s with
      mounted := false
      fatCacheSector := noSector
      fatDirty := false
      nextFree := 1
      sb := layout
      clusterShift := shift } : Fs) = start
  have begun : Begun layout shift s.disk start.disk := by
    rw [← start_eq]
    exact .refl s.disk
  have reformats : Reformats layout shift s start := by
    rw [← start_eq]
    exact ⟨rfl, rfl, rfl, rfl, rfl, rfl, rfl, fun _ member => Or.inl member,
      List.suffix_refl _⟩
  have inside : ∀ sector, InRun (1 + 0) (layout.fatSectors - 0) sector →
      1 ≤ sector ∧ sector < layout.dataStart + 2 ^ shift := by
    intro sector inRun
    simp only [InRun] at inRun
    omega
  refine (eraseFat_wiped fewFat _ (Nat.sub_le _ _)).seq ?_ ?_
  · rintro _ s1 ⟨wiped, zeros⟩
    refine .bind (.modify (.bind (.attempt ?_)))
    have reformats1 := (reformats.wiped begun wiped inside).withMounted true
    have begun1 := begun.wiped inside wiped.disk
    subst layout_eq
    refine (formatRoot_spec laidOut reformats1 begun1 rfl ?_ ?_ ?_).mono ?_ ?_
    · change s1.fatCacheSector = noSector
      rw [wiped.cacheSector, ← start_eq]
    · change s1.fatDirty = false
      rw [wiped.dirty, ← start_eq]
    · exact zeros
    · exact fun _ s2 fresh => .pure fresh
    · rintro error s2 ⟨isIo, loud, reformats2, begun2⟩
      refine .bind (.modify (.throw ⟨isIo, ?_⟩))
      exact ⟨reformats2.withMounted false, reformats1.not_quiet loud, rfl, begun2⟩
  · rintro error s1 ⟨isIo, loud, wiped⟩
    refine ⟨isIo, reformats.wiped begun wiped inside, reformats.not_quiet loud, ?_,
      begun.wiped inside wiped.disk⟩
    rw [wiped.still.same.mounted, ← start_eq]

end NewFilesystem

end Katela.Filesystem
