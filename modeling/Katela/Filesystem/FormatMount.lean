import Mathlib.Order.Bounds.Defs
import Katela.Filesystem.Accounting
import Katela.Filesystem.CompleteListing

/-! # Formatting and mounting agree

`format_now` finds the largest number of clusters whose FAT still fits the disk.
`mount_now` checks what it finds on the disk with other sums, and takes every layout
that `format_now` chose. -/

namespace Katela.Filesystem

/-- The chosen number of clusters is the largest one that fits. -/
theorem formatLayout_greatest {total : Nat} (large : 64 ≤ total)
    (small : total < 2 ^ 32 - 2 ^ 19) :
    IsGreatest {count | count * (formatLayout total).clusterSectors + fatSectorsFor count ≤
      total - 1} (formatLayout total).clusterCount := by
  rcases formatLayout_laidOut large (small.trans (by decide)) with ⟨shift, laidOut⟩
  have power : 0 < (formatLayout total).clusterSectors := by
    rw [laidOut.sectors]
    exact Nat.two_pow_pos shift
  constructor
  · have fits := laidOut.fits_total small
    have isFat : (formatLayout total).fatSectors =
      fatSectorsFor (formatLayout total).clusterCount := rfl
    rw [Set.mem_ofPred_eq, laidOut.sectors, ← isFat]
    omega
  · intro count fits
    rw [Set.mem_ofPred_eq] at fits
    have isCount : (formatLayout total).clusterCount = fitClusters total
      (formatLayout total).clusterSectors ((total - 1) / (formatLayout total).clusterSectors) :=
      rfl
    rw [isCount]
    apply le_fitClusters
    · exact (Nat.le_div_iff_mul_le power).mpr (by omega)
    · exact (Nat.mod_le _ _).trans fits

/-- The filesystem lists no file, and only the directory has a cluster. -/
structure Vacant (s : Fs) : Prop where
  listed : ∀ iter, ∃ begun s', fsIterBegin iter s = .ok () begun ∧ Lists iter begun [] none s'
  usage : ∃ stats s', fsUsage s = .ok stats s' ∧
    stats.totalClusters = s.sb.clusterCount ∧ stats.freeClusters = s.sb.clusterCount - 1

section Agreement

variable {F : Format} {live : FileRef → Prop} {s : Fs}

theorem vacant_of_fresh (ready : Ready F live s freshOwn) (quiet : s.Quiet)
    (fresh : Fresh F.sb F.shift s.image) : Vacant s := by
  constructor
  · intro iter
    rcases @lists_begun F live s freshOwn iter _ ready.between.inv rfl with
      ⟨infos, ending, s', lists, ends⟩
    have none : reported s.image (F.slots (freshOwn .root)) = [] := by
      unfold reported
      rw [List.map_eq_nil_iff, List.eq_nil_iff_forall_not_mem]
      intro location used
      exact fresh.not_holds location ((mem_usedSlots _ location).mp used)
    rcases ends with ⟨rfl, rfl⟩ | ⟨_, loud, _⟩
    · rw [none] at lists
      exact ⟨_, s', rfl, lists⟩
    · exact absurd quiet loud
  · rcases ready.usage quiet with ⟨stats, s', usage, isTotal, isFree⟩
    have isOne : (takenClusters F (freshOwn .root)
        fun location => freshOwn (.slot location)).length = 1 := by
      rw [length_takenClusters]
      simp [freshOwn]
    rw [isOne] at isFree
    exact ⟨stats, s', usage, isTotal, by omega⟩

/-- A new filesystem is mounted as it was formatted, also after a restart. -/
theorem mountNow_fresh {total shift : Nat} {t : Fs} (laidOut : LaidOut total shift)
    (large : 64 ≤ total) (small : total < 2 ^ 32 - 2 ^ 19)
    (isTotal : t.total = fsLbaStart + total) (quiet : t.Quiet)
    (fresh : Fresh (formatLayout total) shift t.disk) :
    ∃ t', mountNow t.sized = .ok () t' ∧ t'.sb = formatLayout total ∧
      t'.clusterShift = shift ∧ Vacant t' := by
  let F := laidOut.format large small t.history
  have isLabel : t.disk 0 = F.label := fresh.label
  have ready : Ready F (fun _ => False) t.sized.remounted freshOwn := by
    refine remounted_ready isTotal isLabel ?_ ?_ ?_ rfl (fun _ _ => rfl)
      (fun _ _ impossible => impossible.elim) fun _ member => Or.inl member
    · exact fresh.accounted laidOut.fat
        (Nat.le_trans (by decide : 1 ≤ 48) laidOut.enough) t.Quiet
    · exact Fresh.directory (F := F) fresh rfl
    · exact ⟨fun _ impossible => impossible.elim, fun _ _ impossible => impossible.elim,
        fun _ _ => rfl⟩
  refine ⟨t.sized.remounted, mountNow_remounts quiet (mountable_of_label isLabel isTotal),
    ready.between.inv.sb, ready.between.inv.shift, vacant_of_fresh ready quiet ?_⟩
  rw [Fs.image_of_clean rfl]
  exact fresh

/-- On every disk that the drivers can report, formatting succeeds with as many clusters
as fit, and mounting what it wrote gives the same empty filesystem. -/
theorem format_mount_agree {s : Fs} (quiet : s.Quiet) (large : minDiskSectors ≤ s.total)
    (small : s.total ≤ 0x0FFFFFFF) :
    ∃ s', formatNow s.sized = .ok () s' ∧
      IsGreatest {count | count * s'.sb.clusterSectors + fatSectorsFor count ≤
        s.total - fsLbaStart - 1} s'.sb.clusterCount ∧
      Vacant s' ∧
      ∀ t : Fs, t.sectors = s'.sectors → t.total = s.total → t.Quiet →
        ∃ t', mountNow t.sized = .ok () t' ∧ t'.sb = s'.sb ∧
          t'.clusterShift = s'.clusterShift ∧ Vacant t' := by
  have isMin : minDiskSectors = 4160 := rfl
  have isStart : fsLbaStart = 4096 := rfl
  have large' : 64 ≤ s.total - fsLbaStart := by omega
  have small' : s.total - fsLbaStart < 2 ^ 32 - 2 ^ 19 := by omega
  rcases formatLayout_laidOut large' (small'.trans (by decide)) with ⟨shift, laidOut⟩
  have spec := @formatNow_spec s.sized shift large laidOut
  cases formats : formatNow s.sized with
  | error error s' => exact absurd quiet (spec.error_of_run formats).2.loud
  | ok value s' =>
      have new := spec.ok_of_run formats
      have isTotal : s'.total = s.total := new.reformats.total
      have quiet' : s'.Quiet := by
        unfold Fs.Quiet
        rw [new.reformats.fails]
        exact quiet
      refine ⟨s', rfl, ?_, ?_, ?_⟩
      · rw [new.sb]
        exact formatLayout_greatest large' small'
      · have ready := @Installed.ready _ _ _ s'.history laidOut large' small' new.toInstalled
          (by omega) (new.reformats.diskSectors.trans isTotal.symm)
          fun _ member => Or.inl member
        apply vacant_of_fresh ready quiet'
        rw [Fs.image_of_clean new.clean]
        exact new.fresh
      · intro t isSectors isTotal' quiet''
        have disk : t.disk = s'.disk := by
          unfold Fs.disk
          rw [isSectors]
        have fresh := new.fresh
        rw [← disk] at fresh
        have isSized : s.sized.diskSectors = s.total := rfl
        rw [new.sb, new.clusterShift]
        exact mountNow_fresh laidOut large' small' (by omega) quiet'' fresh

/-- The least disk. -/
theorem format_mount_agree_least :
    ∃ s', formatNow (Fs.blank minDiskSectors).sized = .ok () s' ∧
      s'.sb.clusterCount * s'.sb.clusterSectors + fatSectorsFor s'.sb.clusterCount ≤ 63 ∧
      Vacant s' := by
  rcases @format_mount_agree (Fs.blank minDiskSectors) (fun _ => rfl) (by decide) (by decide)
    with ⟨s', formats, greatest, vacant, _⟩
  exact ⟨s', formats, greatest.1, vacant⟩

end Agreement

end Katela.Filesystem
