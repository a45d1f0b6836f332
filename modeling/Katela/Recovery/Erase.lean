import Katela.Drivers.AtaTransfer
import Katela.Filesystem.Migration
import Katela.Recovery.Install

/-! # Erasing the filesystem

`recovery_erase_fs` of `src/kernel/installer.c` on the drive behind the ports, and the
`fs_init` of the next boot on what is then on the medium. -/

namespace Katela.Recovery

open Katela.Drivers.AtaPorts
open Katela.Filesystem (Fs)

abbrev EraseM (α : Type) : Type := EStateM InstallError Bus α

/-- Fails with the given result where the driver fails. -/
def orError {α : Type} (program : PortM α) (error : InstallError) : EraseM α := fun bus =>
  match program bus with
  | .ok value bus' => .ok value bus'
  | .error _ bus' => .error error bus'

/-- `FS_LBA_START`, which is `FACTORY_SECTORS`. -/
def fsLbaStart : UInt32 := 4096

/-- `recovery_erase_fs`; a return is `INSTALL_OK`. The local buffer is that of the bus. -/
def recoveryEraseFs : EraseM Unit := do
  let diskSectors ← orError ataTotalSectors .noDisk
  if diskSectors = 0 then throw .noDisk
  else if diskSectors ≤ fsLbaStart then throw .diskTooSmall
  else do
    orError (ataWriteSectors fsLbaStart 1 fun _ => 0) .writeFailed
    modify fun bus =>
      { bus with buffer := fun index => if index < sectorBytes then 0xFF else bus.buffer index }
    orError (ataReadSectors fsLbaStart 1) .verifyFailed
    let bus ← get
    if sameBytes bus.buffer (fun _ => 0) sectorBytes 0 then pure () else throw .verifyFailed

section Erasing

variable {s : Bus}

theorem orError_meets {α : Type} {program : PortM α} {error : InstallError}
    {returned : α → Bus → Prop} {failed : Bus → Prop}
    (meets : Meets program s returned fun _ => failed) :
    Meets (orError program error) s returned fun _ => failed := by
  unfold Meets orError at *
  cases isRun : program s with
  | ok value s' =>
      rw [isRun] at meets
      exact meets
  | error _ s' =>
      rw [isRun] at meets
      exact meets

/-- Every sector but the first one of the filesystem is as before, or has only reached the
medium. -/
def OthersKept (s s' : Bus) : Prop :=
  ∀ sector, sector ≠ 4096 → s'.drive.cached sector = s.drive.cached sector ∧
    (s'.drive.media sector = s.drive.media sector ∨
      s'.drive.media sector = s.drive.cached sector)

theorem written_zero (cached : Nat → Drivers.Ata.Contents) :
    written (fun _ => 0) 4096 0 1 cached = Function.update cached 4096 fun _ => 0 := by
  funext sector
  unfold written
  by_cases isFirst : sector = 4096
  · rw [isFirst, Function.update_self, if_pos ⟨by omega, by omega⟩]
    rfl
  · rw [Function.update_of_ne isFirst, if_neg (by omega)]

theorem OthersKept.of_partly {s' : Bus} (partly : Partly (fun _ => 0) 4096 1 s s') :
    OthersKept s s' := by
  intro sector other
  refine ⟨?_, Or.inl (congrFun partly.media sector)⟩
  rcases partly.cached sector with same | same
  · exact same
  · rw [same, written_zero, Function.update_of_ne other]

/-- The filesystem is erased, also on the medium. -/
structure Erased (s s' : Bus) : Prop where
  media : s'.drive.media = Function.update s.drive.cached 4096 fun _ => 0
  cached : s'.drive.cached = s'.drive.media

theorem Erased.othersKept {s' : Bus} (erased : Erased s s') : OthersKept s s' := by
  intro sector other
  have onMedium : s'.drive.media sector = s.drive.cached sector := by
    rw [erased.media, Function.update_of_ne other]
  exact ⟨by rw [erased.cached, onMedium], Or.inr onMedium⟩

theorem recoveryEraseFs_spec (quiet : Quiet s.drive) :
    Meets recoveryEraseFs s (fun _ s' => Erased s s') fun _ s' => OthersKept s s' := by
  have isLba : fsLbaStart.toNat % 2 ^ 28 = 4096 := rfl
  have intactKept : ∀ {s' : Bus}, Intact s s' → OthersKept s s' := fun intact sector _ =>
    ⟨congrFun intact.cached sector, Or.inl (congrFun intact.media sector)⟩
  refine (orError_meets ((ataTotalSectors_spec quiet).mono (fun _ _ asked => asked)
    (fun _ _ never => never.elim) : Meets ataTotalSectors s _ fun _ => OthersKept s)).seq ?_
    fun _ _ kept => kept
  rintro diskSectors s1 ⟨intact, stays⟩
  refine .ite (fun _ => .throw (intactKept intact)) fun some => ?_
  refine .ite (fun _ => .throw (intactKept intact)) fun _ => ?_
  have writes := ataWriteSectors_spec fsLbaStart 1 (fun _ => 0) (stays some)
  rw [isLba] at writes
  refine (orError_meets (writes.mono (fun _ _ done => done) ?_)).seq ?_ fun _ _ kept => kept
  · rintro _ s2 ⟨partly, -⟩
    intro sector other
    have kept := OthersKept.of_partly partly sector other
    rw [intact.cached, intact.media] at kept
    exact kept
  intro _ s2 done
  have erased : Erased s s2 := by
    refine ⟨?_, done.media.symm⟩
    rw [done.media, done.cached, intact.cached]
    exact written_zero s.drive.cached
  refine .bind (.modify ?_)
  have reads := @ataReadSectors_spec { s2 with
    buffer := fun index => if index < sectorBytes then 0xFF else s2.buffer index }
    fsLbaStart 1 done.quiet
  refine (orError_meets (reads.mono (fun _ _ read => read) ?_)).seq ?_ fun _ _ kept => kept
  · rintro _ s3 ⟨scratched, -⟩
    exact Erased.othersKept ⟨scratched.media.trans erased.media,
      scratched.cached.trans (erased.cached.trans scratched.media.symm)⟩
  rintro _ s3 ⟨got, -⟩
  have stays : Erased s s3 := ⟨got.media.trans erased.media,
    got.cached.trans (erased.cached.trans got.media.symm)⟩
  exact .bind (.get (.ite (fun _ => .pure stays) fun _ => .throw stays.othersKept))

end Erasing

/-! ## The next boot -/

/-- A disk whose first sector is zero is formatted. -/
theorem fsInit_of_zero {boot : Fs} (zero : boot.disk 0 = Filesystem.zeroSector)
    (quiet : boot.Quiet) (large : Filesystem.minDiskSectors ≤ boot.total)
    (small : boot.total ≤ 0x0FFFFFFF) :
    ∃ boot' F own, Filesystem.fsInit boot = .ok .formatted boot' ∧
      Filesystem.Ready F (fun _ => False) boot' own ∧ F.total = boot.total ∧
      Filesystem.contentsOf F boot'.image own = fun _ => none := by
  have noMagic : boot.label.magic = 0 := by
    change (boot.disk 0).wordAt 0 = 0
    rw [zero]
    exact Filesystem.wordAt_zeroSector 0
  have other : boot.label.magic ≠ Filesystem.magicValue := by
    rw [noMagic]
    decide
  have notOld : ¬ Filesystem.OldFormat boot.disk := by
    intro old
    have magic := old.magic
    rw [zero, Filesystem.wordAt_zeroSector] at magic
    exact absurd magic (by decide)
  have spec : Meets Filesystem.fsInit boot
      (fun result boot' => result = .formatted ∧ ∃ F own,
        Filesystem.Ready F (fun _ => False) boot' own ∧ F.total = boot.total ∧
        Filesystem.contentsOf F boot'.image own = fun _ => none)
      fun _ _ => False := by
    refine Filesystem.fsInit_spec large ?_ ?_ ?_ ?_
    · exact fun mountable => absurd mountable.magic other
    · intro _
      refine (@Filesystem.initBlank_spec boot.sized.labelled quiet rfl large small).mono ?_
        fun _ _ impossible => impossible
      rintro result boot' ⟨F, own, refounded, ⟨old, _⟩ | ⟨_, isResult, imported⟩⟩
      · exact absurd old notOld
      · exact ⟨isResult, F, own, imported.ready, refounded.total, imported.contents⟩
    · exact fun magic => absurd magic other
    · exact fun loud => absurd quiet loud
  cases run : Filesystem.fsInit boot with
  | ok result boot' =>
      rcases spec.ok_of_run run with ⟨rfl, F, own, ready, isTotal, contents⟩
      exact ⟨boot', F, own, rfl, ready, isTotal, contents⟩
  | error error boot' => exact (spec.error_of_run run).elim

end Katela.Recovery
