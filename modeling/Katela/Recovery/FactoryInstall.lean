import Katela.Recovery.Erase
import Katela.Recovery.FactoryImage

/-! # Installing on the drive behind the ports

`recovery_install` of `src/kernel/installer.c` over the transfers of `src/drivers/ata.c`, and
what is on the medium when it has succeeded. -/

namespace Katela.Recovery.Ports

open Katela.Drivers.AtaPorts
open Katela.Drivers.Ata (Contents sectorAt)

/-- The drive, and what `progress` was called with. -/
structure Site where
  bus : Bus
  reports : List (UInt32 × UInt32)

abbrev SiteM (α : Type) : Type := EStateM InstallError Site α

def onBus {α : Type} (program : EraseM α) : SiteM α := fun site =>
  match program site.bus with
  | .ok value bus => .ok value { site with bus }
  | .error error bus => .error error { site with bus }

def progress (done : UInt32) : SiteM Unit :=
  modify fun site => { site with reports := site.reports ++ [(done, 4096 * 2)] }

/-- The loop that writes the image. -/
def writeLoop (image : Nat → UInt8) : (rounds : Nat) → (lba done : UInt32) → SiteM UInt32
  | 0, _, done => pure done
  | rounds + 1, lba, done => do
      onBus (orError (ataWriteSectors lba 64 fun index => image (lba.toNat * sectorBytes + index))
        .writeFailed)
      progress (done + 64)
      writeLoop image rounds (lba + 64) (done + 64)

/-- The loop that verifies it. The local buffer is that of the bus. -/
def verifyLoop (image : Nat → UInt8) : (rounds : Nat) → (lba done : UInt32) → SiteM Unit
  | 0, _, _ => pure ()
  | rounds + 1, lba, done => do
      onBus (orError (ataReadSectors lba 1) .verifyFailed)
      let site ← get
      if sameBytes site.bus.buffer (fun index => image (lba.toNat * sectorBytes + index))
          sectorBytes 0 then
        if lba % 64 = 63 then do
          progress (done + 64)
          verifyLoop image rounds (lba + 1) (done + 64)
        else verifyLoop image rounds (lba + 1) done
      else throw .verifyFailed

def recoveryInstall (boot : Boot) : SiteM Unit := do
  match findImage boot with
  | none => throw .noImage
  | some image =>
      if imageValid image = false then throw .badImage
      else do
        let diskSectors ← onBus (orError ataTotalSectors .noDisk)
        if diskSectors = 0 then throw .noDisk
        else if diskSectors < 4096 then throw .diskTooSmall
        else do
          let done ← writeLoop image (factorySectors / chunkSectors) 0 0
          verifyLoop image factorySectors 0 done

/-! ## What reaches the drive -/

/-- Every sector is as before, or is one of the image in its place. -/
def Reaches (image : Nat → UInt8) (s s' : Bus) : Prop :=
  ∀ sector,
    (s'.drive.cached sector = s.drive.cached sector ∨
      sector < factorySectors ∧ s'.drive.cached sector = imageSector image sector) ∧
    (s'.drive.media sector = s.drive.media sector ∨
      s'.drive.media sector = s.drive.cached sector ∨
      sector < factorySectors ∧ s'.drive.media sector = imageSector image sector)

/-- The sectors of the image up to one are in their places. -/
structure Upto (image : Nat → UInt8) (last : Nat) (s s' : Bus) : Prop where
  cached : ∀ sector, s'.drive.cached sector =
    if sector < last then imageSector image sector else s.drive.cached sector
  media : s'.drive.media = s.drive.media ∧ last = 0 ∨ s'.drive.media = s'.drive.cached
  quiet : Quiet s'.drive

/-- The reports of the first steps. -/
def reportsTo (steps : Nat) : List (UInt32 × UInt32) :=
  (List.range steps).map fun i => (UInt32.ofNat (64 * (i + 1)), 4096 * 2)

section Installing

variable {image : Nat → UInt8} {s s' s'' : Bus} {site : Site}

theorem onBus_meets {α : Type} {program : EraseM α} {returned : α → Bus → Prop}
    {failed : InstallError → Bus → Prop} (meets : Meets program site.bus returned failed) :
    Meets (onBus program) site
      (fun value site' => returned value site'.bus ∧ site'.reports = site.reports)
      fun error site' => failed error site'.bus := by
  unfold Meets onBus at *
  cases isRun : program site.bus with
  | ok value bus =>
      rw [isRun] at meets
      exact ⟨meets, rfl⟩
  | error error bus =>
      rw [isRun] at meets
      exact meets

theorem Intact.reaches (intact : Intact s s') : Reaches image s s' := fun sector =>
  ⟨Or.inl (congrFun intact.cached sector), Or.inl (congrFun intact.media sector)⟩

theorem Upto.reaches {last : Nat} (upto : Upto image last s s')
    (inside : last ≤ factorySectors) : Reaches image s s' := by
  intro sector
  have isCached := upto.cached sector
  have cached : s'.drive.cached sector = s.drive.cached sector ∨
      sector < factorySectors ∧ s'.drive.cached sector = imageSector image sector := by
    split at isCached
    · next below => exact Or.inr ⟨by omega, isCached⟩
    · exact Or.inl isCached
  refine ⟨cached, ?_⟩
  rcases upto.media with ⟨same, -⟩ | same
  · exact Or.inl (congrFun same sector)
  · rw [same]
    exact Or.inr cached

/-- The part of the image that one call writes. -/
theorem written_image (image : Nat → UInt8) (first count : Nat) (cached : Nat → Contents)
    (sector : Nat) :
    written (fun index => image (first * sectorBytes + index)) first 0 count cached sector =
      if first ≤ sector ∧ sector < first + count then imageSector image sector
      else cached sector := by
  unfold written
  by_cases inside : first ≤ sector ∧ sector < first + count
  · rw [if_pos ⟨by omega, inside.2⟩, if_pos inside, sectorAt_image,
      Nat.add_sub_cancel' inside.1]
  · rw [if_neg (by omega), if_neg inside]

theorem Upto.partly {first count : Nat} (upto : Upto image first s s')
    (inside : first + count ≤ factorySectors)
    (partly : Partly (fun index => image (first * sectorBytes + index)) first count s' s'') :
    Reaches image s s'' := by
  intro sector
  have before := (upto.reaches (by omega)) sector
  refine ⟨?_, ?_⟩
  · rcases partly.cached sector with same | same
    · rw [same]
      exact before.1
    · rw [same, written_image]
      split
      · exact Or.inr ⟨by omega, rfl⟩
      · exact before.1
  · rw [partly.media]
    exact before.2

theorem Upto.done {first count : Nat} (upto : Upto image first s s')
    (done : Done (fun index => image (first * sectorBytes + index)) first count s' s'') :
    Upto image (first + count) s s'' where
  cached := by
    intro sector
    rw [done.cached, written_image, upto.cached]
    by_cases before : sector < first
    · rw [if_neg (by omega), if_pos before, if_pos (by omega)]
    · rw [if_neg before]
      by_cases inside : sector < first + count
      · rw [if_pos ⟨by omega, inside⟩, if_pos inside]
      · rw [if_neg (by omega), if_neg inside]
  media := Or.inr done.media
  quiet := done.quiet

theorem Upto.got {last lba count : Nat} (upto : Upto image last s s')
    (got : Got lba count s' s'') (quiet : Quiet s''.drive) : Upto image last s s'' where
  cached := by
    rw [got.cached]
    exact upto.cached
  media := by
    rw [got.cached, got.media]
    exact upto.media
  quiet := quiet

theorem done_next (steps : Nat) :
    UInt32.ofNat (64 * steps) + 64 = UInt32.ofNat (64 * (steps + 1)) := by
  rw [Nat.mul_succ, UInt32.ofNat_add]
  rfl

/-- The report of the next step. -/
theorem reports_next {steps : Nat} (reports : site.reports = reportsTo steps) :
    site.reports ++ [(UInt32.ofNat (64 * steps) + 64, 4096 * 2)] = reportsTo (steps + 1) := by
  rw [reports, done_next, reportsTo, reportsTo, List.range_succ, List.map_append]
  rfl

theorem writeLoop_spec (rounds : Nat) {lba done : UInt32} {steps : Nat}
    (isLba : lba.toNat = steps * 64) (isDone : done = UInt32.ofNat (64 * steps))
    (inside : (steps + rounds) * 64 ≤ factorySectors) (upto : Upto image (steps * 64) s site.bus)
    (reports : site.reports = reportsTo steps) :
    Meets (writeLoop image rounds lba done) site
      (fun done' site' => done' = UInt32.ofNat (64 * (steps + rounds)) ∧
        Upto image ((steps + rounds) * 64) s site'.bus ∧
        site'.reports = reportsTo (steps + rounds))
      fun _ site' => Reaches image s site'.bus := by
  have isFactory : factorySectors = 4096 := rfl
  induction rounds generalizing site lba done steps with
  | zero => exact .pure ⟨isDone, upto, reports⟩
  | succ rounds ih =>
      unfold writeLoop
      have isSector : lba.toNat % 2 ^ 28 = steps * 64 := by omega
      have writes := ataWriteSectors_spec lba 64
        (fun index => image (lba.toNat * sectorBytes + index)) upto.quiet
      have isCount : (64 : UInt32).toNat = 64 := rfl
      rw [isSector, isLba, isCount] at writes
      rw [isLba]
      refine (onBus_meets (orError_meets (writes.mono (fun _ _ done => done)
        fun _ _ failed => upto.partly (by omega) failed.1))).seq ?_ fun _ _ failed => failed
      rintro _ site2 ⟨wrote, same⟩
      have upto' := upto.done wrote
      rw [← Nat.succ_mul] at upto'
      have isNext : (lba + 64).toNat = (steps + 1) * 64 := by
        rw [UInt32.toNat_add, isCount]
        omega
      subst isDone
      refine .bind (.modify ?_)
      have later := @ih { site2 with
        reports := site2.reports ++ [(UInt32.ofNat (64 * steps) + 64, 4096 * 2)] }
        (lba + 64) _ (steps + 1) isNext (done_next steps) (by omega) upto'
        (reports_next (same.trans reports))
      have isSteps : steps + 1 + rounds = steps + (rounds + 1) := by omega
      rw [isSteps] at later
      exact later

theorem verifyLoop_spec (rounds : Nat) {lba done : UInt32} {steps : Nat}
    (isEnd : lba.toNat + rounds = factorySectors) (isSteps : steps = 64 + lba.toNat / 64)
    (isDone : done = UInt32.ofNat (64 * steps)) (upto : Upto image factorySectors s site.bus)
    (reports : site.reports = reportsTo steps) :
    Meets (verifyLoop image rounds lba done) site
      (fun _ site' => Upto image factorySectors s site'.bus ∧ site'.reports = reportsTo 128)
      fun _ site' => Reaches image s site'.bus := by
  have isFactory : factorySectors = 4096 := rfl
  induction rounds generalizing site lba done steps with
  | zero =>
      have isLast : steps = 128 := by omega
      rw [isLast] at reports
      exact .pure ⟨upto, reports⟩
  | succ rounds ih =>
      unfold verifyLoop
      have reads := ataReadSectors_spec lba 1 upto.quiet
      refine (onBus_meets (orError_meets (reads.mono (fun _ _ read => read) ?_))).seq ?_
        fun _ _ failed => failed
      · rintro _ s' ⟨scratched, -⟩
        have same := upto.reaches (Nat.le_refl _)
        intro sector
        rw [scratched.cached, scratched.media]
        exact same sector
      rintro _ site2 ⟨⟨got, quiet⟩, same⟩
      have upto' := upto.got got quiet
      have isNext : (lba + 1).toNat = lba.toNat + 1 := by
        have isOne : (1 : UInt32).toNat = 1 := rfl
        rw [UInt32.toNat_add, isOne]
        omega
      have isMod : (lba % 64).toNat = lba.toNat % 64 := UInt32.toNat_mod _ _
      refine .bind (.get (.ite (fun _ => .ite (fun last => ?_) fun notLast => ?_) fun _ =>
        .throw (upto'.reaches (Nat.le_refl _))))
      · rw [last] at isMod
        have isLast : lba.toNat % 64 = 63 := isMod.symm
        subst isDone
        refine .bind (.modify ?_)
        exact @ih { site2 with
          reports := site2.reports ++ [(UInt32.ofNat (64 * steps) + 64, 4096 * 2)] }
          (lba + 1) _ (steps + 1) (by omega) (by omega) (done_next steps) upto'
          (reports_next (same.trans reports))
      · have isOther : lba.toNat % 64 ≠ 63 := by
          intro isLast
          apply notLast
          rw [← UInt32.toNat_inj, isMod, isLast]
          rfl
        exact ih (by omega) (by omega) isDone upto' (same.trans reports)

/-- Nothing changes before an image is found and valid, and then only its sectors do. -/
theorem recoveryInstall_spec (boot : Boot) (quiet : Quiet site.bus.drive)
    (noReports : site.reports = []) :
    Meets (recoveryInstall boot) site
      (fun _ site' => ∃ image, findImage boot = some image ∧ imageValid image = true ∧
        Upto image factorySectors site.bus site'.bus ∧ site'.reports = reportsTo 128)
      fun _ site' => Intact site.bus site'.bus ∨ ∃ image, findImage boot = some image ∧
        imageValid image = true ∧ Reaches image site.bus site'.bus := by
  unfold recoveryInstall
  cases found : findImage boot with
  | none => exact .throw (Or.inl (.refl _))
  | some image =>
      refine .ite (fun _ => .throw (Or.inl (.refl _))) fun notBad => ?_
      have valid : imageValid image = true := by
        cases isValid : imageValid image with
        | false => exact absurd isValid notBad
        | true => rfl
      have asks : Meets (orError ataTotalSectors .noDisk) site.bus
          (fun sectors s' => Intact site.bus s' ∧ (sectors ≠ 0 → Quiet s'.drive))
          fun _ s' => Intact site.bus s' :=
        orError_meets ((ataTotalSectors_spec quiet).mono (fun _ _ asked => asked)
          fun _ _ never => never.elim)
      refine (onBus_meets asks).seq ?_ fun _ _ intact => Or.inl intact
      rintro diskSectors site1 ⟨⟨intact, stays⟩, same⟩
      refine .ite (fun _ => .throw (Or.inl intact)) fun some => ?_
      refine .ite (fun _ => .throw (Or.inl intact)) fun _ => ?_
      have fails : ∀ {site2 : Site}, Reaches image site.bus site2.bus →
          Intact site.bus site2.bus ∨ ∃ image', Option.some image = Option.some image' ∧
            imageValid image' = true ∧ Reaches image' site.bus site2.bus :=
        fun reaches => Or.inr ⟨image, rfl, valid, reaches⟩
      have upto : Upto image (0 * 64) site.bus site1.bus := by
        refine ⟨fun sector => ?_, Or.inl ⟨intact.media, rfl⟩, stays some⟩
        rw [if_neg (by omega), intact.cached]
      refine (writeLoop_spec (factorySectors / chunkSectors) rfl rfl (by decide) upto
        (same.trans noReports)).seq ?_ fun _ _ reaches => fails reaches
      rintro done site2 ⟨isDone, upto2, reports⟩
      exact (verifyLoop_spec factorySectors (by decide) (by decide) isDone upto2 reports).mono
        (fun _ _ verified => ⟨image, rfl, valid, verified⟩) fun _ _ reaches => fails reaches

end Installing

/-! ## From the files to the medium -/

theorem inSector (index : Nat) : index % 512 < 512 :=
  Nat.mod_lt index (Nat.succ_pos 511)

/-- The bytes of a disk. -/
def diskBytes (sectors : Nat → Contents) (index : Nat) : UInt8 :=
  sectors (index / 512) ⟨index % 512, inSector index⟩

/-- The bootloader has put the image in memory. -/
def Loaded (boot : Boot) (image : List UInt8) : Prop :=
  ∃ bytes, findImage boot = some bytes ∧
    ∀ i < factorySectors * sectorBytes, bytes i = image.getD i 0

def smallBoot : List UInt8 := List.replicate 510 0 ++ [0x55, 0xAA]

def smallKernel : List UInt8 := [0x7F, 69, 76, 70]

theorem smallFiles_fit : Fits layout smallBoot [0] smallKernel [] := by
  refine ⟨?_, by decide, by decide, by decide, by decide, by decide⟩
  rw [smallBoot, List.length_append, List.length_replicate]
  rfl

def smallImage : List UInt8 :=
  assemble layout (patchBoot smallBoot) (patchCore [0] (blockOf (coreSectors [0]))) smallKernel []

theorem smallImage_built : buildImage layout smallBoot [0] smallKernel [] = .ok smallImage :=
  buildImage_eq smallFiles_fit

attribute [irreducible] smallImage

/-- The only module starts at the address 0. -/
def moduleAtZero (memory : UInt32 → UInt8) : Boot where
  info := some ⟨8, 1, fun _ => ⟨0, UInt32.ofNat (factorySectors * sectorBytes)⟩⟩
  memory := memory

theorem findImage_moduleAtZero (memory : UInt32 → UInt8) :
    findImage (moduleAtZero memory) = some fun index => memory (0 + UInt32.ofNat index) := rfl

def smallInfo : Boot := moduleAtZero fun address => smallImage.getD address.toNat 0

theorem smallInfo_loaded : Loaded smallInfo smallImage := by
  refine ⟨_, findImage_moduleAtZero _, fun i inside => ?_⟩
  have small : i < 2 ^ 32 := Nat.lt_trans inside (by decide)
  change smallImage.getD (0 + UInt32.ofNat i).toNat 0 = _
  rw [UInt32.zero_add, UInt32.toNat_ofNat_of_lt' small]


end Katela.Recovery.Ports
