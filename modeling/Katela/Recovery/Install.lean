import Katela.Drivers.Ata

/-! # Installing the factory image

`recovery_install` of `src/kernel/installer.c` writes the image in chunks of 64 sectors and
then reads it back sector by sector. -/

namespace Katela.Recovery

open Katela.Drivers.Ata

def factorySectors : Nat := 4096

def kernelLba : Nat := 512

def sectorBytes : Nat := 512

def chunkSectors : Nat := 64

/-- The results of `recovery_install` other than `INSTALL_OK`. -/
inductive InstallError where
  | noImage
  | badImage
  | noDisk
  | diskTooSmall
  | writeFailed
  | verifyFailed
  deriving DecidableEq, Repr

abbrev InstallM (α : Type) : Type := EStateM InstallError Drive α

/-! ## The image -/

structure Module where
  start : UInt32
  finish : UInt32

/-- What the bootloader left: `none` where `multiboot_info` is null. -/
structure Info where
  flags : UInt32
  modsCount : UInt32
  modules : Nat → Module

structure Boot where
  info : Option Info
  memory : UInt32 → UInt8

/-- The loop of `find_image`. -/
def findModule (modules : Nat → Module) : (rounds i : Nat) → Option UInt32
  | 0, _ => none
  | rounds + 1, i =>
      if (modules i).finish - (modules i).start = UInt32.ofNat (factorySectors * sectorBytes)
      then some (modules i).start
      else findModule modules rounds (i + 1)

/-- The bytes behind the pointer that `find_image` returns. -/
def findImage (boot : Boot) : Option (Nat → UInt8) :=
  match boot.info with
  | none => none
  | some info =>
      if info.flags &&& 8 = 0 ∨ info.modsCount = 0 then none
      else (findModule info.modules info.modsCount.toNat 0).map fun start index =>
        boot.memory (start + UInt32.ofNat index)

def imageValid (image : Nat → UInt8) : Bool :=
  if image 510 ≠ 0x55 ∨ image 511 ≠ 0xAA then false
  else
    let kernel := fun index => image (kernelLba * sectorBytes + index)
    kernel 0 = 0x7F ∧ kernel 1 = 69 ∧ kernel 2 = 76 ∧ kernel 3 = 70

/-! ## The installation -/

/-- Fails with the given result where the drive fails. -/
def orFail {α : Type} (program : AtaM α) (error : InstallError) : InstallM α := fun drive =>
  match program drive with
  | .ok value drive' => .ok value drive'
  | .error _ drive' => .error error drive'

def report (done : Nat) : InstallM Unit :=
  modify fun drive => drive.note (.progress done (factorySectors * 2))

/-- The loop that writes the image. -/
def writeLoop (image : Nat → UInt8) : (rounds lba done : Nat) → InstallM Nat
  | 0, _, done => pure done
  | rounds + 1, lba, done => do
      orFail (ataWriteSectors lba chunkSectors fun index => image (lba * sectorBytes + index))
        .writeFailed
      report (done + chunkSectors)
      writeLoop image rounds (lba + chunkSectors) (done + chunkSectors)

/-- The loop that compares a sector with the image. -/
def sameBytes (buffer expected : Nat → UInt8) : (rounds i : Nat) → Bool
  | 0, _ => true
  | rounds + 1, i =>
      if buffer i ≠ expected i then false else sameBytes buffer expected rounds (i + 1)

/-- The loop that verifies the image. -/
def verifyLoop (image : Nat → UInt8) : (rounds lba done : Nat) → (Nat → UInt8) → InstallM Unit
  | 0, _, _, _ => pure ()
  | rounds + 1, lba, done, buffer => do
      let buffer ← orFail (ataReadSector lba buffer) .verifyFailed
      if sameBytes buffer (fun index => image (lba * sectorBytes + index)) sectorBytes 0 then
        if lba % chunkSectors = chunkSectors - 1 then do
          report (done + chunkSectors)
          verifyLoop image rounds (lba + 1) (done + chunkSectors) buffer
        else verifyLoop image rounds (lba + 1) done buffer
      else throw .verifyFailed

/-- `recovery_install`; a return is `INSTALL_OK`, and `buffer` is what the uninitialised
buffer holds. -/
def recoveryInstall (boot : Boot) (buffer : Nat → UInt8) : InstallM Unit := do
  match findImage boot with
  | none => throw .noImage
  | some image =>
      if imageValid image = false then throw .badImage
      else do
        let drive ← get
        if drive.totalSectors = 0 then throw .noDisk
        else if drive.totalSectors < factorySectors then throw .diskTooSmall
        else do
          let done ← writeLoop image (factorySectors / chunkSectors) 0 0
          verifyLoop image factorySectors 0 done buffer

/-! ## What is asked of it -/

/-- A sector of the image. -/
def imageSector (image : Nat → UInt8) (lba : Nat) : Contents := sectorAt image lba

/-- Only sectors before the filesystem are written, each with its part of the image. -/
def Confined (image : Nat → UInt8) (event : Event) : Prop :=
  ∀ lba contents, event = .sent lba contents →
    lba < factorySectors ∧ contents = imageSector image lba

/-- As `Confined`, for the image that the bootloader loaded. -/
def InPlace (boot : Boot) (event : Event) : Prop :=
  ∀ lba contents, event = .sent lba contents →
    ∃ image, findImage boot = some image ∧ lba < factorySectors ∧
      contents = imageSector image lba

/-- The event writes nothing, and if it is the return of a read, then of the image. -/
def Matching (image : Nat → UInt8) (event : Event) : Prop :=
  (∀ lba contents, event ≠ .sent lba contents) ∧
    ∀ lba contents, event = .returned lba contents → contents = imageSector image lba

/-- Every sector was written. Then each was read, and what the reads returned is the
image. -/
def Verified (image : Nat → UInt8) (drive drive' : Drive) : Prop :=
  ∃ written, Adds (Confined image)
      (fun event => ∃ lba, lba < factorySectors ∧ event = .sent lba (imageSector image lba))
      drive written ∧
    Adds (Matching image)
      (fun event => ∃ lba, lba < factorySectors ∧ event = .returned lba (imageSector image lba))
      written drive'

/-! ## The loops -/

theorem orFail_meets {α : Type} {program : AtaM α} {error : InstallError} {drive : Drive}
    {returned : α → Drive → Prop} {failed : Drive → Prop}
    (meets : Meets program drive returned fun _ => failed) :
    Meets (orFail program error) drive returned fun _ => failed := by
  unfold Meets orFail at *
  cases isRun : program drive with
  | ok value drive' =>
      rw [isRun] at meets
      exact meets
  | error _ drive' =>
      rw [isRun] at meets
      exact meets

section Loops

variable {image : Nat → UInt8}

/-- The sectors of the image from one sector on. -/
def Stored (image : Nat → UInt8) (first last : Nat) (event : Event) : Prop :=
  ∃ lba, first ≤ lba ∧ lba < last ∧ event = .sent lba (imageSector image lba)

theorem sectorAt_image (lba i : Nat) :
    sectorAt (fun index => image (lba * sectorBytes + index)) i = imageSector image (lba + i) := by
  funext j
  have sameIndex : lba * sectorBytes + (i * sectorBytes + j.val) =
      (lba + i) * sectorBytes + j.val := by
    rw [Nat.add_mul, Nat.add_assoc]
  exact congrArg image sameIndex

theorem stored_of_sentFrom {lba count : Nat} {event : Event} :
    SentFrom lba (fun index => image (lba * sectorBytes + index)) 0 count event ↔
      Stored image lba (lba + count) event := by
  constructor
  · rintro ⟨i, _, below, rfl⟩
    rw [sectorAt_image]
    exact ⟨lba + i, by omega, by omega, rfl⟩
  · rintro ⟨k, atLeast, below, rfl⟩
    refine ⟨k - lba, Nat.zero_le _, by omega, ?_⟩
    rw [sectorAt_image, Nat.add_sub_cancel' atLeast]

theorem report_logs {allowed : Event → Prop} (done : Nat)
    (isAllowed : ∀ done total, allowed (.progress done total)) :
    Logs allowed (fun _ => Nothing) (report done) :=
  (Logs.note (isAllowed _ _)).mono (fun _ => id) fun _ _ => False.elim

theorem Stored.confined {first last : Nat} (inside : last ≤ factorySectors) {event : Event}
    (stored : Stored image first last event) : Confined image event := by
  rcases stored with ⟨lba, _, below, rfl⟩
  rintro other contents same
  cases same
  exact ⟨by omega, rfl⟩

theorem writeLoop_logs (rounds : Nat) :
    ∀ {lba : Nat} (done : Nat), lba + rounds * chunkSectors ≤ factorySectors →
      Logs (Confined image) (fun _ => Stored image lba (lba + rounds * chunkSectors))
        (writeLoop image rounds lba done) := by
  induction rounds with
  | zero =>
      intro lba done _
      refine (Logs.pure done).mono (fun _ => id) ?_
      rintro _ event ⟨k, atLeast, below, _⟩
      omega
  | succ rounds ih =>
      intro lba done inside
      have isFactory : factorySectors = 4096 := rfl
      rw [Nat.succ_mul] at inside ⊢
      have sends : Logs (Confined image) (fun _ => Stored image lba (lba + chunkSectors))
          (orFail (ataWriteSectors lba chunkSectors
            fun index => image (lba * sectorBytes + index)) .writeFailed) := by
        intro drive
        have writes := @ataWriteSectors_logs (Confined image) lba chunkSectors
          (fun index => image (lba * sectorBytes + index)) (by omega) fun event sent =>
            (stored_of_sentFrom.mp sent).confined (by omega)
        refine orFail_meets ((writes drive).mono ?_ fun _ _ adds => adds)
        intro _ drive' adds
        exact adds.mono (fun _ => id) fun _ stored => stored_of_sentFrom.mpr stored
      have later := @ih (lba + chunkSectors) (done + chunkSectors) (by omega)
      refine sends.bind (fun _ => (report_logs _ (by nofun)).after fun _ => later) ?_
      rintro _ _ event ⟨k, atLeast, below, isEvent⟩
      by_cases inFirst : k < lba + chunkSectors
      · exact Or.inl ⟨k, atLeast, inFirst, isEvent⟩
      · exact Or.inr ⟨k, by omega, by omega, isEvent⟩

theorem sameBytes_iff {buffer expected : Nat → UInt8} (rounds : Nat) :
    ∀ i, sameBytes buffer expected rounds i = true ↔
      ∀ k, i ≤ k → k < i + rounds → buffer k = expected k := by
  induction rounds with
  | zero =>
      intro i
      refine iff_of_true rfl ?_
      intro k atLeast below
      omega
  | succ rounds ih =>
      intro i
      rw [sameBytes]
      by_cases same : buffer i = expected i
      · rw [if_neg (not_not.mpr same), ih]
        constructor
        · intro later k atLeast below
          by_cases isFirst : k = i
          · rw [isFirst, same]
          · exact later k (by omega) (by omega)
        · intro all k atLeast below
          exact all k (by omega) (by omega)
      · rw [if_pos same]
        refine iff_of_false (by decide) ?_
        intro all
        exact same (all i (Nat.le_refl i) (by omega))

/-- The reads of the image from one sector on. -/
def ReadBack (image : Nat → UInt8) (first last : Nat) (event : Event) : Prop :=
  ∃ lba, first ≤ lba ∧ lba < last ∧ event = .returned lba (imageSector image lba)

theorem matching_of_received {event : Event} (received : Received event) :
    Matching image event := by
  rcases received with ⟨lba, contents, rfl⟩
  exact ⟨nofun, nofun⟩

theorem matching_returned (lba : Nat) :
    Matching image (.returned lba (imageSector image lba)) := by
  constructor
  · nofun
  · intro other contents same
    cases same
    rfl

theorem Matching.confined {event : Event} (matching : Matching image event) :
    Confined image event :=
  fun lba contents same => absurd same (matching.1 lba contents)

/-- Reading never writes, and the loop only ends when every sector was the image's. -/
theorem verifyLoop_spec (rounds : Nat) :
    ∀ {lba done : Nat} {buffer : Nat → UInt8} {drive : Drive},
      Meets (verifyLoop image rounds lba done buffer) drive
        (fun _ drive' => Adds (Matching image) (ReadBack image lba (lba + rounds)) drive drive')
        fun _ drive' => Adds (Confined image) Nothing drive drive' := by
  induction rounds with
  | zero =>
      intro lba done buffer drive
      refine .pure ((Adds.of_log_eq rfl).mono (fun _ => id) ?_)
      rintro event ⟨k, atLeast, below, _⟩
      omega
  | succ rounds ih =>
      intro lba done buffer drive
      unfold verifyLoop
      refine (orFail_meets (ataReadSector_spec lba buffer drive)).seq ?_ ?_
      · rintro result drive2 ⟨later, adds, isNoted⟩
        refine .ite (fun same => ?_) fun _ => .throw ?_
        · have isSector : sectorAt result 0 = imageSector image lba := by
            rw [← Nat.add_zero lba, ← sectorAt_image]
            funext j
            have equal := (sameBytes_iff sectorBytes 0).mp same
            exact equal (0 * 512 + j.val) (Nat.zero_le _)
              (by have below := j.isLt; simp only [sectorBytes]; omega)
          rw [isSector] at isNoted
          have first : Adds (Matching image) (· = .returned lba (imageSector image lba))
              drive drive2 := by
            rw [isNoted]
            exact ((adds.mono (fun _ => matching_of_received) fun _ => id).trans
              (.note (matching_returned lba))).mono (fun _ => id) fun _ => Or.inr
          have finishes : ∀ {drive3 : Drive} {done' : Nat},
              Adds (Matching image) Nothing drive2 drive3 →
              Meets (verifyLoop image rounds (lba + 1) done' result) drive3
                (fun _ drive' => Adds (Matching image)
                  (ReadBack image lba (lba + (rounds + 1))) drive drive')
                fun _ drive' => Adds (Confined image) Nothing drive drive' := by
            intro drive3 done' between
            refine ih.mono ?_ ?_
            · intro _ drive' rest
              refine ((first.trans between).trans rest).mono (fun _ => id) ?_
              rintro event ⟨k, atLeast, below, isEvent⟩
              by_cases isFirst : k = lba
              · subst isFirst
                exact Or.inl (Or.inl isEvent)
              · exact Or.inr ⟨k, by omega, by omega, isEvent⟩
            · intro _ drive' rest
              exact (((first.trans between).mono (fun _ => Matching.confined)
                fun _ => id).trans rest).weaken
          refine .ite (fun _ => ?_) fun _ => finishes (.of_log_eq rfl)
          exact .bind (.modify (finishes (Adds.note ⟨nofun, nofun⟩).weaken))
        · rw [isNoted]
          refine ((adds.mono (fun _ received => (matching_of_received received).confined)
            fun _ => id).trans (.note ?_)).weaken
          nofun
      · intro _ drive' adds
        exact adds.mono (fun _ received => (matching_of_received received).confined) fun _ => id

end Loops

theorem Confined.inPlace {boot : Boot} {image : Nat → UInt8} {event : Event}
    (found : findImage boot = some image) (confined : Confined image event) :
    InPlace boot event :=
  fun lba contents same => ⟨image, found, confined lba contents same⟩

/-- Whatever the drive does, the installation writes sectors of the image to their places
only, and it succeeds only if every sector was read back as it is in the image. -/
theorem install_verified_confined (boot : Boot) (buffer : Nat → UInt8) (drive : Drive) :
    Meets (recoveryInstall boot buffer) drive
      (fun _ drive' => Adds (InPlace boot) Nothing drive drive' ∧
        ∃ image, findImage boot = some image ∧ imageValid image = true ∧
          Verified image drive drive')
      fun _ drive' => Adds (InPlace boot) Nothing drive drive' := by
  unfold recoveryInstall
  cases found : findImage boot with
  | none => exact .throw (.of_log_eq rfl)
  | some image =>
      have inPlace : ∀ event, Confined image event → InPlace boot event :=
        fun _ => Confined.inPlace found
      refine .ite (fun _ => .throw (.of_log_eq rfl)) fun valid => ?_
      refine .bind (.get (.ite (fun _ => .throw (.of_log_eq rfl)) fun _ => ?_))
      refine .ite (fun _ => .throw (.of_log_eq rfl)) fun _ => ?_
      have writes := @writeLoop_logs image (factorySectors / chunkSectors) 0 0 (by decide)
      refine (writes drive).seq ?_ fun _ _ adds => adds.mono inPlace fun _ => id
      intro done written sends
      refine (verifyLoop_spec factorySectors).mono ?_ ?_
      · intro _ drive' reads
        refine ⟨?_, image, rfl, by simpa using valid, written, ?_, ?_⟩
        · exact ((sends.trans (reads.mono (fun _ => Matching.confined) fun _ => id)).mono
            inPlace fun _ => False.elim)
        · refine sends.mono (fun _ => id) ?_
          rintro event ⟨lba, below, isEvent⟩
          exact ⟨lba, Nat.zero_le lba, below, isEvent⟩
        · refine reads.mono (fun _ => id) ?_
          rintro event ⟨lba, below, isEvent⟩
          exact ⟨lba, Nat.zero_le lba, by omega, isEvent⟩
      · intro _ drive' reads
        exact ((sends.trans reads).mono inPlace fun _ => False.elim)

end Katela.Recovery
