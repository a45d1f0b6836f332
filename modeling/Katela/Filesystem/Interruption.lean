import Katela.Filesystem.Migration

/-! # Interrupted starts

What the next `fs_init` finds when the power was lost while `fs_init` or `fs_format` wrote
to the disk. The superblock is written last, but the sectors behind it are changed
before. -/

namespace Katela.Filesystem

/-- The state in which a program ends, whatever it returns. -/
def finalState {α : Type} (program : FsM α) (s : Fs) : Fs :=
  match program s with
  | .ok _ s' => s'
  | .error _ s' => s'

/-- The disk has these contents at some moment while the program runs. -/
def During {α : Type} (program : FsM α) (s : Fs) (sectors : Nat → Sector) : Prop :=
  sectors = s.sectors ∨ sectors ∈ (finalState program { s with history := [] }).history

theorem finalState_of_meets {α : Type} {program : FsM α} {s : Fs} {Holds : Fs → Prop}
    (meets : Meets program s (fun _ s' => Holds s') fun _ s' => Holds s') :
    Holds (finalState program s) := by
  unfold Meets at meets
  unfold finalState
  cases outcome : program s with
  | ok value s' =>
      rw [outcome] at meets
      exact meets
  | error error s' =>
      rw [outcome] at meets
      exact meets

/-! ## Starting from a disk -/

/-- `fs_init` ends with a well-formed filesystem mounted. -/
def Mounts (t : Fs) : Prop :=
  ∃ result t' F own, fsInit t = .ok result t' ∧ t'.mounted = true ∧ F.sb = t'.sb ∧
    Volume F t'.image own

/-- Without failing transfers `fs_init` ends with a filesystem that has at least the given
files. -/
def Recovers (files : CString → Option (List UInt8)) (t : Fs) : Prop :=
  ∃ result t', fsInit t = .ok result t' ∧ ∃ F own, F.sb = t'.sb ∧ Volume F t'.image own ∧
    ∀ name bytes, files name = some bytes → contentsOf F t'.image own name = some bytes

section Starting

variable {F : Format} {t : Fs} {files : CString → Option (List UInt8)}

/-- A disk without a filesystem gets one. -/
theorem mounts_of_blank (quiet : t.Quiet) (large : minDiskSectors ≤ t.total)
    (small : t.total ≤ 0x0FFFFFFF) (other : t.label.magic ≠ magicValue) : Mounts t := by
  have meets : Meets fsInit t
      (fun _ t' => t'.mounted = true ∧ ∃ F own, F.sb = t'.sb ∧ Volume F t'.image own)
      fun _ _ => False := by
    refine fsInit_spec large (fun mountable => absurd mountable.magic other) (fun _ => ?_)
      (fun magic => absurd magic other) fun loud => absurd quiet loud
    refine (@initBlank_spec t.sized.labelled quiet rfl large small).mono ?_
      fun _ _ impossible => impossible
    rintro result t' ⟨F, own, _, ⟨_, _, imported⟩ | ⟨_, _, imported⟩⟩
    · have inv := imported.ready.between.inv
      exact ⟨inv.mounted, F, own, inv.sb.symm, inv.volume⟩
    · have inv := imported.ready.between.inv
      exact ⟨inv.mounted, F, own, inv.sb.symm, inv.volume⟩
  cases run : fsInit t with
  | ok result t' =>
      rcases meets.ok_of_run run with ⟨mounted, F, own, isSb, volume⟩
      exact ⟨result, t', F, own, run, mounted, isSb, volume⟩
  | error error t' => exact (meets.error_of_run run).elim

theorem recovers_of_blank (quiet : t.Quiet) (large : minDiskSectors ≤ t.total)
    (small : t.total ≤ 0x0FFFFFFF) (other : t.label.magic ≠ magicValue)
    (none : ∀ name, files name = none) : Recovers files t := by
  rcases mounts_of_blank quiet large small other with
    ⟨result, t', F, own, run, _, isSb, volume⟩
  refine ⟨result, t', run, F, own, isSb, volume, fun name bytes isSome => ?_⟩
  rw [none name] at isSome
  cases isSome

/-- A disk that holds a filesystem is mounted as it is. -/
theorem fsInit_mounts (quiet : t.Quiet) (isTotal : t.total = F.total)
    (isLabel : t.disk 0 = F.label) : fsInit t = .ok .mounted t.sized.remounted := by
  have mountable := mountable_of_label isLabel isTotal
  have large : minDiskSectors ≤ t.total := by
    rw [isTotal]
    exact F.large
  have meets : Meets fsInit t
      (fun result t' => result = .mounted ∧ t' = t.sized.remounted) fun _ _ => False :=
    fsInit_spec large (fun _ => ⟨rfl, rfl⟩) (fun other => absurd mountable.magic other)
      (fun _ other => absurd mountable other) fun loud => absurd quiet loud
  cases run : fsInit t with
  | ok result t' =>
      rcases meets.ok_of_run run with ⟨rfl, rfl⟩
      rfl
  | error error t' => exact (meets.error_of_run run).elim

theorem remounted_image (t : Fs) : t.sized.remounted.image = t.disk :=
  Fs.image_of_clean rfl

/-- A disk that was just formatted is mounted. -/
theorem Fresh.recovers (fresh : Fresh F.sb F.shift t.disk) (isRoot : F.sb.rootCluster = 1)
    (label : F.label = F.sb.toSector) (quiet : t.Quiet) (isTotal : t.total = F.total)
    (none : ∀ name, files name = none) : Recovers files t := by
  have isLabel : t.disk 0 = F.label := by
    rw [label]
    exact fresh.label
  refine ⟨_, _, fsInit_mounts quiet isTotal isLabel, F, freshOwn, ?_, ?_, ?_⟩
  · exact (label_eq isLabel).symm
  · rw [remounted_image]
    exact fresh.volume isRoot label
  · intro name bytes isSome
    rw [none name] at isSome
    cases isSome

/-- It has no files, whatever was on the disk before. -/
theorem Fresh.not_recovers (fresh : Fresh F.sb F.shift t.disk)
    (isRoot : F.sb.rootCluster = 1) (label : F.label = F.sb.toSector) (quiet : t.Quiet)
    (isTotal : t.total = F.total) {name : CString} (isFile : files name ≠ none) :
    ¬ Recovers files t := by
  have isLabel : t.disk 0 = F.label := by
    rw [label]
    exact fresh.label
  rintro ⟨result, t', run, G, own, _, volume, has⟩
  rw [fsInit_mounts quiet isTotal isLabel] at run
  injection run with _ isState
  subst isState
  rw [remounted_image] at volume has
  -- The superblock of the disk decides about the format.
  have sameLabel : G.label = F.label := volume.label.symm.trans isLabel
  have sb : G.sb = F.sb := by
    rw [← G.decoded, sameLabel, F.decoded]
  have shift : G.shift = F.shift := by
    rw [← G.shifted, sb, F.shifted]
  have freshG : Fresh G.sb G.shift t.disk := by
    rw [sb, shift]
    exact fresh
  have empty := freshG.volume (by rw [sb]; exact isRoot)
    (by rw [sameLabel, label, sb])
  rcases empty.unique volume with ⟨root, slots⟩
  cases bytes : files name with
  | none => exact isFile bytes
  | some bytes' =>
      have present := has name bytes' bytes
      rw [contentsOf_congr root slots, contentsOf_of_absent] at present
      · cases present
      · rintro ⟨location, held, _⟩
        exact freshG.not_holds location held

end Starting

/-! ## Interrupted migration -/

section Migrating

variable {s : Fs}

theorem oldFiles_eq_none {image : Nat → UInt8} {count : Nat}
    (invalid : ∀ number, number < count → nameOk (oldName image number) = false)
    (name : CString) : oldFiles image count name = none := by
  induction count with
  | zero => rfl
  | succ count induction =>
      have other : ¬ (nameOk (oldName image count) = true ∧ oldName image count = name) := by
        rintro ⟨valid, _⟩
        rw [invalid count (Nat.lt_succ_self count)] at valid
        cases valid
      rw [oldFiles, if_neg other]
      exact induction fun number less => invalid number (by omega)

theorem oldFiles_ne_none {image : Nat → UInt8} {count number : Nat}
    (less : number < count) (valid : nameOk (oldName image number) = true) :
    oldFiles image count (oldName image number) ≠ none := by
  induction count with
  | zero => exact absurd less (Nat.not_lt_zero _)
  | succ count induction =>
      rw [oldFiles]
      split
      · exact Option.some_ne_none _
      · rename_i other
        apply induction
        by_contra notLess
        have equal : number = count := by omega
        subst equal
        exact other ⟨valid, rfl⟩

theorem OldFormat.magic_ne (old : OldFormat s.disk) : s.label.magic ≠ magicValue := by
  change (s.disk 0).wordAt 0 ≠ magicValue
  rw [old.magic]
  decide

/-- A migration formats the disk. -/
theorem fsInit_refounds (quiet : s.Quiet) (large : minDiskSectors ≤ s.total)
    (small : s.total ≤ 0x0FFFFFFF) (old : OldFormat s.disk) :
    ∃ F, Refounded F (NoOldFiles s.disk) s.sized.labelled (finalState fsInit s) := by
  apply @finalState_of_meets _ fsInit s fun s' =>
    ∃ F, Refounded F (NoOldFiles s.disk) s.sized.labelled s'
  refine fsInit_spec large (fun mountable => absurd mountable.magic old.magic_ne)
    (fun _ => ?_) (fun magic => absurd magic old.magic_ne) fun loud => absurd quiet loud
  refine (@initBlank_spec s.sized.labelled quiet rfl large small).mono ?_
    fun _ _ impossible => impossible.elim
  exact fun result s' ⟨F, own, refounded, _⟩ => ⟨F, refounded⟩

/-- When the new superblock has just been written, the old files are gone and the new ones
are not stored yet. -/
theorem migration_loses (quiet : s.Quiet) (large : minDiskSectors ≤ s.total)
    (small : s.total ≤ 0x0FFFFFFF) (old : OldFormat s.disk) (some : ¬ NoOldFiles s.disk) :
    ∃ sectors, During fsInit s sectors ∧
      ∀ t : Fs, t.sectors = sectors → t.total = s.total → t.Quiet →
        ¬ Recovers (oldFiles (oldImage s.disk) ((s.disk 0).wordAt 4)) t := by
  have refounds : ∃ F, Refounded F (NoOldFiles s.disk) _ _ :=
    @fsInit_refounds { s with history := [] } quiet large small old
  rcases refounds with ⟨F, refounded⟩
  rcases refounded.formats with ⟨s1, s2, _, new, same, _⟩
  refine ⟨s2.sectors, Or.inr (same.grows.subset new.written), ?_⟩
  rintro t isSectors isTotal quietT
  have isFile : ∃ name, oldFiles (oldImage s.disk) ((s.disk 0).wordAt 4) name ≠ none := by
    by_contra none
    apply some
    intro number less
    by_contra valid
    exact none ⟨_, oldFiles_ne_none less (by simpa using valid)⟩
  rcases isFile with ⟨name, isFile⟩
  have disk : t.disk = s2.disk := by
    unfold Fs.disk
    rw [isSectors]
  have fresh : Fresh F.sb F.shift t.disk := by
    rw [disk]
    exact new.fresh
  exact fresh.not_recovers refounded.root refounded.label quietT
    (isTotal.trans refounded.total.symm) isFile

/-- Until then the disk is still in the old format. -/
theorem migration_recovers (quiet : s.Quiet) (large : minDiskSectors ≤ s.total)
    (small : s.total ≤ 0x0FFFFFFF) (old : OldFormat s.disk) (none : NoOldFiles s.disk)
    {sectors : Nat → Sector} (during : During fsInit s sectors) {t : Fs}
    (isSectors : t.sectors = sectors) (isTotal : t.total = s.total) (quietT : t.Quiet) :
    Recovers (oldFiles (oldImage s.disk) ((s.disk 0).wordAt 4)) t := by
  have noFiles := oldFiles_eq_none none
  have blank : t.disk 0 = s.disk 0 →
      Recovers (oldFiles (oldImage s.disk) ((s.disk 0).wordAt 4)) t := by
    intro label
    refine recovers_of_blank quietT (by omega) (by omega) ?_ noFiles
    change (t.disk 0).wordAt 0 ≠ magicValue
    rw [label]
    exact old.magic_ne
  have disk : t.disk = volumeOf sectors := by
    unfold Fs.disk
    rw [isSectors]
  rcases during with rfl | member
  · exact blank (by rw [disk]; rfl)
  have refounds : ∃ F, Refounded F (NoOldFiles s.disk) _ _ :=
    @fsInit_refounds { s with history := [] } quiet large small old
  rcases refounds with ⟨F, refounded⟩
  rcases refounded.formats with ⟨s1, s2, peeked, new, _, idle⟩
  rw [idle none] at member
  rcases new.reformats.history sectors member with before | begun | fresh
  · rw [peeked.history] at before
    cases before
  · apply blank
    rw [disk, begun.label, peeked.disk]
    rfl
  · rw [← disk] at fresh
    exact fresh.recovers refounded.root refounded.label quietT
      (isTotal.trans refounded.total.symm) noFiles

/-- Wherever a migration is stopped, the next start has all old files if and only if there
are none. -/
theorem interrupted_migration_iff (quiet : s.Quiet) (large : minDiskSectors ≤ s.total)
    (small : s.total ≤ 0x0FFFFFFF) (old : OldFormat s.disk) :
    (∀ sectors, During fsInit s sectors → ∀ t : Fs, t.sectors = sectors →
      t.total = s.total → t.Quiet →
        Recovers (oldFiles (oldImage s.disk) ((s.disk 0).wordAt 4)) t) ↔
      NoOldFiles s.disk := by
  constructor
  · intro recovers
    by_contra some
    rcases migration_loses quiet large small old some with ⟨sectors, during, loses⟩
    exact loses { s with sectors := sectors } rfl rfl quiet
      (recovers sectors during _ rfl rfl quiet)
  · intro none sectors during t isSectors isTotal quietT
    exact migration_recovers quiet large small old none during isSectors isTotal quietT

theorem smallOldDisk_files : ¬ NoOldFiles smallOldDisk.disk := by
  intro none
  have invalid := none 0 (by rw [smallOldDisk_oldFormat.2]; decide)
  have valid : nameOk (oldName (oldImage smallOldDisk.disk) 0) = true := by decide +kernel
  rw [valid] at invalid
  cases invalid

/-- The smallest disk with one file loses it. -/
theorem interrupted_migration_small :
    ¬ ∀ sectors, During fsInit smallOldDisk sectors → ∀ t : Fs, t.sectors = sectors →
      t.total = smallOldDisk.total → t.Quiet →
        Recovers (oldFiles (oldImage smallOldDisk.disk) ((smallOldDisk.disk 0).wordAt 4)) t := by
  rw [interrupted_migration_iff (fun _ => rfl) (Nat.le_refl minDiskSectors) (by decide)
    smallOldDisk_oldFormat.1]
  exact smallOldDisk_files

/-- There is a moment at which a power loss costs the file `a` of the smallest disk. -/
theorem migration_loses_small :
    ∃ sectors, During fsInit smallOldDisk sectors ∧
      ∃ t : Fs, t.sectors = sectors ∧ t.total = smallOldDisk.total ∧ t.Quiet ∧
        ¬ Recovers (oldFiles (oldImage smallOldDisk.disk) ((smallOldDisk.disk 0).wordAt 4)) t := by
  rcases migration_loses (fun _ => rfl) (Nat.le_refl minDiskSectors) (by decide)
    smallOldDisk_oldFormat.1 smallOldDisk_files with ⟨sectors, during, loses⟩
  exact ⟨sectors, during, { smallOldDisk with sectors := sectors }, rfl, rfl, fun _ => rfl,
    loses _ rfl rfl fun _ => rfl⟩

end Migrating

end Katela.Filesystem
