import Katela.Filesystem.Space

/-! # Migration

On a disk in the old format `fs_init` reads the old image into memory, formats the disk
and stores the files of the image again. -/

namespace Katela.Filesystem

/-! ## The old format -/

/-- The disk starts with an image in the old format. -/
structure OldFormat (disk : Image) : Prop where
  magic : (disk 0).wordAt 0 = oldMagicValue
  count : (disk 0).wordAt 4 ≤ oldMaxFiles

/-- The bytes that `old_image_load` reads. -/
def oldImage (disk : Image) (index : Nat) : UInt8 :=
  (((List.range oldImageSectors).map disk).getD (index / sectorSize) zeroSector).byteAt
    (index % sectorSize)

/-- Where a record of the old image starts. -/
def oldRecord (number : Nat) : Nat := 8 + number * (oldNameSize + oldDataSize)

theorem oldRecord_succ (number : Nat) :
    oldRecord number + oldNameSize + oldDataSize = oldRecord (number + 1) := by
  unfold oldRecord
  rw [Nat.add_mul, Nat.one_mul]
  omega

def oldName (image : Nat → UInt8) (number : Nat) : CString :=
  boundedString (fun index => image (oldRecord number + index)) oldNameSize

def oldData (image : Nat → UInt8) (number : Nat) : List UInt8 :=
  (boundedString (fun index => image (oldRecord number + oldNameSize + index))
    oldDataSize).bytes

/-- The files in the first records of an old image. A record replaces the earlier ones with
its name. -/
def oldFiles (image : Nat → UInt8) : (count : Nat) → CString → Option (List UInt8)
  | 0, _ => none
  | count + 1, name =>
      if nameOk (oldName image count) = true ∧ oldName image count = name then
        some (oldData image count)
      else oldFiles image count name

theorem word_oldImage (disk : Image) (offset : Nat) (low : offset ≤ 4) :
    word (fun index => oldImage disk (offset + index)) = (disk 0).wordAt offset := by
  apply word_congr
  intro index less
  have sector : (offset + index) / sectorSize = 0 := by
    simp only [sectorSize]
    omega
  have byte : (offset + index) % sectorSize = offset + index := by
    simp only [sectorSize]
    omega
  unfold oldImage
  rw [sector, byte]
  rfl

theorem length_boundedString_le (memory : Nat → UInt8) (limit : Nat) :
    (boundedString memory limit).bytes.length ≤ limit := by
  have isPrefix : (boundedString memory limit).bytes <+: (List.range limit).map memory :=
    List.takeWhile_prefix _
  simpa using isPrefix.length_le

/-- The bytes of a string that ends at the first NUL. -/
theorem bufferBytes_boundedString (memory : Nat → UInt8) (limit : Nat) :
    bufferBytes memory (boundedString memory limit).bytes.length =
      (boundedString memory limit).bytes := by
  have isPrefix : (boundedString memory limit).bytes <+: (List.range limit).map memory :=
    List.takeWhile_prefix _
  have most := length_boundedString_le memory limit
  rw [List.prefix_iff_eq_take.mp isPrefix]
  unfold bufferBytes
  rw [← List.map_take, List.take_range, List.length_map, List.length_range,
    Nat.min_eq_left (by simpa using most)]

/-! ## Reading the old image -/

/-- Sectors were read, and nothing else happened. -/
structure Peeked (s s' : Fs) : Prop where
  still : Still s s'
  sectors : s'.sectors = s.sectors
  history : s'.history = s.history

theorem Peeked.disk {s s' : Fs} (peeked : Peeked s s') : s'.disk = s.disk := by
  unfold Fs.disk
  rw [peeked.sectors]

section Reading

variable {s : Fs}

theorem blocksRead_low (count : Nat) :
    ∀ {s : Fs} {sector : Nat}, sector + count ≤ 2 ^ 19 → s.Quiet →
    Meets (blocksRead sector count) s
      (fun blocks s' => Peeked s s' ∧
        blocks = (List.range count).map fun index => s.disk (sector + index))
      fun _ _ => False := by
  induction count with
  | zero =>
      intro s sector _ _
      exact .pure ⟨⟨.refl s, rfl, rfl⟩, rfl⟩
  | succ count induction =>
      intro s sector low quiet
      unfold blocksRead
      refine .bind (.attempt ((blockRead_spec s sector).mono ?_ ?_))
      · rintro first s1 ⟨rfl, rfl⟩
        have rest := @induction (s.request sector none) (sector + 1) (by omega) quiet
        refine .bind (.attempt (rest.mono ?_ fun _ _ impossible => impossible.elim))
        rintro blocks s2 ⟨peeked, rfl⟩
        have still : Still s (s.request sector none) :=
          ⟨⟨rfl, rfl, rfl, rfl, rfl, rfl, List.suffix_refl _⟩, rfl, rfl⟩
        refine .pure ⟨⟨still.trans peeked.still, peeked.sectors, peeked.history⟩, ?_⟩
        rw [List.range_succ_eq_map, List.map_cons, List.map_map, lbaOf_eq (by omega)]
        congr 1
        apply List.map_congr_left
        intro index _
        simp only [Function.comp_apply, Nat.succ_eq_add_one]
        rw [Nat.add_right_comm sector 1 index]
        rfl
      · rintro error s1 ⟨_, loud, _⟩
        exact absurd quiet loud

theorem oldImageLoad_spec (quiet : s.Quiet) :
    Meets oldImageLoad s
      (fun old s' => Peeked s s' ∧ (OldFormat s.disk ∧ old = some (oldImage s.disk) ∨
        ¬ OldFormat s.disk ∧ old = none))
      fun _ _ => False := by
  unfold oldImageLoad
  refine (blocksRead_low oldImageSectors (by decide) quiet).seq ?_
    fun _ _ impossible => impossible
  rintro blocks s1 ⟨peeked, isBlocks⟩
  have magic := word_oldImage s.disk 0 (by decide)
  have count := word_oldImage s.disk 4 (by decide)
  simp only [Nat.zero_add] at isBlocks magic
  subst isBlocks
  change Meets (if word (oldImage s.disk) ≠ oldMagicValue ∨
    word (fun index => oldImage s.disk (4 + index)) > oldMaxFiles then
    pure none else pure (some (oldImage s.disk)) : FsM (Option (Nat → UInt8))) s1 _ _
  rw [magic, count]
  refine .ite (fun other => .pure ⟨peeked, Or.inr ⟨fun old => ?_, rfl⟩⟩) fun old => ?_
  · rcases other with other | many
    · exact other old.magic
    · exact absurd old.count (Nat.not_le_of_gt many)
  · rw [not_or, not_not, Nat.not_lt] at old
    exact .pure ⟨peeked, Or.inl ⟨⟨old.1, old.2⟩, rfl⟩⟩

end Reading

/-! ## Storing the files again -/

section Importing

variable {F : Format} {s s' : Fs} {own own' : Ownership} {name : CString}
variable {files : CString → Option (List UInt8)} {number : Nat}

/-- The filesystem after so many records. Each took at most two clusters, one for the
directory and one for its contents. -/
structure Imported (F : Format) (files : CString → Option (List UInt8)) (number : Nat)
    (s : Fs) (own : Ownership) : Prop where
  ready : Ready F (fun _ => False) s own
  quiet : s.Quiet
  contents : contentsOf F s.image own = files
  snug : ∀ location, SnugAt F s.image own location
  room : 47 ≤ freeClusters F s.image + 2 * number

theorem Format.keeps_le_one (F : Format) {length : Nat} (small : length ≤ oldDataSize) :
    F.keeps length ≤ 1 := by
  apply F.keeps_le
  have power := Nat.two_pow_pos F.shift
  have some := Nat.mul_le_mul_right sectorSize power
  have isSize : sectorSize = 512 := rfl
  have isData : oldDataSize = 256 := rfl
  rw [F.clusterBytes_eq]
  omega

theorem Filled.snug {length : Nat} {location : Location}
    (filled : Filled F s s' own own' name length location)
    (snug : ∀ location, SnugAt F s.image own location) (other : Location) :
    SnugAt F s'.image own' other := by
  intro held
  by_cases equal : other = location
  · rw [equal, filled.size, filled.chain (snug location)]
  · have kept := filled.rewritten.kept other equal
    have before := kept.holds.mp held
    rw [kept.chain, kept.entry before]
    exact snug other before

theorem Rewritten.length_root {image image' : Image} {location : Location}
    (rewritten : Rewritten F image image' own own' location) :
    (own' .root).length ≤ (own .root).length + 1 := by
  rcases rewritten.root with ⟨_, same⟩ | ⟨_, same | ⟨⟨cluster, grown, _⟩, _⟩⟩
  · rw [same]
    omega
  · rw [same]
    omega
  · rw [grown, List.length_append, List.length_singleton]

/-- With two free clusters one more file fits. -/
theorem Imported.step (imported : Imported F files number s own) (few : number < oldMaxFiles)
    (valid : nameOk name = true) (content : Nat → UInt8) {length : Nat}
    (small : length ≤ oldDataSize) :
    Meets (fsWriteAll (some name) content length) s
      (fun _ s' => Same s s' ∧ ∃ own', Imported F
        (Function.update files name (some (bufferBytes content length))) (number + 1) s' own')
      fun _ _ => False := by
  have isMax : oldMaxFiles = 16 := rfl
  have isData : oldDataSize = 256 := rfl
  have room := imported.room
  have isLength : (UInt32.ofNat length).toNat = length := by
    apply UInt32.toNat_ofNat_of_lt
    simp only [UInt32.size]
    omega
  rcases imported.ready.between.inv.directory.fileMap with ⟨map, isMap⟩
  have shown : Shows F (fun _ => False) s own ⟨map, fun _ => none⟩ :=
    ⟨isMap, funext fun file => (handleNames_of_not_live id).symm⟩
  have step := fsWriteAll_step imported.ready id imported.quiet shown valid content
    (UInt32.ofNat length)
  have closed : ∀ file, False ↔ otherNames (fun _ => False) s (some name) file :=
    fun file => ⟨False.elim, fun other => other.1⟩
  rw [isLength] at step
  refine step.mono ?_ ?_
  · rintro _ s' ⟨same, own', location, ready', filled, contents⟩
    have quiet' := same.quiet imported.quiet
    have free := filled.free imported.ready ready' imported.quiet quiet'
    have chain := filled.chain (imported.snug location)
    have one := F.keeps_le_one small
    have root := filled.rewritten.length_root
    refine ⟨same, own', ready'.live_congr closed, quiet', ?_, filled.snug imported.snug, ?_⟩
    · rw [contents, imported.contents]
    · omega
  · rintro error s' ⟨_, same, own', ready', lacking⟩
    have quiet' := same.quiet imported.quiet
    cases lacking with
    | noSlot absent full noSlot same contents =>
        have none := freeClusters_eq_zero_iff.mpr full
        omega
    | noCluster part filled full reached contents =>
        -- The file has no cluster, because its contents fit into one.
        have none := freeClusters_eq_zero_iff.mpr full
        have free := filled.free imported.ready ready' imported.quiet quiet'
        have chain := filled.chain (imported.snug _)
        have one := F.keeps_le_one (part.le.trans small)
        have root := filled.rewritten.length_root
        omega

theorem bufferBytes_oldData (image : Nat → UInt8) (number : Nat) :
    bufferBytes (fun index => image (oldRecord number + oldNameSize + index))
      (boundedString (fun index => image (oldRecord number + oldNameSize + index))
        oldDataSize).bytes.length = oldData image number :=
  bufferBytes_boundedString _ _

/-- The files after one more record. -/
theorem update_oldFiles {image : Nat → UInt8} (valid : nameOk (oldName image number) = true) :
    Function.update (oldFiles image number) (oldName image number)
      (some (oldData image number)) = oldFiles image (number + 1) := by
  funext name
  by_cases equal : name = oldName image number
  · subst equal
    rw [Function.update_self, oldFiles, if_pos ⟨valid, rfl⟩]
  · rw [Function.update_of_ne equal, oldFiles, if_neg fun both => equal both.2.symm]

theorem importLoop_spec (image : Nat → UInt8) (rounds : Nat) :
    ∀ {number : Nat} {s : Fs} {own : Ownership}, number + rounds ≤ oldMaxFiles →
    Imported F (oldFiles image number) number s own →
    Meets (importLoop image rounds (oldRecord number)) s
      (fun _ s' => Same s s' ∧ ∃ own', Imported F (oldFiles image (number + rounds))
        (number + rounds) s' own')
      fun _ _ => False := by
  induction rounds with
  | zero =>
      intro number s own _ imported
      exact .pure ⟨.refl s, own, imported⟩
  | succ rounds induction =>
      intro number s own few imported
      have next := oldRecord_succ number
      have shift : number + 1 + rounds = number + (rounds + 1) := by omega
      have more := @induction (number + 1)
      rw [← next, shift] at more
      unfold importLoop
      dsimp only
      refine .ite (fun valid => ?_) fun invalid => ?_
      · refine .bind (.attempt ((imported.step (by omega) valid
          (fun index => image (oldRecord number + oldNameSize + index))
          (length_boundedString_le _ _)).mono ?_ fun _ _ impossible => impossible.elim))
        rintro _ s1 ⟨same1, own1, imported1⟩
        rw [bufferBytes_oldData] at imported1
        have updated : Function.update (oldFiles image number) (oldName image number)
          (some (oldData image number)) = oldFiles image (number + 1) := update_oldFiles valid
        refine (more (by omega) (?_ : Imported F _ _ s1 own1)).mono ?_
          fun _ _ impossible => impossible
        · rw [← updated]
          exact imported1
        · exact fun _ s2 ⟨same2, imported2⟩ => ⟨same1.trans same2, imported2⟩
      · have same : oldFiles image (number + 1) = oldFiles image number := by
          funext name
          have other : ¬ (nameOk (oldName image number) = true ∧
            oldName image number = name) := fun both => invalid both.1
          rw [oldFiles, if_neg other]
        have room := imported.room
        refine more (by omega) (?_ : Imported F _ _ s own)
        rw [same]
        exact ⟨imported.ready, imported.quiet, imported.contents, imported.snug, by omega⟩

/-- Records without valid names are skipped. -/
theorem importLoop_nothing (image : Nat → UInt8) (rounds : Nat) :
    ∀ {number : Nat}, (∀ record, number ≤ record → record < number + rounds →
      nameOk (oldName image record) = false) →
    Meets (importLoop image rounds (oldRecord number)) s (fun _ s' => s' = s)
      fun _ _ => False := by
  induction rounds with
  | zero => exact fun _ => .pure rfl
  | succ rounds induction =>
      intro number invalid
      have next := oldRecord_succ number
      unfold importLoop
      dsimp only
      rw [next]
      refine .ite (fun valid => ?_) fun _ => ?_
      · have isInvalid := invalid number (Nat.le_refl _) (by omega)
        rw [oldName, valid] at isInvalid
        cases isInvalid
      · exact induction fun record atLeast less => invalid record (by omega) (by omega)

/-- A new filesystem has room for all old files. -/
theorem Installed.imported {total shift : Nat} (laidOut : LaidOut total shift)
    (large : 64 ≤ total) (small : total < 2 ^ 32 - 2 ^ 19) {past : List (Nat → Sector)}
    (new : Installed (formatLayout total) shift s)
    (ready : Ready (laidOut.format large small past) (fun _ => False) s freshOwn)
    (quiet : s.Quiet) :
    Imported (laidOut.format large small past) (fun _ => none) 0 s freshOwn := by
  have image : s.image = s.disk := Fs.image_of_clean new.clean
  have fresh : Fresh (laidOut.format large small past).sb
      (laidOut.format large small past).shift s.image := by
    rw [image]
    exact new.fresh
  have count := ready.count quiet (Nat.lt_succ_self _)
  have one : (takenClusters (laidOut.format large small past) (freshOwn .root)
      fun location => freshOwn (.slot location)).length = 1 := by
    rw [length_takenClusters]
    simp [freshOwn]
  have enough : 48 ≤ (laidOut.format large small past).sb.clusterCount := laidOut.enough
  refine ⟨ready, quiet, fresh.shows.contents.symm, fun location held =>
    absurd held (fresh.not_holds location), ?_⟩
  rw [one] at count
  unfold freeClusters
  simp only [Nat.succ_eq_add_one] at count
  omega

/-- The disk was formatted and then, unless `idle`, files were stored. -/
structure Refounded (F : Format) (idle : Prop) (s s' : Fs) : Prop where
  total : F.total = s.total
  label : F.label = F.sb.toSector
  root : F.sb.rootCluster = 1
  formats : ∃ s1 s2, Peeked s s1 ∧ NewFilesystem F.sb F.shift s1 s2 ∧ Same s2 s' ∧
    (idle → s' = s2)

/-- No record of the old image has a valid name. -/
def NoOldFiles (disk : Image) : Prop :=
  ∀ number, number < (disk 0).wordAt 4 → nameOk (oldName (oldImage disk) number) = false

/-- `fs_init` on a disk that is not formatted yet, without failing transfers. -/
theorem initBlank_spec (quiet : s.Quiet) (device : s.diskSectors = s.total)
    (large : minDiskSectors ≤ s.total) (small : s.total ≤ 0x0FFFFFFF) :
    Meets initBlank s
      (fun result s' => ∃ F own, Refounded F (NoOldFiles s.disk) s s' ∧
        (OldFormat s.disk ∧ result = .migrated ∧
            Imported F (oldFiles (oldImage s.disk) ((s.disk 0).wordAt 4))
              ((s.disk 0).wordAt 4) s' own ∨
          ¬ OldFormat s.disk ∧ result = .formatted ∧ Imported F (fun _ => none) 0 s' own))
      fun _ _ => False := by
  have isMin : minDiskSectors = 4160 := rfl
  have isStart : fsLbaStart = 4096 := rfl
  have isWord : wordSize = 2 ^ 32 := rfl
  have total64 : 64 ≤ s.total - fsLbaStart := by omega
  have totalSmall : s.total - fsLbaStart < 2 ^ 32 - 2 ^ 19 := by omega
  rcases formatLayout_laidOut total64 (by omega) with ⟨shift, laidOut⟩
  unfold initBlank
  refine (oldImageLoad_spec quiet).seq ?_ fun _ _ impossible => impossible
  rintro old s1 ⟨peeked, isOld⟩
  have isTotal1 : s1.diskSectors = s.total := peeked.still.same.diskSectors.trans device
  have quiet1 := peeked.still.same.quiet quiet
  have format := @formatNow_spec s1 shift
  rw [isTotal1] at format
  refine (format large laidOut).seq ?_ ?_
  · rintro _ s2 new
    have isTotal2 : s2.total = fsLbaStart + (s.total - fsLbaStart) := by
      rw [new.reformats.total, peeked.still.same.total]
      omega
    have device2 : s2.diskSectors = s2.total := by
      rw [new.reformats.diskSectors, isTotal1, isTotal2]
      omega
    have quiet2 : s2.Quiet := by
      unfold Fs.Quiet
      rw [new.reformats.fails]
      exact quiet1
    have imported := new.toInstalled.imported laidOut total64 totalSmall
      (new.toInstalled.ready laidOut total64 totalSmall isTotal2 device2
        fun _ member => Or.inl member) quiet2
    have isTotal : (laidOut.format total64 totalSmall s2.history).total = s.total := by
      change fsLbaStart + (s.total - fsLbaStart) = s.total
      omega
    rcases isOld with ⟨isOld, rfl⟩ | ⟨notOld, rfl⟩
    · have count := word_oldImage s.disk 4 (by decide)
      have loop := importLoop_spec (oldImage s.disk) ((s.disk 0).wordAt 4)
        (by rw [Nat.zero_add]; exact isOld.count) imported
      rw [Nat.zero_add] at loop
      change Meets (importLoop (oldImage s.disk)
        (word fun index => oldImage s.disk (4 + index)) (oldRecord 0) >>= fun _ =>
          pure InitResult.migrated) s2 _ _
      rw [count]
      have idle : Meets (importLoop (oldImage s.disk) ((s.disk 0).wordAt 4) (oldRecord 0)) s2
          (fun _ s' => NoOldFiles s.disk → s' = s2) fun _ _ => True := by
        by_cases none : NoOldFiles s.disk
        · refine (importLoop_nothing (oldImage s.disk) _ fun record _ less =>
            none record (by omega)).mono ?_ fun _ _ _ => trivial
          exact fun _ _ same _ => same
        · refine loop.mono ?_ fun _ _ _ => trivial
          exact fun _ _ _ isNone => absurd isNone none
      refine (loop.and idle).seq ?_ fun _ _ impossible => impossible.1
      rintro _ s3 ⟨⟨same3, own3, imported3⟩, isIdle⟩
      exact .pure ⟨_, own3, ⟨isTotal, rfl, rfl, s1, s2, peeked, new, same3, isIdle⟩,
        Or.inl ⟨isOld, rfl, imported3⟩⟩
    · exact .pure ⟨_, _, ⟨isTotal, rfl, rfl, s1, s2, peeked, new, .refl s2, fun _ => rfl⟩,
        Or.inr ⟨notOld, rfl, imported⟩⟩
  · rintro error s2 ⟨_, failed⟩
    exact failed.loud quiet1

end Importing

/-- A disk in the old format has all its files afterwards, each as its last record says,
and no others. -/
theorem migration_preserves_files {s : Fs} (quiet : s.Quiet)
    (large : minDiskSectors ≤ s.total) (small : s.total ≤ 0x0FFFFFFF)
    (old : OldFormat s.disk) :
    ∃ s' F own, fsInit s = .ok .migrated s' ∧ Ready F (fun _ => False) s' own ∧
      F.total = s.total ∧
      contentsOf F s'.image own = oldFiles (oldImage s.disk) ((s.disk 0).wordAt 4) := by
  have other : s.label.magic ≠ magicValue := by
    change (s.disk 0).wordAt 0 ≠ magicValue
    rw [old.magic]
    decide
  have spec : Meets fsInit s
      (fun result s' => result = .migrated ∧ ∃ F own, Ready F (fun _ => False) s' own ∧
        F.total = s.total ∧
        contentsOf F s'.image own = oldFiles (oldImage s.disk) ((s.disk 0).wordAt 4))
      fun _ _ => False := by
    refine fsInit_spec large ?_ ?_ ?_ ?_
    · exact fun mountable => absurd mountable.magic other
    · intro _
      refine (@initBlank_spec s.sized.labelled quiet rfl large small).mono ?_
        fun _ _ impossible => impossible
      rintro result s' ⟨F, own, refounded, ⟨_, isResult, imported⟩ | ⟨notOld, _⟩⟩
      · exact ⟨isResult, F, own, imported.ready, refounded.total, imported.contents⟩
      · exact absurd old notOld
    · exact fun magic => absurd magic other
    · exact fun loud => absurd quiet loud
  cases run : fsInit s with
  | ok result s' =>
      rcases spec.ok_of_run run with ⟨rfl, F, own, ready, isTotal, contents⟩
      exact ⟨s', F, own, rfl, ready, isTotal, contents⟩
  | error error s' => exact (spec.error_of_run run).elim

/-- The smallest disk in the old format, with the file `a` that holds `b`. -/
def smallOldDisk : Fs :=
  { Fs.blank minDiskSectors with
    sectors := Function.update (fun _ => zeroSector) fsLbaStart
      (zeroSector
        |>.setWordAt 0 oldMagicValue
        |>.setWordAt 4 1
        |>.copyInto 8 1 (fun _ => 97)
        |>.copyInto 40 1 (fun _ => 98)) }

theorem smallOldDisk_oldFormat : OldFormat smallOldDisk.disk ∧
    (smallOldDisk.disk 0).wordAt 4 = 1 := by
  refine ⟨⟨?_, ?_⟩, ?_⟩
  · decide +kernel
  · decide +kernel
  · decide +kernel

/-- The smallest disk with one file. -/
theorem migration_preserves_files_small :
    ∃ s' F own, fsInit smallOldDisk = .ok .migrated s' ∧
      contentsOf F s'.image own ⟨[97], by decide⟩ = some [98] := by
  rcases migration_preserves_files (fun _ => rfl) (Nat.le_refl minDiskSectors) (by decide)
    smallOldDisk_oldFormat.1 with ⟨s', F, own, run, _, _, contents⟩
  refine ⟨s', F, own, run, ?_⟩
  rw [contents, smallOldDisk_oldFormat.2]
  decide +kernel

end Katela.Filesystem
