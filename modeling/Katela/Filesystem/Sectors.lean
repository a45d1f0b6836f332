import Katela.Filesystem.Allocation

/-! # Sectors of files and of the directory

Writes to clusters outside the directory leave the filesystem in order whatever
they store. Sectors of the directory are written only after the FAT, so the
disk agrees with the image at that moment. -/

namespace Katela.Filesystem

/-! ## Writes outside the directory -/

/-- All written sectors belong to clusters that are not of the directory. -/
def Private (F : Format) (root : List Nat) (Here : Nat → Prop) : Prop :=
  ∀ sector, Here sector → ∃ cluster, 1 ≤ cluster ∧
    F.InCluster cluster sector ∧ cluster ∉ root

namespace Private

variable {F : Format} {root root' : List Nat} {Here : Nat → Prop}

theorem mono (isPrivate : Private F root Here)
    (less : ∀ cluster ∈ root', cluster ∈ root) : Private F root' Here := by
  intro sector here
  rcases isPrivate sector here with ⟨cluster, positive, inside, outside⟩
  exact ⟨cluster, positive, inside, fun member => outside (less cluster member)⟩

theorem fat (isPrivate : Private F root Here) {sector : Nat}
    (inFat : sector ≤ F.sb.fatSectors) : ¬ Here sector := by
  intro here
  rcases isPrivate sector here with ⟨cluster, _, inside, _⟩
  have beyond := F.fat_lt_of_inCluster inside
  omega

theorem dir (isPrivate : Private F root Here)
    (positive : ∀ cluster ∈ root, 1 ≤ cluster) {location : Location}
    (inDir : F.InDir root location) : ¬ Here location.sector := by
  intro here
  rcases inDir with ⟨_, cluster, member, inside⟩
  rcases isPrivate _ here with ⟨other, otherPos, there, outside⟩
  have equal := F.inCluster_unique (positive cluster member) otherPos inside there
  rw [equal] at member
  exact outside member

end Private

/-- The FAT is the same when its sectors are. -/
theorem Format.fatAt_congr (F : Format) {image image' : Image}
    (same : ∀ sector, sector ≤ F.sb.fatSectors → image' sector = image sector)
    {cluster : Nat} (inRange : cluster ≤ F.sb.clusterCount) :
    fatAt image' cluster = fatAt image cluster := by
  unfold fatAt
  rw [same _ (F.geometry.fatFits.fatSector_le inRange)]

theorem Volume.scribbled {F : Format} {image image' : Image} {own : Ownership}
    {Here : Nat → Prop} (before : Volume F image own)
    (isPrivate : Private F (own .root) Here)
    (same : ∀ sector, ¬ Here sector → image' sector = image sector) :
    Volume F image' own where
  label := by
    rw [same 0 (isPrivate.fat (Nat.zero_le _))]
    exact before.label
  accounted := before.accounted.congr fun _ _ inRange =>
    F.fatAt_congr (fun sector inFat => same sector (isPrivate.fat inFat)) inRange
  directory := before.directory.congr_slots rfl (fun _ => rfl)
    fun location inDir => same _ (isPrivate.dir
      (fun cluster member => (before.accounted.bounds .root cluster member).1) inDir)

namespace Inv

variable {F : Format} {live : FileRef → Prop} {s s' : Fs} {own own' : Ownership}
variable {Here : Nat → Prop}

theorem root_pos (inv : Inv F live s own) (cluster : Nat)
    (member : cluster ∈ own .root) : 1 ≤ cluster :=
  (inv.accounted.bounds .root cluster member).1

theorem scribbled (inv : Inv F live s own) (scribbled : Scribbled Here s s')
    (isPrivate : Private F (own .root) Here) : Inv F live s' own where
  sb := scribbled.same.sb.trans inv.sb
  shift := scribbled.same.clusterShift.trans inv.shift
  total := scribbled.same.total.trans inv.total
  mounted := scribbled.same.mounted.trans inv.mounted
  coherent := scribbled.coherent
  label := by
    rw [scribbled.image_eq 0 (isPrivate.fat (Nat.zero_le _))]
    exact inv.label
  accounted := by
    have quiet : s'.Quiet = s.Quiet := by
      simp only [Fs.Quiet, scribbled.same.fails]
    rw [quiet]
    exact inv.accounted.congr fun _ _ inRange => F.fatAt_congr
      (fun sector inFat => scribbled.image_eq sector (isPrivate.fat inFat)) inRange
  directory := inv.directory.congr_slots rfl (fun _ => rfl)
    fun location inDir =>
      scribbled.image_eq _ (isPrivate.dir inv.root_pos inDir)
  handles := by
    rw [scribbled.files]
    exact inv.handles.congr (fun _ member => member)
      (fun location held => alike_of_eq (entryOf_congr
        (scribbled.image_eq _ (isPrivate.dir inv.root_pos held.inDir))))
      (fun _ => rfl) fun _ => rfl
  disk := by
    rcases inv.disk with ⟨old, volume, less⟩
    exact ⟨old, volume.scribbled (isPrivate.mono less) scribbled.disk_eq, less⟩
  history sectors member := by
    rcases scribbled.history sectors member with before | new
    · exact inv.history sectors before
    · rcases inv.disk with ⟨old, volume, less⟩
      exact Or.inr ⟨old, volume.scribbled (isPrivate.mono less) new⟩

/-- The sectors of a cluster that the directory does not own. -/
theorem private_cluster (inv : Inv F live s own) {owner : Owner} {cluster : Nat}
    (member : cluster ∈ own owner) (notRoot : owner ≠ .root) :
    Private F (own .root) (F.InCluster cluster) := by
  intro sector here
  refine ⟨cluster, (inv.accounted.bounds owner cluster member).1, here, ?_⟩
  intro inRoot
  exact notRoot (inv.accounted.chains.apart owner .root cluster member inRoot)

theorem clusterSector_eq (inv : Inv F live s own) {owner : Owner} {cluster : Nat}
    (member : cluster ∈ own owner) :
    clusterSector s cluster = F.sectorOf cluster := by
  have bounds := inv.accounted.bounds owner cluster member
  rw [Filesystem.clusterSector_eq inv.geometry bounds.1
    (by rw [inv.sb]; exact bounds.2), inv.sb, inv.shift]
  rfl

end Inv

/-! ## Clearing and filling sectors -/

/-- The sectors of a run. -/
def InRun (sector count : Nat) (other : Nat) : Prop :=
  sector ≤ other ∧ other < sector + count

theorem zeroSectors_spec {F : Format} (count : Nat) :
    ∀ {s : Fs} {sector : Nat}, s.sb = F.sb → s.clusterShift = F.shift →
    Coherent s → F.sb.fatSectors < sector →
    sector + count ≤ F.sb.totalSectors →
    Meets (zeroSectors count sector) s
      (fun _ s' => Scribbled (InRun sector count) s s' ∧
        ∀ index, index < count → s'.image (sector + index) = zeroSector)
      fun error s' => error = .io ∧ ¬ s.Quiet ∧
        Scribbled (InRun sector count) s s' := by
  induction count with
  | zero =>
      intro s sector _ _ coherent _ _
      exact .pure ⟨.refl coherent, fun index impossible =>
        absurd impossible (Nat.not_lt_zero index)⟩
  | succ count induction =>
      intro s sector isSb isShift coherent beyond bound
      have geometry : Geometry s.sb s.clusterShift := by
        rw [isSb, isShift]
        exact F.geometry
      have wider : ∀ other, InRun (sector + 1) count other →
          InRun sector (count + 1) other := by
        intro other inRun
        simp only [InRun] at *
        omega
      unfold zeroSectors
      refine (blockWrite_scribbled geometry coherent (InRun sector (count + 1))
        .directory zeroSector (by simp [InRun])
        (coherent.cache_ne geometry (by rw [isSb]; exact beyond)
          (by rw [isSb]; omega)) (by rw [isSb]; omega)).seq ?_ ?_
      · rintro _ first ⟨scribbled, image, _, _⟩
        refine (induction (scribbled.same.sb.trans isSb)
          (scribbled.same.clusterShift.trans isShift) scribbled.coherent
          (by omega) (by omega)).mono ?_ ?_
        · rintro _ s' ⟨more, zeros⟩
          refine ⟨scribbled.trans (more.mono wider), ?_⟩
          intro index less
          cases index with
          | zero =>
              -- The later writes go to later sectors.
              have earlier : ¬ InRun (sector + 1) count sector := by
                simp only [InRun]
                omega
              rw [Nat.add_zero, more.image_eq sector earlier, image]
              simp
          | succ index =>
              have zero := zeros index (by omega)
              rw [Nat.add_assoc, Nat.add_comm 1 index] at zero
              exact zero
        · rintro error s' ⟨isIo, loud, more⟩
          exact ⟨isIo, scribbled.same.not_quiet loud,
            scribbled.trans (more.mono wider)⟩
      · rintro error s' ⟨isIo, loud, scribbled, _⟩
        exact ⟨isIo, loud, scribbled⟩

theorem clusterZero_inv {F : Format} {live : FileRef → Prop} {s : Fs}
    {own : Ownership} {cluster : Nat} (inv : Inv F live s own)
    (member : cluster ∈ own .spare) :
    Meets (clusterZero cluster) s
      (fun _ s' => Inv F live s' own ∧ Scribbled (F.InCluster cluster) s s' ∧
        ∀ sector, F.InCluster cluster sector → s'.image sector = zeroSector)
      fun error s' => error = .io ∧ ¬ s.Quiet ∧ Inv F live s' own ∧
        Scribbled (F.InCluster cluster) s s' := by
  have bounds := inv.accounted.bounds .spare cluster member
  have isPrivate := inv.private_cluster member (by simp)
  have first : F.InCluster cluster (F.sectorOf cluster) :=
    ⟨Nat.le_refl _, Nat.lt_add_of_pos_right (Nat.two_pow_pos F.shift)⟩
  have bound : F.sectorOf cluster + 2 ^ F.shift ≤ F.sb.totalSectors := by
    have last := F.geometry.sector_lt bounds.2 bounds.1
      (Nat.sub_one_lt_of_lt (Nat.two_pow_pos F.shift))
    have power := Nat.two_pow_pos F.shift
    simp only [Format.sectorOf]
    omega
  unfold clusterZero
  refine .bind (.get ?_)
  rw [inv.clusterSector_eq member, inv.shift]
  refine (zeroSectors_spec (2 ^ F.shift) inv.sb inv.shift inv.coherent
    (F.fat_lt_of_inCluster first) bound).mono ?_ ?_
  · rintro _ s' ⟨scribbled, zeros⟩
    refine ⟨inv.scribbled scribbled isPrivate, scribbled, ?_⟩
    intro sector inside
    have zero := zeros (sector - F.sectorOf cluster) (by
      have lower := inside.1
      have upper := inside.2
      omega)
    rw [Nat.add_sub_cancel' inside.1] at zero
    exact zero
  · rintro error s' ⟨isIo, loud, scribbled⟩
    exact ⟨isIo, loud, inv.scribbled scribbled isPrivate, scribbled⟩

/-! ## Sectors of the directory -/

/-- A sector was stored after the FAT, so that the disk agrees with the
image. -/
structure Stored (s s' : Fs) (sector : Nat) (contents : Sector) : Prop where
  same : Same s s'
  files : s'.files = s.files
  iters : s'.iters = s.iters
  coherent : Coherent s'
  clean : s'.fatDirty = false
  image_eq : s'.image = Function.update s.image sector contents
  disk_eq : s'.disk = s'.image
  history : ∀ sectors ∈ s'.history, sectors ∈ s.history ∨
    volumeOf sectors = s.image ∨ volumeOf sectors = s'.image

theorem Stored.still {s s' : Fs} {sector : Nat} {contents : Sector}
    (stored : Stored s s' sector contents) : Still s s' :=
  ⟨stored.same, stored.files, stored.iters⟩

/-- The part of `slot_store` and `file_sync` after the FAT was written. -/
theorem storeBack_spec {s flushed : Fs} (geometry : Geometry s.sb s.clusterShift)
    (moved : Moved s flushed s.image) (clean : flushed.fatDirty = false)
    (agrees : flushed.disk = s.image) {sector : Nat}
    (outside : s.sb.fatSectors < sector) (inRange : sector < s.sb.totalSectors)
    (change : Sector → Sector) :
    Meets (do
        let contents ← blockRead sector
        blockWrite .directory sector (change contents)) flushed
      (fun _ s' => Stored s s' sector (change (s.image sector)))
      fun error s' => error = .io ∧ ¬ s.Quiet ∧ Moved s s' s.image := by
  have geometry' := moved.same.geometry geometry
  have lba := geometry.lba_eq inRange
  refine (blockRead_spec flushed sector).seq ?_ ?_
  · rintro contents read ⟨isContents, rfl⟩
    have requested : Moved flushed (flushed.request sector none) flushed.image :=
      .request moved.coherent sector none
    have isImage : contents = s.image sector := by
      rw [isContents, lba, ← agrees]
      rfl
    rw [isImage]
    refine (blockWrite_scribbled (requested.same.geometry geometry')
      requested.coherent (· = sector) .directory (change (s.image sector)) rfl
      (moved.coherent.cache_ne geometry' (by rw [moved.same.sb]; exact outside)
        (by rw [moved.same.sb]; exact inRange))
      (by rw [requested.same.sb, moved.same.sb]; exact inRange)).mono ?_ ?_
    · rintro _ s' ⟨scribbled, image, disk, history⟩
      have isClean : s'.fatDirty = false := scribbled.dirty.trans clean
      rw [requested.image_eq, moved.image_eq] at image
      refine ⟨(moved.same.trans requested.same).trans scribbled.same,
        (scribbled.files.trans requested.files).trans moved.files,
        (scribbled.iters.trans requested.iters).trans moved.iters,
        scribbled.coherent, isClean, image, (Fs.image_of_clean isClean).symm, ?_⟩
      intro sectors member
      rcases history sectors member with before | new
      · rcases moved.history sectors before with old | flush
        · exact Or.inl old
        · exact Or.inr (Or.inl flush)
      · rw [Fs.image_of_clean isClean]
        exact Or.inr (Or.inr new)
    · rintro error s' ⟨isIo, loud, _, failed⟩
      rw [requested.image_eq, moved.image_eq] at failed
      rw [moved.image_eq] at requested
      refine ⟨isIo, moved.same.not_quiet (requested.same.not_quiet loud), ?_⟩
      exact (moved.trans requested).trans failed
  · rintro error s' ⟨isIo, loud, rfl⟩
    have requested : Moved flushed (flushed.request sector none) flushed.image :=
      .request moved.coherent sector none
    rw [moved.image_eq] at requested
    exact ⟨isIo, moved.same.not_quiet loud, moved.trans requested⟩

theorem slotStore_spec {s : Fs} (geometry : Geometry s.sb s.clusterShift)
    (coherent : Coherent s) {location : Location} (entry : DirEntry)
    (outside : s.sb.fatSectors < location.sector)
    (inRange : location.sector < s.sb.totalSectors) :
    Meets (slotStore location entry) s
      (fun _ s' => Stored s s' location.sector
        ((s.image location.sector).copyInto (location.slot * dirEntrySize)
          dirEntrySize entry.toBytes))
      fun error s' => error = .io ∧ ¬ s.Quiet ∧ Moved s s' s.image := by
  unfold slotStore
  refine (fatFlush_spec geometry.fatFits coherent).seq ?_ fun _ _ failed => failed
  rintro _ flushed ⟨moved, clean, agrees, _⟩
  exact storeBack_spec geometry moved clean agrees outside inRange
    fun contents => contents.copyInto (location.slot * dirEntrySize) dirEntrySize
      entry.toBytes

theorem fileSync_spec {s : Fs} (geometry : Geometry s.sb s.clusterShift)
    (coherent : Coherent s) (file : FileRef)
    (outside : s.sb.fatSectors < (s.files file).dirSector)
    (inRange : (s.files file).dirSector < s.sb.totalSectors) :
    Meets (fileSync file) s
      (fun _ s' => Stored s s' (s.files file).dirSector
        ((s.image (s.files file).dirSector
          |>.setWordAt (dirEntrySize * (s.files file).dirSlot + 116)
            (s.files file).first
          |>.setWordAt (dirEntrySize * (s.files file).dirSlot + 120)
            (s.files file).size)))
      fun error s' => error = .io ∧ ¬ s.Quiet ∧ Moved s s' s.image := by
  unfold fileSync
  refine (fatFlush_spec geometry.fatFits coherent).seq ?_ fun _ _ failed => failed
  rintro _ flushed ⟨moved, clean, agrees, _⟩
  refine .bind (.get ?_)
  rw [moved.files]
  exact storeBack_spec geometry moved clean agrees outside inRange
    fun contents => contents
      |>.setWordAt (dirEntrySize * (s.files file).dirSlot + 116)
        (s.files file).first
      |>.setWordAt (dirEntrySize * (s.files file).dirSlot + 120)
        (s.files file).size

/-- After a sector of the directory was stored the image must be a volume
again; then so is the disk. -/
theorem Inv.stored {F : Format} {live live' : FileRef → Prop} {s s' : Fs}
    {own own' : Ownership} {sector : Nat} {contents : Sector}
    (inv : Inv F live s own) (stored : Stored s s' sector contents)
    (outside : F.sb.fatSectors < sector)
    (accounted : Accounted s.Quiet F.sb s.image own')
    (directory : Directory F (Function.update s.image sector contents) own')
    (handles : Handles F live' (Function.update s.image sector contents) own'
      s.files) :
    Inv F live' s' own' := by
  have fatSame : ∀ other, other ≤ F.sb.fatSectors →
      Function.update s.image sector contents other = s.image other := by
    intro other inFat
    apply Function.update_of_ne
    omega
  have label : Function.update s.image sector contents 0 = F.label := by
    rw [fatSame 0 (Nat.zero_le _)]
    exact inv.label
  have fits : Accounted s.Quiet F.sb (Function.update s.image sector contents)
      own' :=
    accounted.congr fun _ _ inRange => F.fatAt_congr fatSame inRange
  have volume : Volume F s'.image own' := by
    rw [stored.image_eq]
    exact ⟨label, fits.weaken, directory⟩
  have quiet : s'.Quiet = s.Quiet := by
    simp only [Fs.Quiet, stored.same.fails]
  constructor
  case sb => exact stored.same.sb.trans inv.sb
  case shift => exact stored.same.clusterShift.trans inv.shift
  case total => exact stored.same.total.trans inv.total
  case mounted => exact stored.same.mounted.trans inv.mounted
  case coherent => exact stored.coherent
  case label => exact volume.label
  case accounted =>
    rw [quiet, stored.image_eq]
    exact fits
  case directory => exact volume.directory
  case handles =>
    rw [stored.image_eq, stored.files]
    exact handles
  case disk => exact ⟨own', stored.disk_eq ▸ volume, fun _ member => member⟩
  case history =>
    intro sectors member
    rcases stored.history sectors member with before | flush | new
    · exact inv.history sectors before
    · exact Or.inr ⟨own, flush ▸ inv.volume⟩
    · exact Or.inr ⟨own', new ▸ volume⟩

end Katela.Filesystem
