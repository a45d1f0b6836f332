import Mathlib.Data.List.Perm.Subperm
import Katela.Filesystem.Volume

/-! # Taking and freeing clusters

The functions that change the FAT, as changes of ownership: a cluster is taken
from the free ones into the hands of the running function, appended to a chain,
cut off, or freed. -/

namespace Katela.Filesystem

/-- Nothing but the FAT, its cache and the bookkeeping of transfers changed. -/
structure FatOnly (F : Format) (s s' : Fs) : Prop where
  same : Same s s'
  files : s'.files = s.files
  iters : s'.iters = s.iters
  image_eq : ∀ sector, sector = 0 ∨ F.sb.fatSectors < sector →
    s'.image sector = s.image sector

namespace FatOnly

variable {F : Format} {s s' s'' : Fs}

theorem refl (s : Fs) : FatOnly F s s := ⟨.refl s, rfl, rfl, fun _ _ => rfl⟩

theorem still (only : FatOnly F s s') : Still s s' :=
  ⟨only.same, only.files, only.iters⟩

theorem trans (first : FatOnly F s s') (second : FatOnly F s' s'') :
    FatOnly F s s'' where
  same := first.same.trans second.same
  files := second.files.trans first.files
  iters := second.iters.trans first.iters
  image_eq sector outside :=
    (second.image_eq sector outside).trans (first.image_eq sector outside)

theorem ofMoved {image : Image} (moved : Moved s s' image)
    (outside : ∀ sector, sector = 0 ∨ F.sb.fatSectors < sector →
      image sector = s.image sector) : FatOnly F s s' :=
  ⟨moved.same, moved.files, moved.iters, fun sector away => by
    rw [moved.image_eq]
    exact outside sector away⟩

theorem ofUnmoved (moved : Moved s s' s.image) : FatOnly F s s' :=
  .ofMoved moved fun _ _ => rfl

end FatOnly

/-- An entry of the FAT is in a sector of the FAT. -/
theorem Format.setFat_outside (F : Format) (image : Image) {cluster : Nat}
    (value : Nat) (inRange : cluster ≤ F.sb.clusterCount) (sector : Nat)
    (outside : sector = 0 ∨ F.sb.fatSectors < sector) :
    setFat image cluster value sector = image sector := by
  apply setFat_of_ne
  intro equal
  have inFat := F.geometry.fatFits.fatSector_le inRange
  have positive : 1 ≤ 1 + cluster / fatPerSector := Nat.le_add_right _ _
  rw [← equal] at inFat positive
  omega

/-- Different numbers from 1 to `count` are at most `count` many. -/
theorem length_le_of_bounds {count : Nat} {cells : List Nat} (distinct : cells.Nodup)
    (bounds : ∀ cell ∈ cells, 1 ≤ cell ∧ cell ≤ count) : cells.length ≤ count := by
  have inRange : cells ⊆ (List.range count).map (· + 1) := by
    intro cell member
    have atCell := bounds cell member
    refine List.mem_map.mpr ⟨cell - 1, List.mem_range.mpr ?_, ?_⟩ <;> omega
  have shorter := (List.subperm_of_subset distinct inRange).length_le
  simpa using shorter

/-- A chain visits no cluster twice, so it is no longer than the disk. -/
theorem Accounted.length_le {exact : Prop} {sb : SuperBlock} {image : Image}
    {own : Ownership} (accounted : Accounted exact sb image own) (owner : Owner) :
    (own owner).length ≤ sb.clusterCount :=
  length_le_of_bounds (Linked.nodup (accounted.chains.linked owner)) (accounted.bounds owner)

namespace Inv

variable {F : Format} {live : FileRef → Prop} {s s' : Fs} {own own' : Ownership}

/-- A change of an entry of the FAT that leaves the directory and the open
files alone. -/
theorem setFat {cluster value : Nat} (inv : Inv F live s own)
    (moved : Moved s s' (setFat s.image cluster value))
    (inRange : cluster ≤ F.sb.clusterCount)
    (accounted : Accounted s.Quiet F.sb (Filesystem.setFat s.image cluster value) own')
    (root : own' .root = own .root)
    (slots : ∀ location, own' (.slot location) = own (.slot location))
    (handles : ∀ file, own' (.handle file) = own (.handle file)) :
    Inv F live s' own' := by
  have outside := F.setFat_outside s.image value inRange
  have dirSame : ∀ location, F.InDir (own .root) location →
      Filesystem.setFat s.image cluster value location.sector =
        s.image location.sector :=
    fun location inDir => outside _ (Or.inr inDir.fat_lt)
  refine inv.moved moved outside accounted
    (inv.directory.congr_slots root slots dirSame) ?_ ?_
  · refine inv.handles.congr (fun c member => ?_)
      (fun location held => alike_of_eq
        (entryOf_congr (dirSame location held.inDir))) slots handles
    rw [root]
    exact member
  · intro c member
    rw [root]
    exact member

/-- What the running function holds can change without a change of state. -/
theorem reown (inv : Inv F live s own)
    (accounted : Accounted s.Quiet F.sb s.image own')
    (root : own' .root = own .root)
    (slots : ∀ location, own' (.slot location) = own (.slot location))
    (handles : ∀ file, own' (.handle file) = own (.handle file)) :
    Inv F live s own' := by
  refine { inv with
    accounted := accounted
    directory := inv.directory.congr_slots root slots fun _ _ => rfl
    handles := inv.handles.congr (fun c member => ?_)
      (fun _ _ => alike_of_eq rfl) slots handles
    disk := ?_ }
  · rw [root]
    exact member
  · rw [root]
    exact inv.disk

/-- Clusters that the running function holds may be lost when a transfer
failed. -/
theorem dropSpare (inv : Inv F live s own)
    (empty : s.Quiet → own .spare = []) :
    Inv F live s (Function.update own .spare []) :=
  inv.reown (inv.accounted.drop .spare empty) (by simp) (by simp) (by simp)

end Inv

/-! ## Taking a cluster -/

section Clusters

variable {F : Format} {live : FileRef → Prop} {s : Fs} {own : Ownership}

/-- No cluster is free. -/
def Full (F : Format) (image : Image) : Prop :=
  ∀ cluster, 1 ≤ cluster → cluster ≤ F.sb.clusterCount → fatAt image cluster ≠ 0

theorem clusterAlloc_inv (inv : Inv F live s own) (empty : own .spare = []) :
    Meets clusterAlloc s
      (fun cluster s' => Inv F live s' (Function.update own .spare [cluster]) ∧
        FatOnly F s s' ∧ fatAt s.image cluster = 0)
      fun error s' => Inv F live s' own ∧ FatOnly F s s' ∧
        s'.image = s.image ∧
        (error = .io ∧ ¬ s.Quiet ∨ error = .nospc ∧ Full F s.image) := by
  refine (clusterAlloc_spec inv.geometry inv.coherent).mono ?_ ?_
  · rintro cluster s' ⟨moved, positive, inRange, free⟩
    rw [inv.sb] at inRange
    have accounted := inv.accounted.alloc positive inRange free .spare empty
    refine ⟨inv.setFat moved inRange accounted (by simp) (by simp) (by simp), ?_, free⟩
    exact .ofMoved moved (F.setFat_outside s.image _ inRange)
  · rintro error s' ⟨moved, why⟩
    refine ⟨inv.unmoved moved, .ofUnmoved moved, moved.image_eq, ?_⟩
    rw [inv.sb] at why
    exact why

/-- Giving back the first cluster that the running function holds. -/
theorem clusterFree_inv {cluster : Nat} {rest : List Nat}
    (inv : Inv F live s own) (held : own .spare = cluster :: rest) :
    Meets (clusterFree cluster) s
      (fun _ s' => Inv F live s' (Function.update own .spare rest) ∧
        FatOnly F s s')
      fun error s' => error = .io ∧ ¬ s.Quiet ∧ Inv F live s' own ∧
        FatOnly F s s' := by
  have bounds := inv.accounted.bounds .spare cluster (by simp [held])
  refine (clusterFree_spec inv.geometry inv.coherent bounds.1
    (by rw [inv.sb]; exact bounds.2)).mono ?_ ?_
  · intro _ s' moved
    refine ⟨?_, .ofMoved moved (F.setFat_outside s.image _ bounds.2)⟩
    exact inv.setFat moved bounds.2 (inv.accounted.behead held) (by simp)
      (by simp) (by simp)
  · rintro error s' ⟨isIo, loud, moved⟩
    exact ⟨isIo, loud, inv.unmoved moved, .ofUnmoved moved⟩

/-- Following a chain from one of its clusters. -/
theorem chainNext_inv {owner : Owner} {front back : List Nat} {cluster : Nat}
    (inv : Inv F live s own) (split : own owner = front ++ cluster :: back) :
    Meets (chainNext cluster) s
      (fun next s' => Inv F live s' own ∧ FatOnly F s s' ∧
        s'.image = s.image ∧ next = firstOf back)
      fun error s' => error = .io ∧ ¬ s.Quiet ∧ Inv F live s' own ∧
        FatOnly F s s' ∧ s'.image = s.image := by
  have bounds := inv.accounted.bounds owner cluster (by simp [split])
  have link := inv.accounted.link_of_split split
  refine (chainNext_spec inv.geometry.fatFits inv.coherent bounds.1
    (by rw [inv.sb]; exact bounds.2)).mono ?_ ?_
  · rintro next s' ⟨moved, value⟩
    refine ⟨inv.unmoved moved, .ofUnmoved moved, moved.image_eq, ?_⟩
    simp only [linkOf] at link
    rcases value with ⟨isEnd, isZero⟩ | ⟨notEnd, isNext, _⟩
    · rw [if_pos isEnd] at link
      rw [isZero, firstOf, ← link]
      rfl
    · rw [if_neg notEnd] at link
      rw [firstOf, ← link, ← isNext]
      rfl
  · rintro error s' ⟨moved, ⟨isIo, loud⟩ | ⟨_, notEnd, invalid⟩⟩
    · exact ⟨isIo, loud, inv.unmoved moved, .ofUnmoved moved, moved.image_eq⟩
    · -- A chain holds no entry that could be reported.
      exfalso
      simp only [linkOf, if_neg notEnd] at link
      cases back with
      | nil => cases link
      | cons head rest =>
          injection link with isHead
          have headBounds := inv.accounted.bounds owner head (by simp [split])
          rw [isHead, inv.sb] at invalid
          omega

/-! ## Freeing a chain -/

theorem chainFreeLoop_inv (cells : List Nat) :
    ∀ {left : Nat} {s : Fs} {own : Ownership}, cells.length ≤ left →
    Inv F live s own → own .spare = cells →
    Meets (chainFreeLoop left (firstOf cells)) s
      (fun _ s' => Inv F live s' (Function.update own .spare []) ∧ FatOnly F s s')
      fun _ s' => ¬ s.Quiet ∧ Inv F live s' (Function.update own .spare []) ∧
        FatOnly F s s' := by
  induction cells with
  | nil =>
      intro left s own _ inv held
      unfold chainFreeLoop
      rw [firstOf_nil, if_pos rfl]
      have same : Function.update own .spare [] = own := by
        rw [← held]
        exact Function.update_eq_self _ _
      rw [same]
      exact .pure ⟨inv, .refl s⟩
  | cons cluster rest induction =>
      intro left s own enough inv held
      have positive := (inv.accounted.bounds .spare cluster (by simp [held])).1
      have nonzero : cluster ≠ 0 := by omega
      unfold chainFreeLoop
      rw [firstOf_cons, if_neg nonzero]
      have split : own .spare = [] ++ cluster :: rest := held
      refine (chainNext_inv inv split).seq ?_ ?_
      · rintro next walked ⟨inv', only, _, isNext⟩
        refine (clusterFree_inv inv' held).seq ?_ ?_
        · rintro _ freed ⟨inv'', only'⟩
          cases left with
          | zero => simp at enough
          | succ left =>
              rw [isNext]
              refine (induction (by simpa using enough) inv'' (by simp)).mono ?_ ?_
              · rintro _ s' ⟨done, only''⟩
                rw [Function.update_idem] at done
                exact ⟨done, (only.trans only').trans only''⟩
              · rintro _ s' ⟨loud, lost, only''⟩
                rw [Function.update_idem] at lost
                exact ⟨(only.trans only').same.not_quiet loud, lost,
                  (only.trans only').trans only''⟩
        · rintro error failed ⟨_, loud, inv'', only'⟩
          refine ⟨only.same.not_quiet loud, ?_, only.trans only'⟩
          exact inv''.dropSpare fun quiet =>
            absurd (only'.same.quiet_before quiet) loud
      · rintro error failed ⟨_, loud, inv', only, _⟩
        refine ⟨loud, ?_, only⟩
        exact inv'.dropSpare fun quiet => absurd (only.same.quiet_before quiet) loud

/-- Freeing the chain that the running function holds. -/
theorem chainFree_inv {first : Nat} (inv : Inv F live s own)
    (isFirst : first = firstOf (own .spare)) :
    Meets (chainFree first) s
      (fun _ s' => Inv F live s' (Function.update own .spare []) ∧ FatOnly F s s')
      fun _ s' => ¬ s.Quiet ∧ Inv F live s' (Function.update own .spare []) ∧
        FatOnly F s s' := by
  unfold chainFree
  refine .bind (.get ?_)
  rw [isFirst, inv.sb]
  exact chainFreeLoop_inv (own .spare) (inv.accounted.length_le .spare) inv rfl

end Clusters

end Katela.Filesystem
