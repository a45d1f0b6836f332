import Katela.Filesystem.Consistency

/-! # Listing and usage

The functions that list the directory and count the free clusters only read. They
leave the filesystem as they found it, whatever the memory of an iterator holds. -/

namespace Katela.Filesystem

section Reading

variable {F : Format} {live : FileRef → Prop} {s s' : Fs} {own : Ownership}

/-- The state of a filesystem in which some transfers fail. -/
structure ReadyWith (F : Format) (live : FileRef → Prop) (own : Ownership)
    (fails : Nat → Bool) (s : Fs) : Prop where
  ready : Ready F live s own
  fails : s.fails = fails

theorem ReadyWith.moved {fails : Nat → Bool} (before : ReadyWith F live own fails s)
    (moved : Moved s s' s.image) (clean : s.Quiet → s'.fatDirty = false) :
    ReadyWith F live own fails s' where
  ready :=
    { between := before.ready.between.unmoved moved
      clean := fun quiet => clean (moved.same.quiet_before quiet)
      device := by
        rw [moved.same.diskSectors, moved.same.total]
        exact before.ready.device }
  fails := moved.same.fails.trans before.fails

/-- A function that moves the cache, and changes nothing else, keeps the filesystem
ready. -/
theorem keeps_readyWith {α : Type} {program : FsM α} {fails : Nat → Bool}
    (moves : ∀ {s : Fs}, Geometry s.sb s.clusterShift → Coherent s →
      Meets program s (fun _ s' => Moved s s' s.image) fun _ s' => Moved s s' s.image)
    (clean : Keeps Fs.Clean program) :
    Keeps (ReadyWith F live own fails) program := by
  intro s before
  have safe := before.ready.between.safe
  refine (before.ready.withClean (moves safe.1 safe.2) clean).mono ?_ ?_
  · exact fun _ s' both => before.moved both.1 both.2
  · exact fun _ s' both => before.moved both.1 both.2

theorem blockRead_readyWith (fails : Nat → Bool) (sector : Nat) :
    Keeps (ReadyWith F live own fails) (blockRead sector) := by
  refine keeps_readyWith (fun {s} _ coherent => ?_) (blockRead_clean sector)
  refine (blockRead_spec s sector).mono ?_ ?_
  · rintro _ s' ⟨_, rfl⟩
    exact .request coherent sector none
  · rintro _ s' ⟨_, _, rfl⟩
    exact .request coherent sector none

/-- The entry of any cluster, also of one that does not exist. -/
theorem chainNext_readyWith (fails : Nat → Bool) (cluster : Nat) :
    Keeps (ReadyWith F live own fails) (chainNext cluster) := by
  refine keeps_readyWith (fun {s} geometry coherent => ?_) (chainNext_clean cluster)
  by_cases inRange : cluster ≠ 0 ∧ cluster ≤ s.sb.clusterCount
  · refine (chainNext_spec geometry.fatFits coherent (Nat.pos_of_ne_zero inRange.1)
      inRange.2).mono ?_ ?_
    · exact fun _ s' next => next.1
    · exact fun _ s' failed => failed.1
  · unfold chainNext fatGet
    refine .bind (.bind (.get (.bind (.require (fun inside => absurd inside inRange)
      fun _ => .refl coherent))))

theorem Inv.setIter (inv : Inv F live s own) (iter : Nat) (change : FsIter → FsIter) :
    Inv F live (s.setIter iter change) own :=
  ⟨inv.sb, inv.shift, inv.total, inv.mounted, ⟨inv.coherent.sector, inv.coherent.clean,
    inv.coherent.dirty⟩, inv.label, inv.accounted, inv.directory, inv.handles, inv.disk,
    inv.history⟩

theorem setIter_readyWith (fails : Nat → Bool) (iter : Nat) (change : FsIter → FsIter) :
    Keeps (ReadyWith F live own fails)
      (modify fun s => s.setIter iter change : FsM Unit) := by
  intro s before
  have between := before.ready.between
  exact .modify ⟨⟨⟨between.inv.setIter iter change, between.spare, between.shown,
    between.synced⟩, before.ready.clean, before.ready.device⟩, before.fails⟩

theorem iterAdvance_readyWith (fails : Nat → Bool) (iter : Nat) :
    Keeps (ReadyWith F live own fails) (iterAdvance iter) := by
  unfold iterAdvance
  refine .bind (setIter_readyWith fails iter _) fun _ => .bind .get fun s => .ite ?_ (.pure _)
  exact .bind (setIter_readyWith fails iter _) fun _ =>
    .bind (chainNext_readyWith fails _) fun next =>
      .bind (setIter_readyWith fails iter _) fun _ => .bind .get fun _ => .require

theorem iterLoop_readyWith (fails : Nat → Bool) (iter rounds : Nat) :
    Keeps (ReadyWith F live own fails) (iterLoop iter rounds) := by
  induction rounds with
  | zero => exact .pure none
  | succ rounds induction =>
      unfold iterLoop
      refine .bind .get fun s => ?_
      dsimp only
      refine .ite (.pure none) (.bind (blockRead_readyWith fails _) fun contents => ?_)
      cases nextUsed contents (slotsPerSector - (s.iters iter).slot) (s.iters iter).slot with
      | some slot => exact .bind (setIter_readyWith fails iter _) fun _ => .pure _
      | none => exact .bind (iterAdvance_readyWith fails iter) fun _ => induction

theorem fsIterNext_readyWith (fails : Nat → Bool) (iter : Nat) :
    Keeps (ReadyWith F live own fails) (fsIterNext iter) := by
  unfold fsIterNext
  exact .bind requireMounted_keeps fun _ => .bind .get fun s =>
    iterLoop_readyWith fails iter _

/-! ## Usage -/

/-- The loop of `fs_usage` counts the free clusters of one sector after the
other. -/
theorem usageLoop_spec (rounds : Nat) :
    ∀ {s : Fs} (index count : Nat), Geometry s.sb s.clusterShift → Coherent s →
      index + rounds = s.sb.fatSectors →
      count = (freeBelow s.sb s.image (index * fatPerSector)).length →
      Meets (usageLoop rounds index count) s
        (fun free s' => Moved s s' s.image ∧
          free = (freeBelow s.sb s.image (s.sb.fatSectors * fatPerSector)).length)
        fun error s' => error = .io ∧ ¬ s.Quiet ∧ Moved s s' s.image := by
  induction rounds with
  | zero =>
      intro s index count geometry coherent last isCount
      rw [Nat.add_zero] at last
      rw [isCount, last]
      exact .pure ⟨.refl coherent, rfl⟩
  | succ rounds induction =>
      intro s index count geometry coherent last isCount
      unfold usageLoop
      refine (fatLoad_spec geometry.fatFits coherent (Nat.le_add_right 1 index)
        (by omega)).seq ?_ fun _ _ failed => failed
      rintro _ s1 ⟨moved, cached⟩
      have contents : s1.fatCache = s.image (1 + index) := by
        rw [moved.coherent.cache_eq, cached, moved.image_eq]
        rw [cached]
        exact geometry.fatFits.ne_noSector (by omega)
      refine .bind (.get ?_)
      refine (induction (index + 1) _ (moved.same.geometry geometry) moved.coherent ?_
        ?_).mono ?_ ?_
      · rw [moved.same.sb]
        omega
      · rw [moved.same.sb, moved.image_eq, length_freeBelow_succ, contents, isCount]
      · rintro free s2 ⟨moved2, isFree⟩
        rw [moved.image_eq] at moved2 isFree
        rw [moved.same.sb] at isFree
        exact ⟨moved.trans moved2, isFree⟩
      · rintro error s2 ⟨isIo, loud, moved2⟩
        rw [moved.image_eq] at moved2
        exact ⟨isIo, moved.same.not_quiet loud, moved.trans moved2⟩

theorem usageLoop_clean (rounds : Nat) :
    ∀ index count, Keeps Fs.Clean (usageLoop rounds index count) := by
  induction rounds with
  | zero => exact fun index count => .pure count
  | succ rounds induction =>
      intro index count
      unfold usageLoop
      exact .bind (fatLoad_clean _) fun _ => .bind .get fun s => induction _ _

theorem fsUsage_clean : Keeps Fs.Clean fsUsage := by
  unfold fsUsage
  exact .bind requireMounted_keeps fun _ => .bind .get fun s =>
    .bind (usageLoop_clean _ 0 0) fun free => .pure _

theorem fsUsage_spec (ready : Ready F live s own) :
    Meets fsUsage s
      (fun stats s' => Moved s s' s.image ∧
        stats.totalClusters = F.sb.clusterCount ∧
        stats.clusterBytes = F.clusterBytes ∧
        stats.freeClusters =
          (freeBelow F.sb s.image (F.sb.fatSectors * fatPerSector)).length)
      fun error s' => error = .io ∧ ¬ s.Quiet ∧ Moved s s' s.image := by
  have inv := ready.between.inv
  unfold fsUsage
  refine (requireMounted_spec inv.mounted).seq ?_ fun _ _ impossible => impossible.elim
  rintro _ s1 rfl
  refine .bind (.get ?_)
  refine (usageLoop_spec _ 0 0 inv.geometry inv.coherent (Nat.zero_add _) ?_).seq ?_
    fun _ _ failed => failed
  · simp [freeBelow]
  · rintro free s2 ⟨moved, isFree⟩
    rw [inv.sb] at isFree
    refine .pure ⟨moved, ?_, ?_, isFree⟩
    · rw [inv.sb]
    · dsimp only
      rw [inv.shift, Format.clusterBytes, Nat.pow_add, Nat.mul_comm]
      rfl

theorem fsUsage_readyWith (fails : Nat → Bool) :
    Keeps (ReadyWith F live own fails) fsUsage := by
  intro s before
  refine (before.ready.withClean (fsUsage_spec before.ready) fsUsage_clean).mono ?_ ?_
  · exact fun _ s' both => before.moved both.1.1 both.2
  · exact fun _ s' both => before.moved both.1.2.2 both.2

theorem fsIterBegin_readyWith (fails : Nat → Bool) (iter : Nat) :
    Keeps (ReadyWith F live own fails) (fsIterBegin iter) := by
  intro s before
  exact setIter_readyWith fails iter _ s before

end Reading

end Katela.Filesystem
