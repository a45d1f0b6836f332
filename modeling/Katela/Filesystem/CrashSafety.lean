import Katela.Filesystem.Accounting

/-! # Faults and crashes

Any transfer may fail and the power may be lost between any two writes. The disk
alone is consistent at every moment, so that it can be mounted again. -/

namespace Katela.Filesystem

section Unmounted

variable {F : Format} {s s' : Fs}

/-- The state after the superblock could not be read. -/
structure Unmounted (F : Format) (s : Fs) : Prop where
  mounted : s.mounted = false
  clean : s.fatDirty = false
  total : s.total = F.total
  loud : ¬ s.Quiet
  disk : ∃ own, Volume F s.disk own
  history : ∀ sectors ∈ s.history, sectors ∈ F.past ∨
    ∃ old, Volume F (volumeOf sectors) old

theorem requireMounted_unmounted {α : Type} {rest : FsM α} (mounted : s.mounted = false) :
    Meets (requireMounted >>= fun _ => rest) s (fun _ _ => False) fun _ s' => s' = s := by
  unfold requireMounted
  refine .bind (.bind (.get (.require (fun isMounted => ?_) fun _ => rfl)))
  rw [mounted] at isMounted
  cases isMounted

/-- A call that is refused leaves a clean cache alone. -/
theorem finish_unmounted {α : Type} {call : FsM α} (clean : s.fatDirty = false)
    (refused : Meets call s (fun _ _ => False) fun _ s' => s' = s) :
    Meets (finish call) s (fun _ _ => False) fun _ s' => s' = s := by
  unfold finish
  refine .bind (.attempt (refused.mono (fun _ _ impossible => impossible.elim) ?_))
  rintro error s1 rfl
  refine .bind (.attempt ?_)
  unfold fatFlush
  refine .bind (.get ?_)
  rw [clean]
  exact .pure (.throw rfl)

/-- Every call on files is refused before the disk is mounted. -/
theorem onFiles_unmounted (mounted : s.mounted = false) (clean : s.fatDirty = false)
    {call : Call} (onFiles : call.OnFiles) : ∃ error, perform call s = (.error error, s) := by
  have refuse : ∀ {α : Type} {program : FsM α} {reply : α → Reply},
      call.run = reply <$> program →
      Meets program s (fun _ _ => False) (fun _ s' => s' = s) →
      ∃ error, perform call s = (.error error, s) := by
    intro α program reply isRun refused
    refine @perform_of_meets α call program reply s
      (fun result s' => ∃ error, (result, s') = (.error error, s)) isRun
      (refused.mono (fun _ _ impossible => impossible.elim) ?_)
    rintro error s' rfl
    exact ⟨error, rfl⟩
  have opens : ∀ (name : Option CString) (file : FileRef) (create : Bool),
      Meets (fsOpen name file create) s (fun _ _ => False) fun _ s' => s' = s :=
    fun name file create => finish_unmounted clean (requireMounted_unmounted mounted)
  cases call with
  | create name =>
      exact refuse rfl (finish_unmounted clean (requireMounted_unmounted mounted))
  | remove name =>
      exact refuse rfl (finish_unmounted clean (requireMounted_unmounted mounted))
  | rename source target => exact refuse rfl (requireMounted_unmounted mounted)
  | «open» name file creates => exact refuse rfl (opens name _ creates)
  | read file offset count => exact refuse rfl (requireMounted_unmounted mounted)
  | write file offset buffer count =>
      exact refuse rfl (finish_unmounted clean (requireMounted_unmounted mounted))
  | truncate file size =>
      exact refuse rfl (finish_unmounted clean (requireMounted_unmounted mounted))
  | readAll name =>
      refine refuse rfl ((opens name .stack false).seq ?_ fun _ _ same => same)
      exact fun _ _ impossible => impossible.elim
  | writeAll name buffer size =>
      refine refuse rfl ((opens name .stack true).seq ?_ fun _ _ same => same)
      exact fun _ _ impossible => impossible.elim
  | _ => exact onFiles.elim

/-- The calls that list the directory and count clusters. -/
theorem reading_unmounted (unmounted : Unmounted F s) {call : Call}
    (reading : (∃ iter, call = .iterBegin iter) ∨ (∃ iter, call = .iterNext iter) ∨
      call = .usage) : Unmounted F (perform call s).2 := by
  have refuse : ∀ {α : Type} {program : FsM α} {reply : α → Reply},
      call.run = reply <$> program →
      Meets program s (fun _ _ => False) (fun _ s' => s' = s) →
      Unmounted F (perform call s).2 := by
    intro α program reply isRun refused
    refine perform_state (Unmounted F) rfl isRun
      (refused.mono (fun _ _ impossible => impossible.elim) ?_)
    rintro _ s' rfl
    exact unmounted
  rcases reading with ⟨iter, rfl⟩ | ⟨iter, rfl⟩ | rfl
  · exact ⟨unmounted.mounted, unmounted.clean, unmounted.total, unmounted.loud,
      unmounted.disk, unmounted.history⟩
  · exact refuse rfl (requireMounted_unmounted unmounted.mounted)
  · exact refuse rfl (requireMounted_unmounted unmounted.mounted)

end Unmounted

section Faults

variable {F : Format} {live : FileRef → Prop} {s s' : Fs} {own : Ownership}
variable {result : Except FsError Reply}

/-- What holds along a run in which transfers may fail. -/
inductive Survives (F : Format) (live : FileRef → Prop) (s : Fs) : Prop where
  | mounted {own : Ownership} (ready : Ready F live s own) (notLive : ¬ live .stack)
  | unmounted (unmounted : Unmounted F s) (notLive : ∀ file, ¬ live file)

/-- A disk that holds a filesystem is mounted, unless the superblock cannot be read. -/
theorem init_survives (isTotal : s.total = F.total) (volume : Volume F s.disk own)
    (exact : s.Quiet → Accounted True F.sb s.disk own.shown)
    (history : ∀ sectors ∈ s.history, sectors ∈ F.past ∨
      ∃ old, Volume F (volumeOf sectors) old)
    (performed : perform .init s = (result, s')) :
    Survives F (fun _ => False) s' := by
  have mountable := mountable_of_label volume.label isTotal
  have large : minDiskSectors ≤ s.total := by
    rw [isTotal]
    exact F.large
  have shown := volume.shown
  refine perform_state (Survives F fun _ => False) performed rfl (fsInit_spec large ?_ ?_ ?_ ?_)
  · intro _
    refine .mounted (remounted_ready isTotal volume.label ?_ shown.directory ?_ rfl
      (fun _ _ => rfl) (fun _ _ impossible => impossible.elim) history) id
    · refine ⟨shown.accounted.chains, shown.accounted.bounds, fun quiet => ?_⟩
      exact (exact quiet).complete trivial
    · exact ⟨fun _ impossible => impossible.elim, fun _ _ impossible => impossible.elim,
        fun _ _ => rfl⟩
  · exact fun other => absurd mountable.magic other
  · exact fun _ other => absurd mountable other
  · exact fun loud => .unmounted ⟨rfl, rfl, isTotal, loud, ⟨own, volume⟩, history⟩
      fun _ => id

theorem Survives.init (before : Survives F live s)
    (performed : perform .init s = (result, s')) : Survives F (fun _ => False) s' := by
  cases before with
  | mounted ready notLive =>
      have inv := ready.between.inv
      by_cases quiet : s.Quiet
      · have image : s.image = s.disk := Fs.image_of_clean (ready.clean quiet)
        have volume := inv.volume
        have accounted := inv.accounted
        rw [image] at volume accounted
        refine init_survives inv.total volume (fun _ => ?_) inv.history performed
        refine ⟨volume.shown.accounted.chains, volume.shown.accounted.bounds, ?_⟩
        intro _ cluster positive inRange taken
        rcases accounted.complete quiet cluster positive inRange taken with ⟨owner, member⟩
        cases owner with
        | root => exact ⟨.root, member⟩
        | slot location => exact ⟨.slot location, member⟩
        | handle file =>
            rw [ready.between.shown quiet file] at member
            cases member
        | spare =>
            rw [ready.between.spare] at member
            cases member
      · rcases inv.disk with ⟨old, volume, _⟩
        exact init_survives inv.total volume (fun isQuiet => absurd isQuiet quiet)
          inv.history performed
  | unmounted unmounted notLive =>
      rcases unmounted.disk with ⟨old, volume⟩
      exact init_survives unmounted.total volume
        (fun quiet => absurd quiet unmounted.loud) unmounted.history performed

theorem Survives.step {call : Call} (before : Survives F live s)
    (kind : call ≠ .format) (usable : call.Usable live)
    (performed : perform call s = (result, s')) :
    Survives F (call.liveAfter False s result s' live) s' := by
  have isState : s' = (perform call s).2 := by rw [performed]
  by_cases isInit : call = .init
  · subst isInit
    have after := before.init performed
    have none : (fun file => live file ∧ False) = fun _ => False := by
      funext file
      exact propext ⟨fun both => both.2, False.elim⟩
    change Survives F (fun file => live file ∧ False) s'
    rw [none]
    exact after
  cases before with
  | @mounted own ready notLive =>
      by_cases onFiles : call.OnFiles
      · have answers : Answers F False live s own call _ _ :=
          perform_answers ready notLive onFiles usable
        rw [performed] at answers
        rcases answers with ⟨own', _, ready', _⟩
        exact .mounted ready' (call.not_liveAfter_stack notLive)
      · have reads : ∀ {α : Type} {program : FsM α} {reply : α → Reply},
            call.run = reply <$> program →
            Keeps (ReadyWith F live own s.fails) program → Survives F live s' := by
          intro α program reply isRun keeps
          exact .mounted (perform_state _ performed isRun (keeps s ⟨ready, rfl⟩)).ready
            notLive
        cases call with
        | init => exact absurd rfl isInit
        | format => exact absurd rfl kind
        | iterBegin iter => exact reads rfl (fsIterBegin_readyWith s.fails iter)
        | iterNext iter => exact reads rfl (fsIterNext_readyWith s.fails iter)
        | usage => exact reads rfl (fsUsage_readyWith s.fails)
        | _ => exact absurd trivial onFiles
  | unmounted unmounted notLive =>
      by_cases onFiles : call.OnFiles
      · rcases onFiles_unmounted unmounted.mounted unmounted.clean onFiles with
          ⟨error, refused⟩
        rw [performed] at refused
        injection refused with isResult isSame
        subst isResult isSame
        refine .unmounted unmounted fun file isLive => ?_
        cases call with
        | remove name => exact notLive file isLive.1
        | «open» name file creates => exact notLive _ isLive.1
        | readAll name => exact notLive file isLive.1
        | writeAll name buffer size => exact notLive file isLive.1
        | init => exact absurd rfl isInit
        | format => exact isLive
        | _ => exact notLive file isLive
      · have reads : ((∃ iter, call = .iterBegin iter) ∨ (∃ iter, call = .iterNext iter) ∨
            call = .usage) → Unmounted F s' := by
          intro reading
          rw [isState]
          exact reading_unmounted unmounted reading
        cases call with
        | init => exact absurd rfl isInit
        | format => exact absurd rfl kind
        | iterBegin iter => exact .unmounted (reads (Or.inl ⟨iter, rfl⟩)) notLive
        | iterNext iter => exact .unmounted (reads (Or.inr (Or.inl ⟨iter, rfl⟩))) notLive
        | usage => exact .unmounted (reads (Or.inr (Or.inr rfl))) notLive
        | _ => exact absurd trivial onFiles

theorem Survives.volume (survives : Survives F live s) : ∃ own, Volume F s.disk own := by
  cases survives with
  | mounted ready _ =>
      rcases ready.between.inv.disk with ⟨old, volume, _⟩
      exact ⟨old, volume⟩
  | unmounted unmounted _ => exact unmounted.disk

theorem Survives.past (survives : Survives F live s) :
    ∀ sectors ∈ s.history, sectors ∈ F.past ∨ ∃ old, Volume F (volumeOf sectors) old := by
  cases survives with
  | mounted ready _ => exact ready.between.inv.history
  | unmounted unmounted _ => exact unmounted.history

/-- Every run from a new filesystem survives. -/
theorem Survives.run {start : Fs} {events : List Event} (survives : Survives F (fun _ => False)
    start) (run : Run (· ≠ .format) False start events s live) : Survives F live s := by
  induction run with
  | start => exact survives
  | call before kind usable performed induction => exact induction.step kind usable performed

end Faults

/-- From a new filesystem on, whichever transfers fail and wherever a run is stopped
between two writes, the disk alone is consistent and keeps its superblock. -/
theorem disk_consistent {start s : Fs} {events : List Event} {live : FileRef → Prop}
    (formatted : Formatted start) (run : Run (· ≠ .format) False start events s live) :
    ∃ F, F.sb = start.sb ∧ F.label = start.disk 0 ∧
      ∀ sectors, sectors = s.sectors ∨ sectors ∈ s.history →
        ∃ root chain, Consistent F (volumeOf sectors) root chain := by
  rcases formatted.ready with ⟨F, isPast, _, _, ready, _⟩
  have begin' : Survives F (fun _ => False) start := .mounted ready id
  have survives := begin'.run run
  refine ⟨F, ready.between.inv.sb.symm, ?_, ?_⟩
  · rcases begin'.volume with ⟨own, volume⟩
    exact volume.label.symm
  · rintro sectors (rfl | member)
    · rcases survives.volume with ⟨own, volume⟩
      exact ⟨_, _, volume.consistent⟩
    · rcases survives.past sectors member with old | ⟨own, volume⟩
      · rw [isPast] at old
        cases old
      · exact ⟨_, _, volume.consistent⟩

/-- A run that creates a file on a new filesystem and mounts it again. -/
theorem disk_consistent_create :
    ∃ (start s : Fs) (events : List Event) (live : FileRef → Prop) (F : Format)
      (root : List Nat) (chain : Location → List Nat),
      Formatted start ∧ events.length = 2 ∧ Run (· ≠ .format) False start events s live ∧
      F.sb = start.sb ∧ Consistent F (volumeOf s.sectors) root chain := by
  rcases blank_formatted with ⟨start, formatted, _⟩
  have created := @Run.call (· ≠ .format) False start _ _ _ _
    (.create (some ⟨[97], by decide⟩)) _ .start (by simp) trivial rfl
  have run := @Run.call (· ≠ .format) False start _ _ _ _ .init _ created (by simp) trivial rfl
  rcases disk_consistent formatted run with ⟨F, isSb, _, consistent⟩
  rcases consistent _ (Or.inl rfl) with ⟨root, chain, isConsistent⟩
  exact ⟨start, _, _, _, F, root, chain, formatted, rfl, run, isSb, isConsistent⟩

end Katela.Filesystem
