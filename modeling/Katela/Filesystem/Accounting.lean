import Katela.Filesystem.Listing

/-! # No cluster is lost or shared

Along every run without failing transfers, whatever the calls return, the taken
clusters are those of the directory and of its files. -/

namespace Katela.Filesystem

section Exact

variable {F : Format} {live : FileRef → Prop} {s s' : Fs} {own : Ownership}

/-- What holds along a run of any calls without failing transfers. -/
structure Exact (F : Format) (live : FileRef → Prop) (s : Fs) (own : Ownership) :
    Prop where
  ready : Ready F live s own
  quiet : s.Quiet
  notLive : ¬ live .stack
  small : F.total ≤ 0x0FFFFFFF

/-- Between two calls a filesystem can be mounted again. -/
theorem Ready.remounted (ready : Ready F live s own) (quiet : s.Quiet) :
    Ready F live s.sized.remounted own := by
  have between := ready.between
  have inv := between.inv
  have image : s.image = s.disk := Fs.image_of_clean (ready.clean quiet)
  refine remounted_ready inv.total ?_ ?_ ?_ ?_ between.spare between.shown ?_ inv.history
  · rw [← image]
    exact inv.label
  · rw [← image]
    exact inv.accounted
  · rw [← image]
    exact inv.directory
  · rw [← image]
    exact inv.handles
  · rw [← image]
    exact between.synced

/-- What holds of the state that the function behind a call leaves. -/
theorem perform_state {α : Type} {call : Call} {program : FsM α} {reply : α → Reply}
    {result : Except FsError Reply} (Holds : Fs → Prop)
    (performed : perform call s = (result, s')) (isRun : call.run = reply <$> program)
    (meets : Meets program s (fun _ s' => Holds s') fun _ s' => Holds s') : Holds s' := by
  have after := @perform_of_meets α call program reply s (fun _ s' => Holds s') isRun meets
  rw [performed] at after
  exact after

variable {result : Except FsError Reply}

theorem Exact.init (before : Exact F live s own)
    (performed : perform .init s = (result, s')) :
    Exact F (fun file => live file ∧ True) s' own := by
  have inv := before.ready.between.inv
  have label : s.disk 0 = F.label := by
    rw [← Fs.image_of_clean (before.ready.clean before.quiet)]
    exact inv.label
  have mountable := mountable_of_label label inv.total
  have large : minDiskSectors ≤ s.total := by
    rw [inv.total]
    exact F.large
  have after : s' = s.sized.remounted := by
    refine perform_state (· = s.sized.remounted) performed rfl
      (fsInit_spec large (fun _ => rfl) ?_ ?_ ?_)
    · exact fun other => absurd mountable.magic other
    · exact fun _ other => absurd mountable other
    · exact fun loud => absurd before.quiet loud
  rw [after]
  refine ⟨(before.ready.remounted before.quiet).live_congr fun _ => ?_, before.quiet, ?_,
    before.small⟩
  · exact and_iff_left trivial
  · exact fun isLive => before.notLive isLive.1

theorem Exact.format (before : Exact F live s own)
    (performed : perform .format s = (result, s')) :
    ∃ F' own', Exact F' (fun _ => False) s' own' := by
  have inv := before.ready.between.inv
  have isStart : fsLbaStart = 4096 := rfl
  have isMin : minDiskSectors = 4160 := rfl
  have isWord : wordSize = 2 ^ 32 := rfl
  have large := F.large
  have small := before.small
  rw [← inv.total] at large small
  have total64 : 64 ≤ s.total - fsLbaStart := by omega
  have totalSmall : s.total - fsLbaStart < 2 ^ 32 - 2 ^ 19 := by omega
  refine perform_state (fun s' => ∃ F' own', Exact F' (fun _ => False) s' own') performed rfl
    ((fsFormat_spec (Or.inr before.ready.device) (by omega)).mono ?_ ?_)
  · rintro _ s1 ⟨_, shift, laidOut, new⟩
    rw [Fs.sized_eq before.ready.device] at new
    have isTotal : s1.total = s.total := new.reformats.total
    refine ⟨laidOut.format total64 totalSmall s1.history, freshOwn,
      new.toInstalled.ready laidOut total64 totalSmall ?_ ?_ fun _ member => Or.inl member, ?_, id, ?_⟩
    · omega
    · rw [new.reformats.diskSectors, isTotal]
      exact before.ready.device
    · intro number
      rw [new.reformats.fails]
      exact before.quiet number
    · change fsLbaStart + (s.total - fsLbaStart) ≤ 0x0FFFFFFF
      omega
  · rintro error s1 (⟨tooSmall, _⟩ | ⟨_, _, _, _, failed⟩)
    · omega
    · exact absurd before.quiet failed.loud

/-- The calls that only read. -/
theorem Exact.reads {α : Type} {program : FsM α} {reply : α → Reply} {call : Call}
    (before : Exact F live s own) (performed : perform call s = (result, s'))
    (isRun : call.run = reply <$> program)
    (keeps : Keeps (ReadyWith F live own s.fails) program) : Exact F live s' own := by
  have after := perform_state (ReadyWith F live own s.fails) performed isRun
    (keeps s ⟨before.ready, rfl⟩)
  refine ⟨after.ready, fun number => ?_, before.notLive, before.small⟩
  rw [after.fails]
  exact before.quiet number

theorem Exact.step {call : Call} (before : Exact F live s own)
    (usable : call.Usable live) (performed : perform call s = (result, s')) :
    ∃ F' own', Exact F' (call.liveAfter True s result s' live) s' own' := by
  by_cases onFiles : call.OnFiles
  · have answers : Answers F True live s own call _ _ :=
      perform_answers before.ready before.notLive onFiles usable
    rw [performed] at answers
    rcases answers with ⟨own', same, ready', _⟩
    exact ⟨F, own', ready', same.quiet before.quiet,
      call.not_liveAfter_stack before.notLive, before.small⟩
  · cases call with
    | init => exact ⟨F, own, before.init performed⟩
    | format => exact before.format performed
    | iterBegin iter => exact ⟨F, own, before.reads performed rfl
        (fsIterBegin_readyWith s.fails iter)⟩
    | iterNext iter => exact ⟨F, own, before.reads performed rfl
        (fsIterNext_readyWith s.fails iter)⟩
    | usage => exact ⟨F, own, before.reads performed rfl (fsUsage_readyWith s.fails)⟩
    | _ => exact absurd trivial onFiles

theorem Exact.run {start : Fs} {events : List Event} (formatted : Formatted start)
    (quiet : start.Quiet) (run : Run (fun _ => True) True start events s live) :
    ∃ F own, Exact F live s own := by
  induction run with
  | start =>
      rcases formatted.ready with ⟨F, _, small, _, ready, _⟩
      exact ⟨F, freshOwn, ready, quiet, id, small⟩
  | call before _ usable performed induction =>
      rcases induction with ⟨F, own, exact⟩
      exact exact.step usable performed

/-- The taken clusters are those of the directory and of the files. -/
theorem Ready.taken_iff (ready : Ready F live s own) (quiet : s.Quiet) {cluster : Nat}
    (positive : 1 ≤ cluster) (inRange : cluster ≤ F.sb.clusterCount) :
    fatAt s.image cluster ≠ 0 ↔
      cluster ∈ takenClusters F (own .root) fun location => own (.slot location) := by
  have between := ready.between
  have inv := between.inv
  have accounted := inv.accounted
  unfold takenClusters
  constructor
  · intro taken
    rcases accounted.complete quiet cluster positive inRange taken with ⟨owner, member⟩
    cases owner with
    | root => exact List.mem_append_left _ member
    | slot location =>
        apply List.mem_append_right
        refine List.mem_flatMap.mpr ⟨location, (F.mem_slots _ _).mpr ?_, member⟩
        by_contra outside
        have vacant := inv.directory.vacant location fun held => outside held.inDir
        rw [vacant] at member
        cases member
    | handle file =>
        rw [between.shown quiet file] at member
        cases member
    | spare =>
        rw [between.spare] at member
        cases member
  · intro member
    rcases List.mem_append.mp member with inRoot | inFiles
    · exact accounted.taken inRoot
    · rcases List.mem_flatMap.mp inFiles with ⟨location, _, inChain⟩
      exact accounted.taken inChain

/-- The free clusters and those of the directory and the files are all of them. -/
theorem Ready.count (ready : Ready F live s own) (quiet : s.Quiet) {bound : Nat}
    (enough : F.sb.clusterCount < bound) :
    (freeBelow F.sb s.image bound).length +
        (takenClusters F (own .root) fun location => own (.slot location)).length =
      F.sb.clusterCount :=
  ready.between.inv.volume.consistent.count
    (fun _ positive inRange => ready.taken_iff quiet positive inRange) enough

/-- `fs_usage` reports as free what neither the directory nor a file has. -/
theorem Ready.usage (ready : Ready F live s own) (quiet : s.Quiet) :
    ∃ stats s', fsUsage s = .ok stats s' ∧ stats.totalClusters = s.sb.clusterCount ∧
      stats.freeClusters +
          (takenClusters F (own .root) fun location => own (.slot location)).length =
        s.sb.clusterCount := by
  have spec := fsUsage_spec ready
  rw [ready.between.inv.sb]
  cases usage : fsUsage s with
  | ok stats s' =>
      rcases spec.ok_of_run usage with ⟨_, isTotal, _, isFree⟩
      refine ⟨stats, s', rfl, isTotal, ?_⟩
      rw [isFree]
      apply ready.count quiet
      rw [F.geometry.fat, Nat.add_mul, Nat.one_mul]
      exact Nat.lt_div_mul_add (by decide : 0 < fatPerSector)
  | error error s' => exact absurd quiet (spec.error_of_run usage).2.1

end Exact

/-- After every call of a run without failing transfers, the taken clusters are those of
the chains of the directory and of its files, which do not meet, and `fs_usage` reports
all others as free. -/
theorem no_cluster_lost {start s : Fs} {events : List Event} {live : FileRef → Prop}
    (formatted : Formatted start) (quiet : start.Quiet)
    (run : Run (fun _ => True) True start events s live) :
    ∃ F root chain, F.sb = s.sb ∧ Consistent F s.disk root chain ∧
      (∀ cluster, 1 ≤ cluster → cluster ≤ s.sb.clusterCount →
        (fatAt s.disk cluster ≠ 0 ↔ cluster ∈ root ∨
          ∃ location, Holds F s.disk root location ∧ cluster ∈ chain location)) ∧
      ∃ stats s', fsUsage s = .ok stats s' ∧ stats.totalClusters = s.sb.clusterCount ∧
        stats.freeClusters +
          (root.length + ((F.slots root).map fun location => (chain location).length).sum) =
            s.sb.clusterCount := by
  rcases Exact.run formatted quiet run with ⟨F, own, exact⟩
  have inv := exact.ready.between.inv
  have image : s.image = s.disk := Fs.image_of_clean (exact.ready.clean exact.quiet)
  have volume := inv.volume
  rw [image] at volume
  have consistent := volume.consistent
  refine ⟨F, own .root, fun location => own (.slot location), inv.sb.symm, consistent, ?_, ?_⟩
  · intro cluster positive inRange
    rw [inv.sb] at inRange
    have taken := exact.ready.taken_iff exact.quiet positive inRange
    rw [image] at taken
    rw [taken]
    unfold takenClusters
    rw [List.mem_append, List.mem_flatMap]
    refine or_congr_right ⟨?_, ?_⟩
    · rintro ⟨location, _, member⟩
      refine ⟨location, ?_, member⟩
      by_contra vacant
      rw [volume.directory.vacant location vacant] at member
      cases member
    · rintro ⟨location, held, member⟩
      exact ⟨location, (F.mem_slots _ _).mpr held.inDir, member⟩
  · rw [← length_takenClusters]
    exact exact.ready.usage exact.quiet

/-- A run that creates a file on a new filesystem. -/
theorem no_cluster_lost_create :
    ∃ (start s : Fs) (event : Event) (live : FileRef → Prop) (F : Format)
      (root : List Nat) (chain : Location → List Nat),
      Formatted start ∧ start.Quiet ∧ event.call = .create (some ⟨[97], by decide⟩) ∧
      Run (fun _ => True) True start [event] s live ∧ F.sb = s.sb ∧
      Consistent F s.disk root chain := by
  rcases blank_formatted with ⟨start, formatted, quiet, _⟩
  have run := @Run.call (fun _ => True) True start _ _ _ _
    (.create (some ⟨[97], by decide⟩)) _ .start trivial trivial rfl
  rcases no_cluster_lost formatted quiet run with ⟨F, root, chain, isSb, consistent, _⟩
  exact ⟨start, _, _, _, F, root, chain, formatted, quiet, rfl, run, isSb, consistent⟩

end Katela.Filesystem
