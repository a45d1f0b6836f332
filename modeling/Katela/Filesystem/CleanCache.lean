import Katela.Filesystem.Cache

/-! # Functions that leave the cache clean

`fs_read`, `fs_rename`, `fs_iter_next` and `fs_usage` do not write the cache
back at their end. They change no entry of the FAT, so a clean cache stays
clean. -/

namespace Katela.Filesystem

def Fs.Clean (s : Fs) : Prop := s.fatDirty = false

theorem blockRead_clean (sector : Nat) : Keeps Fs.Clean (blockRead sector) := by
  intro s clean
  refine (blockRead_spec s sector).mono ?_ ?_
  · rintro _ s' ⟨_, rfl⟩
    exact clean
  · rintro _ s' ⟨_, _, rfl⟩
    exact clean

theorem blockWrite_clean (purpose : Purpose) (sector : Nat) (contents : Sector) :
    Keeps Fs.Clean (blockWrite purpose sector contents) := by
  intro s clean
  refine (blockWrite_spec s purpose sector contents).mono ?_ ?_
  · rintro _ s' rfl
    exact clean
  · rintro _ s' ⟨_, _, rfl⟩
    exact clean

theorem fatFlush_clean : Keeps Fs.Clean fatFlush := by
  intro s clean
  unfold fatFlush
  refine .bind (.get ?_)
  have notDirty : ¬ s.fatDirty = true := by
    rw [show s.fatDirty = false from clean]
    decide
  rw [if_neg notDirty]
  exact .pure clean

theorem fatLoad_clean (sector : Nat) : Keeps Fs.Clean (fatLoad sector) := by
  intro s clean
  unfold fatLoad
  refine .bind (.get (.ite (fun _ => .pure clean) fun _ => ?_))
  refine (fatFlush_clean s clean).seq ?_ fun _ _ still => still
  intro _ s1 clean1
  unfold fatFill
  refine .bind (.attempt ((blockRead_clean sector s1 clean1).mono ?_ ?_))
  · intro contents s2 clean2
    exact .modify clean2
  · intro error s2 clean2
    exact .bind (.modify (.throw clean2))

theorem chainNext_clean (cluster : Nat) : Keeps Fs.Clean (chainNext cluster) :=
  chainNext_keeps fatLoad_clean cluster

theorem blocksRead_clean (count : Nat) :
    ∀ sector, Keeps Fs.Clean (blocksRead sector count) := by
  induction count with
  | zero => exact fun sector => .pure []
  | succ count induction =>
      intro sector
      unfold blocksRead
      refine .bind (.attempt (blockRead_clean sector)) fun first =>
        .bind (.attempt (induction (sector + 1))) fun rest => ?_
      cases first with
      | error => exact .throw _
      | ok => cases rest with
        | error => exact .throw _
        | ok => exact .pure _

theorem fsRename_clean (source target : Option CString) :
    Keeps Fs.Clean (fsRename source target) := by
  have lookup := dirLookup_keeps blockRead_clean fatLoad_clean
  unfold fsRename
  refine .bind requireMounted_keeps fun _ => .bind (nameCheck_keeps source)
    fun source' => .bind (nameCheck_keeps target) fun target' =>
    .bind (lookup target') fun found => .bind .require fun _ =>
    .bind (lookup source') fun res => ?_
  cases res.found with
  | none => exact .throw _
  | some pair =>
      unfold slotStore
      exact .bind fatFlush_clean fun _ => .bind (blockRead_clean _) fun _ =>
        blockWrite_clean _ _ _

theorem reachLoop_clean (steps : Nat) :
    ∀ cluster, Keeps Fs.Clean (reachLoop false steps cluster) := by
  induction steps with
  | zero => exact fun cluster => .pure cluster
  | succ steps induction =>
      intro cluster
      have grow : Keeps Fs.Clean (reachGrow false cluster) := by
        intro s clean
        exact .bind (.require (fun impossible => by cases impossible)
          fun _ => clean)
      unfold reachLoop
      refine .bind (chainNext_clean cluster) fun next => ?_
      exact .ite (.bind grow fun _ => induction _)
        (.bind (.pure next) fun _ => induction _)

theorem fileReach_clean (file : FileRef) (index : Nat) :
    Keeps Fs.Clean (fileReach file index false) := by
  have first : Keeps Fs.Clean (reachFirst file false) := by
    intro s clean
    unfold reachFirst
    refine .bind (.get (.ite (fun _ => ?_) fun _ => .pure clean))
    exact .bind (.require (fun impossible => by cases impossible) fun _ => clean)
  unfold fileReach
  refine .bind first fun _ => .bind .get fun s => ?_
  refine .bind (reachLoop_clean _ _) fun cluster => ?_
  intro s clean
  exact .modify clean

theorem readLoop_clean (file : FileRef) (offset count rounds : Nat) :
    ∀ out, Keeps Fs.Clean (readLoop file offset count rounds out) := by
  induction rounds with
  | zero => exact fun out => .pure out
  | succ rounds induction =>
      intro out
      have round : ∀ position remaining,
          Keeps Fs.Clean (readRound file position remaining) := by
        intro position remaining
        unfold readRound
        refine .bind .get fun s => .bind (fileReach_clean file _) fun _ =>
          .bind .get fun s' => .ite ?_ ?_
        · exact .bind (blocksRead_clean _ _) fun blocks => .pure _
        · exact .bind (blockRead_clean _) fun block => .pure _
      unfold readLoop
      refine .ite (.bind (.attempt (round _ _)) fun result => ?_) (.pure _)
      cases result with
      | ok bytes => exact induction _
      | error error => exact .ite (.pure _) (.throw _)

theorem fsRead_clean (file : FileRef) (offset count : Nat) :
    Keeps Fs.Clean (fsRead file offset count) := by
  unfold fsRead
  refine .bind requireMounted_keeps fun _ => .bind .get fun s => ?_
  exact .ite (.pure _) (readLoop_clean file _ _ _ _)

end Katela.Filesystem
