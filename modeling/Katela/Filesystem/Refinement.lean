import Katela.Filesystem.HandleCalls
import Katela.Filesystem.Mounting

/-! # The filesystem is a map

Every run of calls on files, from a disk that was just formatted, is a run of
the abstract filesystem with the same results. -/

namespace Katela.Filesystem

/-- The calls that create, change and read files. -/
def Call.OnFiles : Call → Prop
  | .create _ => True
  | .remove _ => True
  | .rename _ _ => True
  | .open _ _ _ => True
  | .read _ _ _ => True
  | .write _ _ _ _ => True
  | .truncate _ _ => True
  | .readAll _ => True
  | .writeAll _ _ _ => True
  | _ => False

section Runs

variable {F : Format} {lasting : Prop} {live : FileRef → Prop} {s s' : Fs}
variable {own : Ownership}

theorem perform_answers (ready : Ready F live s own) (notLive : ¬ live .stack)
    {call : Call} (onFiles : call.OnFiles) (usable : call.Usable live) :
    Answers F lasting live s own call (perform call s).1 (perform call s).2 := by
  cases call with
  | create name => exact create_answers ready name
  | remove name => exact remove_answers ready name
  | rename source target => exact rename_answers ready source target
  | «open» name file creates => exact open_answers ready name file creates
  | read file offset count => exact read_answers offset count ready usable
  | write file offset buffer count =>
      exact write_answers offset buffer count ready usable
  | truncate file size => exact truncate_answers size ready usable
  | readAll name => exact readAll_answers ready notLive name
  | writeAll name buffer size => exact writeAll_answers ready notLive name buffer size
  | init => exact onFiles.elim
  | format => exact onFiles.elim
  | iterBegin => exact onFiles.elim
  | iterNext => exact onFiles.elim
  | usage => exact onFiles.elim

/-- The local handle of `fs_read_all` and `fs_write_all` is live in no call of a
user. -/
theorem Call.not_liveAfter_stack (call : Call) {result : Except FsError Reply}
    (notLive : ¬ live .stack) : ¬ call.liveAfter lasting s result s' live .stack := by
  intro isLive
  cases call with
  | init => exact notLive isLive.1
  | format => exact isLive
  | remove name => exact notLive isLive.1
  | readAll name => exact notLive isLive.1
  | writeAll name buffer size => exact notLive isLive.1
  | «open» name file creates =>
      cases result with
      | error error => exact notLive isLive.1
      | ok reply =>
          rcases isLive with impossible | isLive
          · cases impossible
          · exact notLive isLive.1
  | _ => exact notLive isLive

/-- Without failing transfers the disk is full when the filesystem sees no free
cluster. -/
theorem Ready.full_iff (ready : Ready F live s own) (quiet : s.Quiet) :
    Full F s.image ↔ NoSpace s := by
  unfold Full NoSpace
  rw [Fs.image_of_clean (ready.clean quiet), ready.between.inv.sb]

/-- What holds along a run without failing transfers. -/
structure Refines (F : Format) (live : FileRef → Prop) (s : Fs) (own : Ownership)
    (session : Session) : Prop where
  ready : Ready F live s own
  quiet : s.Quiet
  shown : Shows F live s own session
  notLive : ¬ live .stack

theorem Refines.step {session : Session} {call : Call} {result : Except FsError Reply}
    (refines : Refines F live s own session) (onFiles : call.OnFiles)
    (usable : call.Usable live) (performed : perform call s = (result, s')) :
    ∃ own' session',
      Refines F (call.liveAfter lasting s result s' live) s' own' session' ∧
      MapStep (NoSpace s') session call result session' := by
  have answers : Answers F lasting live s own call _ _ :=
    perform_answers refines.ready refines.notLive onFiles usable
  rw [performed] at answers
  rcases answers with ⟨own', same, ready', step⟩
  rcases step session refines.quiet refines.shown with ⟨session', shown', mapStep⟩
  have quiet' := same.quiet refines.quiet
  refine ⟨own', session', ⟨ready', quiet', shown', call.not_liveAfter_stack
    refines.notLive⟩, ?_⟩
  rw [show NoSpace s' = Full F s'.image from propext (ready'.full_iff quiet').symm]
  exact mapStep

/-- Every run keeps the filesystem and the abstract one together. -/
theorem Refines.run {start : Fs} {events : List Event} (formatted : Formatted start)
    (quiet : start.Quiet) (run : Run Call.OnFiles lasting start events s live) :
    ∃ F own session, Refines F live s own session ∧ MapRun events session := by
  induction run with
  | start =>
      rcases formatted.ready with ⟨F, _, _, _, ready, shown⟩
      exact ⟨F, freshOwn, .empty, ⟨ready, quiet, shown, id⟩, .start⟩
  | call before onFiles usable performed induction =>
      rcases induction with ⟨F, own, session, refines, mapRun⟩
      rcases refines.step onFiles usable performed with ⟨own', session', refines', step⟩
      exact ⟨F, own', session', refines', .call mapRun step⟩

/-- Every run of calls on files has the results of a run of the abstract filesystem,
whose handles are the live ones. -/
theorem filesystem_refines {start : Fs} {events : List Event}
    (formatted : Formatted start) (quiet : start.Quiet)
    (run : Run Call.OnFiles lasting start events s live) :
    ∃ session, MapRun events session ∧
      ∀ file, live file ↔ session.handles file ≠ none := by
  rcases Refines.run formatted quiet run with ⟨F, own, session, refines, mapRun⟩
  refine ⟨session, mapRun, fun file => ?_⟩
  constructor
  · intro isLive
    rw [refines.shown.handles, handleNames_of_live isLive]
    exact Option.some_ne_none _
  · intro isSome
    by_contra notLive
    exact isSome (refines.shown.handles_eq_none notLive)

/-- A run that creates a file on a new filesystem. -/
theorem filesystem_refines_create :
    ∃ (start s : Fs) (event : Event) (live : FileRef → Prop) (session : Session),
      Formatted start ∧ start.Quiet ∧ event.call = .create (some ⟨[97], by decide⟩) ∧
      Run Call.OnFiles False start [event] s live ∧ MapRun [event] session := by
  rcases blank_formatted with ⟨start, formatted, quiet, _⟩
  have run := @Run.call Call.OnFiles False start _ _ _ _
    (.create (some ⟨[97], by decide⟩)) _ .start trivial trivial rfl
  rcases filesystem_refines formatted quiet run with ⟨session, mapRun, _⟩
  exact ⟨start, _, _, _, session, formatted, quiet, rfl, run, mapRun⟩

end Runs

end Katela.Filesystem
