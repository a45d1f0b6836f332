import Katela.Filesystem.PublicCalls

/-! # Calls on open files

`fs_read`, `fs_write` and `fs_truncate` on a live handle, and `fs_read_all`
and `fs_write_all`, which are loops of them on a handle of their own. -/

namespace Katela.Filesystem

section Handles

variable {F : Format} {lasting : Prop} {live live' : FileRef → Prop} {s s' s'' : Fs}
variable {own own' own'' : Ownership} {session : Session} {file : FileRef}

/-! ## One call on one handle -/

/-- A call on one open file that left the filesystem ready. -/
structure Handled (F : Format) (live : FileRef → Prop) (file : FileRef)
    (s s' : Fs) (own own' : Ownership) : Prop where
  advanced : Advanced F live file s s' own own'
  clean : s'.Quiet → s'.fatDirty = false

theorem Handled.ready (ready : Ready F live s own)
    (handled : Handled F live file s s' own own') : Ready F live s' own' :=
  ready.unfinished handled.advanced.between handled.advanced.same handled.clean

theorem Advanced.unmoved (advanced : Advanced F live file s s' own own')
    (moved : Moved s' s'' s'.image) : Advanced F live file s s'' own own' where
  between := advanced.between.unmoved moved
  same := advanced.same.trans moved.same
  iters := moved.iters.trans advanced.iters
  files other different := by
    rw [moved.files]
    exact advanced.files other different
  location := by
    rw [moved.files]
    exact advanced.location
  name := by
    rw [moved.image_eq]
    exact advanced.name
  root := advanced.root
  kept := by
    rw [moved.image_eq]
    exact advanced.kept

theorem Agrees.congr (agrees : Agrees s file) (image : s'.image = s.image)
    (files : s'.files = s.files) : Agrees s' file := by
  constructor
  · rw [image, files]
    exact agrees.first
  · rw [image, files]
    exact agrees.size

theorem chainOf_congr (own : Ownership) (file : FileRef)
    (image : s'.image = s.image) (files : s'.files = s.files) :
    chainOf s' own file = chainOf s own file := by
  unfold chainOf
  rw [image, files]

theorem openBytes_congr (own : Ownership) (file : FileRef)
    (image : s'.image = s.image) (files : s'.files = s.files) :
    openBytes F s' own file = openBytes F s own file := by
  unfold openBytes
  rw [chainOf_congr own file image files, image, files]

theorem Written.unmoved {offset done : Nat} {source : Nat → UInt8}
    (written : Written F live file s s' own own' offset done source)
    (moved : Moved s' s'' s'.image) :
    Written F live file s s'' own own' offset done source where
  advanced := written.advanced.unmoved moved
  size := by
    rw [moved.files]
    exact written.size
  settled := by
    rw [moved.files, moved.image_eq]
    exact written.settled.imp_left fun agrees =>
      agrees.congr moved.image_eq moved.files
  wrote quiet := by
    have wrote := written.wrote quiet
    have chain := chainOf_congr own' file moved.image_eq moved.files
    refine ⟨?_, ?_, ?_, ?_⟩
    · rw [chain]
      exact wrote.inside
    · rw [chain, moved.image_eq]
      exact wrote.new
    · rw [chain, moved.image_eq]
      exact wrote.old
    · rw [chain]
      exact wrote.length

theorem Truncated.unmoved {target : Nat}
    (truncated : Truncated F live file s s' own own' target)
    (moved : Moved s' s'' s'.image) :
    Truncated F live file s s'' own own' target where
  advanced := truncated.advanced.unmoved moved
  size := by
    rw [moved.files]
    exact truncated.size
  shorter := truncated.shorter
  settled := by
    rw [moved.files, moved.image_eq]
    exact truncated.settled.imp_left fun agrees =>
      agrees.congr moved.image_eq moved.files
  bytes := by
    rw [chainOf_congr own' file moved.image_eq moved.files, moved.image_eq]
    exact truncated.bytes
  length := by
    rw [chainOf_congr own' file moved.image_eq moved.files]
    exact truncated.length

/-- A call on one open file whose cache was written back. -/
theorem Advanced.handled (advanced : Advanced F live file s s' own own')
    (moved : Moved s' s'' s'.image) (clean : s'.Quiet → s''.fatDirty = false) :
    Handled F live file s s'' own own' :=
  ⟨advanced.unmoved moved, fun quiet => clean (moved.same.quiet_before quiet)⟩

theorem length_openBytes (F : Format) (s : Fs) (own : Ownership)
    (file : FileRef) : (openBytes F s own file).length = (s.files file).size :=
  Format.length_fileBytes _ _ _

/-- The file has no more clusters than its size needs. -/
def Tight (F : Format) (s : Fs) (own : Ownership) (file : FileRef) : Prop :=
  (chainOf s own file).length ≤ F.keeps (s.files file).size

theorem Tight.congr (tight : Tight F s own file) (image : s'.image = s.image)
    (files : s'.files = s.files) : Tight F s' own file := by
  unfold Tight
  rw [chainOf_congr own file image files, files]
  exact tight

theorem Written.tight {offset done : Nat} {source : Nat → UInt8}
    (written : Written F live file s s' own own' offset done source) (quiet : s.Quiet)
    (tight : Tight F s own file) : Tight F s' own' file := by
  have length := (written.wrote quiet).length
  have more := F.keeps_mono (Nat.le_max_left (s.files file).size (offset + done))
  have most := F.keeps_mono (Nat.le_max_right (s.files file).size (offset + done))
  unfold Tight at *
  rw [written.size]
  omega

theorem Truncated.tight {target : Nat}
    (truncated : Truncated F live file s s' own own' target)
    (tight : Tight F s own file) : Tight F s' own' file := by
  unfold Tight at *
  rw [truncated.size]
  rcases truncated.length with short | ⟨same, chain⟩
  · exact short
  · rw [chain, same]
    exact tight

theorem Exhausted.congr {position : Nat} (exhausted : Exhausted F s own file position)
    (image : s'.image = s.image) (files : s'.files = s.files) :
    Exhausted F s' own file position := by
  constructor
  · rw [image]
    exact exhausted.full
  · rw [chainOf_congr own file image files]
    exact exhausted.reached

theorem fsRead_handled {offset count : Nat} (ready : Ready F live s own)
    (isLive : live file) :
    Meets (fsRead file offset count) s
      (fun bytes s' => ∃ own', Handled F live file s s' own own' ∧
        openBytes F s' own' file = openBytes F s own file ∧
        ∃ length, length ≤ min (min count maxIo) ((s.files file).size - offset) ∧
          (s.Quiet → length =
            min (min count maxIo) ((s.files file).size - offset)) ∧
          bytes = ((openBytes F s own file).drop offset).take length)
      fun _ s' => ¬ s.Quiet ∧ ∃ own', Handled F live file s s' own own' := by
  refine (ready.withClean (fsRead_spec ready.between.inv ready.between.spare isLive)
    (fsRead_clean file offset count)).mono ?_ ?_
  · rintro bytes s1 ⟨⟨⟨own1, visited⟩, read⟩, clean⟩
    rcases visited.advanced ready.between isLive with ⟨advanced, same⟩
    exact ⟨own1, ⟨advanced, fun quiet =>
      clean (advanced.same.quiet_before quiet)⟩, same, read⟩
  · rintro error s1 ⟨⟨_, loud, own1, visited⟩, clean⟩
    rcases visited.advanced ready.between isLive with ⟨advanced, _⟩
    exact ⟨loud, own1, advanced, fun quiet =>
      clean (advanced.same.quiet_before quiet)⟩

theorem fsWrite_handled {offset count : Nat} {source : Nat → UInt8}
    (ready : Ready F live s own) (isLive : live file) :
    Meets (fsWrite file offset source count) s
      (fun stored s' => s'.fatDirty = false ∧ ∃ own',
        Handled F live file s s' own own' ∧
        Written F live file s s' own own' offset stored source ∧
        offset ≤ (s.files file).size ∧ stored ≤ writeLimit offset count ∧
        (0 < writeLimit offset count → 0 < stored) ∧
        pieceLength s offset (writeLimit offset count) ≤ stored ∧
        (s.Quiet → stored = writeLimit offset count ∨
          Exhausted F s' own' file (offset + stored)))
      fun error s' => ∃ own', Handled F live file s s' own own' ∧
        (s.Quiet → openBytes F s' own' file = openBytes F s own file ∧
          (error = .inval ∧ (s.files file).size < offset ∨
            error = .nospc ∧ 0 < writeLimit offset count ∧
              offset ≤ (s.files file).size ∧ Exhausted F s' own' file offset) ∧
          (Tight F s own file → Tight F s' own' file)) := by
  refine (finish_spec (writeImpl_spec ready.between isLive) ?_ ?_).mono ?_ ?_
  · rintro stored s1 ⟨own1, written, _⟩
    exact written.advanced.between.safe
  · rintro error s1 ⟨own1, failed⟩
    exact failed.advanced.between.safe
  · rintro stored s2 ⟨s1, ⟨own1, written, start, most, some, piece, all⟩, moved, clean⟩
    refine ⟨clean, own1, written.advanced.handled moved fun _ => clean,
      written.unmoved moved, start, most, some, piece, fun quiet => ?_⟩
    exact (all quiet).imp_right fun exhausted =>
      exhausted.congr moved.image_eq moved.files
  · rintro error s2 (⟨s1, ⟨own1, failed⟩, moved, clean⟩ | ⟨rfl, stored, s1,
      ⟨own1, written, _⟩, loud, moved⟩)
    · refine ⟨own1, failed.advanced.handled moved clean, fun quiet => ?_⟩
      rw [openBytes_congr own1 file moved.image_eq moved.files]
      rcases failed.why quiet with ⟨isError, beyond, rfl, rfl⟩ | ⟨isError, some,
        start, exhausted, written⟩
      · refine ⟨rfl, Or.inl ⟨isError, beyond⟩, fun tight => ?_⟩
        exact tight.congr moved.image_eq moved.files
      · refine ⟨?_, Or.inr ⟨isError, some, start, exhausted.congr moved.image_eq
          moved.files⟩, fun tight => ?_⟩
        · rw [written.openBytes_eq ready.between isLive quiet start]
          simp [bufferBytes, overwrite]
        · exact (written.tight quiet tight).congr moved.image_eq moved.files
    · refine ⟨own1, written.advanced.handled moved fun quiet => absurd quiet loud,
        fun quiet => ?_⟩
      exact absurd (written.advanced.same.quiet quiet) loud

theorem fsTruncate_handled {target : Nat} (ready : Ready F live s own)
    (isLive : live file) :
    Meets (fsTruncate file target) s
      (fun _ s' => s'.fatDirty = false ∧ ∃ own',
        Handled F live file s s' own own' ∧
        Truncated F live file s s' own own' target)
      fun error s' => ∃ own', Handled F live file s s' own own' ∧
        (s.Quiet → openBytes F s' own' file = openBytes F s own file ∧
          error = .inval ∧ (s.files file).size < target) := by
  refine (finish_spec (truncateImpl_spec ready.between isLive) ?_ ?_).mono ?_ ?_
  · rintro _ s1 ⟨own1, truncated⟩
    exact truncated.advanced.between.safe
  · rintro error s1 ⟨own1, failed⟩
    exact failed.advanced.between.safe
  · rintro _ s2 ⟨s1, ⟨own1, truncated⟩, moved, clean⟩
    exact ⟨clean, own1, truncated.advanced.handled moved fun _ => clean,
      truncated.unmoved moved⟩
  · rintro error s2 (⟨s1, ⟨own1, failed⟩, moved, clean⟩ | ⟨rfl, _, s1,
      ⟨own1, truncated⟩, loud, moved⟩)
    · refine ⟨own1, failed.advanced.handled moved clean, fun quiet => ?_⟩
      rcases failed.why quiet with ⟨isError, beyond, rfl, rfl⟩
      exact ⟨openBytes_congr _ file moved.image_eq moved.files, isError, beyond⟩
    · refine ⟨own1, truncated.advanced.handled moved fun quiet =>
        absurd quiet loud, fun quiet => ?_⟩
      exact absurd (truncated.advanced.same.quiet quiet) loud

/-- The bytes that a truncated file keeps. -/
theorem Truncated.openBytes_eq {target : Nat}
    (truncated : Truncated F live file s s' own own' target) :
    openBytes F s' own' file = (openBytes F s own file).take target := by
  unfold openBytes
  rw [truncated.size, truncated.bytes, F.take_fileBytes _ _ truncated.shorter]

/-! ## The calls of a run -/

/-- A call that left the file of its handle as it was. -/
theorem Handled.shows_same (handled : Handled F live file s s' own own')
    (ready : Ready F live s own) (quiet : s.Quiet) (isLive : live file)
    (shows' : Shows F live s own session)
    (same : openBytes F s' own' file = openBytes F s own file) :
    Shows F live s' own' session := by
  have named := shows'.named ready.between quiet isLive
  have after := handled.advanced.shows_put ready.between quiet isLive shows'
    named.isValid rfl
  rw [same, Session.put_same named.isValid named.present] at after
  exact after

theorem read_answers {file : Nat} (offset count : UInt32)
    (ready : Ready F live s own) (isLive : live (.caller file)) :
    Answers F lasting live s own (.read file offset count)
      (perform (.read file offset count) s).1
      (perform (.read file offset count) s).2 := by
  refine perform_of_meets rfl ((fsRead_handled ready isLive).mono ?_ ?_)
  · rintro bytes s1 ⟨own1, handled, same, length, _, whole, rfl⟩
    refine ⟨own1, handled.advanced.same, handled.ready ready,
      fun session quiet shows' => ?_⟩
    refine ⟨session, handled.shows_same ready quiet isLive shows' same, ?_⟩
    have named := shows'.named ready.between quiet isLive
    have equal : ((openBytes F s own (.caller file)).drop offset.toNat).take length =
        ((openBytes F s own (.caller file)).drop offset.toNat).take
          (min count.toNat maxIo) := by
      rw [whole quiet, List.take_eq_take_iff, List.length_drop, length_openBytes]
      omega
    rw [equal]
    exact .read named.opened named.present
  · rintro error s1 ⟨loud, own1, handled⟩
    exact ⟨own1, handled.advanced.same, handled.ready ready,
      fun _ quiet => absurd quiet loud⟩

theorem write_answers {file : Nat} (offset : UInt32) (buffer : Nat → UInt8)
    (count : UInt32) (ready : Ready F live s own) (isLive : live (.caller file)) :
    Answers F lasting live s own (.write file offset buffer count)
      (perform (.write file offset buffer count) s).1
      (perform (.write file offset buffer count) s).2 := by
  refine perform_of_meets rfl ((fsWrite_handled ready isLive).mono ?_ ?_)
  · rintro stored s1 ⟨_, own1, handled, written, start, most, some, _, all⟩
    refine ⟨own1, handled.advanced.same, handled.ready ready,
      fun session quiet shows' => ?_⟩
    have named := shows'.named ready.between quiet isLive
    refine ⟨_, handled.advanced.shows_put ready.between quiet isLive shows'
      named.isValid rfl, ?_⟩
    rw [written.openBytes_eq ready.between isLive quiet start]
    refine .write named.isValid named.opened named.present ?_ some most
      ((all quiet).imp_right Exhausted.full)
    rw [length_openBytes]
    exact start
  · rintro error s1 ⟨own1, handled, why⟩
    refine ⟨own1, handled.advanced.same, handled.ready ready,
      fun session quiet shows' => ?_⟩
    have named := shows'.named ready.between quiet isLive
    rcases why quiet with ⟨same, why, _⟩
    refine ⟨session, handled.shows_same ready quiet isLive shows' same, ?_⟩
    rcases why with ⟨rfl, beyond⟩ | ⟨rfl, some, start, exhausted⟩
    · refine .writeBeyond named.opened named.present ?_
      rw [length_openBytes]
      exact beyond
    · refine .writeFull named.opened named.present ?_ some exhausted.full
      rw [length_openBytes]
      exact start

theorem truncate_answers {file : Nat} (size : UInt32)
    (ready : Ready F live s own) (isLive : live (.caller file)) :
    Answers F lasting live s own (.truncate file size)
      (perform (.truncate file size) s).1
      (perform (.truncate file size) s).2 := by
  refine perform_of_meets rfl ((fsTruncate_handled ready isLive).mono ?_ ?_)
  · rintro _ s1 ⟨_, own1, handled, truncated⟩
    refine ⟨own1, handled.advanced.same, handled.ready ready,
      fun session quiet shows' => ?_⟩
    have named := shows'.named ready.between quiet isLive
    refine ⟨_, handled.advanced.shows_put ready.between quiet isLive shows'
      named.isValid rfl, ?_⟩
    rw [truncated.openBytes_eq]
    refine .truncate named.isValid named.opened named.present ?_
    rw [length_openBytes]
    exact truncated.shorter
  · rintro error s1 ⟨own1, handled, why⟩
    refine ⟨own1, handled.advanced.same, handled.ready ready,
      fun session quiet shows' => ?_⟩
    have named := shows'.named ready.between quiet isLive
    rcases why quiet with ⟨same, rfl, beyond⟩
    refine ⟨session, handled.shows_same ready quiet isLive shows' same, ?_⟩
    refine .truncateBeyond named.opened named.present ?_
    rw [length_openBytes]
    exact beyond

/-! ## Whole files -/

theorem Advanced.trans (first : Advanced F live file s s' own own')
    (second : Advanced F live file s' s'' own' own'') :
    Advanced F live file s s'' own own'' where
  between := second.between
  same := first.same.trans second.same
  iters := second.iters.trans first.iters
  files other different :=
    (second.files other different).trans (first.files other different)
  location := second.location.trans first.location
  name := by
    have name := second.name
    rw [first.location] at name
    exact name.trans first.name
  root := second.root.trans first.root
  kept other different := (first.kept other different).trans
    (second.kept other (by rw [first.location]; exact different))

theorem Handled.refl (ready : Ready F live s own) (isLive : live file) :
    Handled F live file s s own own :=
  ⟨((Visited.refl ready.between.inv file).advanced ready.between isLive).1,
    ready.clean⟩

theorem Handled.trans (first : Handled F live file s s' own own')
    (second : Handled F live file s' s'' own' own'') :
    Handled F live file s s'' own own'' :=
  ⟨first.advanced.trans second.advanced, second.clean⟩

/-- The handles that `fs_read_all` and `fs_write_all` leave live. -/
def otherNames (live : FileRef → Prop) (s : Fs) (name : Option CString)
    (file : FileRef) : Prop :=
  live file ∧ name ≠ some (storedName (slotOf s file))

theorem Opened.otherNames_iff {name : CString} {location : Location}
    {create : Bool} (ready : Ready F live s own) (notLive : ¬ live .stack)
    (opened : Opened F live s s' own own' name .stack location create)
    (handled : Handled F (openedLive live s .stack location) .stack s' s'' own'
      own'') (file : FileRef) :
    otherNames live s (some name) file ↔ openedLive live s .stack location file ∧
      storedName (entryOf s''.image (s''.files file).location) ≠ name := by
  have advanced := handled.advanced
  by_cases isStack : file = .stack
  · subst isStack
    have mine : storedName (entryOf s''.image (s''.files .stack).location) =
        name := by
      have sameName := advanced.name
      rw [opened.place] at sameName
      rw [advanced.location, opened.place, ← opened.named]
      simp only [storedName, sameName]
    exact ⟨fun other => absurd other.1 notLive, fun both => absurd mine both.2⟩
  · have files : s''.files file = s.files file :=
      (advanced.files file isStack).trans (opened.files file isStack)
    have same : ∀ isLive : live file, (s.files file).location ≠ location →
        storedName (entryOf s''.image (s''.files file).location) =
          storedName (slotOf s file) := by
      intro isLive different
      have held := (ready.between.inv.handles.opened file isLive).holds
      have isLive' : openedLive live s .stack location file :=
        Or.inr ⟨isLive, isStack, different⟩
      have held' := (opened.between.inv.handles.opened file isLive').holds
      rw [opened.files file isStack] at held'
      rw [files, (advanced.kept _ (by rw [opened.place]; exact different)).entry
        held', opened.kept _ different held, ready.between.inv.slotOf_eq isLive]
    constructor
    · rintro ⟨isLive, other⟩
      have held := (ready.between.inv.handles.opened file isLive).holds
      have different : (s.files file).location ≠ location := by
        intro equal
        apply other
        rw [ready.between.inv.slotOf_eq isLive, equal]
        rw [equal] at held
        rw [opened.before held]
      refine ⟨Or.inr ⟨isLive, isStack, different⟩, ?_⟩
      rw [same isLive different]
      exact fun equal => other (by rw [equal])
    · rintro ⟨isStack' | ⟨isLive, _, different⟩, other⟩
      · exact absurd isStack' isStack
      · rw [same isLive different] at other
        exact ⟨isLive, fun equal => other (Option.some.inj equal).symm⟩

/-- The local handle of a function goes out of scope, and no handle of the file
is used after it. -/
theorem Opened.closed {name : CString} {location : Location} {create : Bool}
    (ready : Ready F live s own) (notLive : ¬ live .stack)
    (opened : Opened F live s s' own own' name .stack location create)
    (handled : Handled F (openedLive live s .stack location) .stack s' s'' own'
      own'') :
    ∃ own3, Ready F (otherNames live s (some name)) s'' own3 ∧
      ∀ session, Shows F (openedLive live s .stack location) s'' own'' session →
        Shows F (otherNames live s (some name)) s'' own3 (session.detach name) := by
  have sameLive := opened.otherNames_iff ready notLive handled
  rcases handled.advanced.between.restrict
    (fun file other => ((sameLive file).mp other).1) with ⟨own3, closed, between⟩
  exact ⟨own3, ready.unfinished between (opened.same.trans handled.advanced.same)
    handled.clean, fun session shows' => shows'.detach closed sameLive⟩

/-- A function that could not open its local handle. -/
theorem OpenFailed.answers {name : Option CString} {create : Bool} {call : Call}
    {error : FsError} (ready : Ready F live s own) (notLive : ¬ live .stack)
    (failed : OpenFailed F live s s' own own' name .stack create error)
    (after : call.liveAfter lasting s (.error error) s' live =
      otherNames live s name)
    (step : ∀ session, Shows F live s own session →
      NameError name (OpenError F s.image own create) error →
      s'.image = s.image → MapStep (Full F s'.image) session call (.error error) session) :
    Answers F lasting live s own call (.error error) s' := by
  have less : ∀ file, otherNames live s name file →
      live file ∧ s'.files file = s.files file := by
    rintro file ⟨isLive, _⟩
    refine ⟨isLive, failed.files file ?_⟩
    rintro rfl
    exact notLive isLive
  rcases failed.between.restrict less with ⟨own1, closed, between⟩
  rw [Answers, after]
  refine ⟨own1, failed.same, ready.unfinished between failed.same fun quiet =>
    failed.clean (failed.same.quiet_before quiet), ?_⟩
  intro session quiet shows'
  rcases failed.why quiet with ⟨why, image, files, rfl⟩
  have sameLive : ∀ file, otherNames live s name file ↔ live file := by
    refine fun file => ⟨fun other => other.1, fun isLive => ⟨isLive, ?_⟩⟩
    have held := (ready.between.inv.handles.opened file isLive).holds
    rw [ready.between.inv.slotOf_eq isLive]
    rintro rfl
    rcases why with ⟨_, bad⟩ | ⟨given, isGiven, _, absent, _⟩
    · have valid := ready.between.inv.directory.valid _ held
      rw [bad _ rfl] at valid
      cases valid
    · exact absent ⟨_, held, Option.some.inj isGiven⟩
  refine ⟨session, ?_, step session shows' why image⟩
  have still := shows'.congr image files
  refine (Shows.live_congr ⟨?_, still.handles⟩ sameLive)
  rw [closed.contentsOf_eq]
  exact still.contents

/-- The loop of `fs_read_all`. Every round delivers at least one byte. -/
theorem readAllLoop_spec {size : Nat} (rounds : Nat) :
    ∀ {s : Fs} {own : Ownership} (out : List UInt8), Ready F live s own →
      live .stack → (s.files .stack).size = size → out.length ≤ size →
      size - out.length ≤ rounds →
      out = (openBytes F s own .stack).take out.length →
      Meets (readAllLoop size rounds out) s
        (fun bytes s' => ∃ own', Handled F live .stack s s' own own' ∧
          openBytes F s' own' .stack = openBytes F s own .stack ∧
          bytes = openBytes F s own .stack)
        fun _ s' => ¬ s.Quiet ∧ ∃ own', Handled F live .stack s s' own own' := by
  have complete : ∀ {s : Fs} {own : Ownership} {out : List UInt8},
      (s.files .stack).size = size → out.length = size →
      out = (openBytes F s own .stack).take out.length →
      out = openBytes F s own .stack := by
    intro s own out isSize full part
    rw [full, ← isSize, ← length_openBytes F s own .stack, List.take_length] at part
    exact part
  induction rounds with
  | zero =>
      intro s own out ready isLive isSize most rest part
      exact .pure ⟨own, .refl ready isLive, rfl, complete isSize (by omega) part⟩
  | succ rounds induction =>
      intro s own out ready isLive isSize most rest part
      unfold readAllLoop
      refine .ite (fun less => ?_) fun full =>
        .pure ⟨own, .refl ready isLive, rfl, complete isSize (by omega) part⟩
      refine (fsRead_handled ready isLive).seq ?_ fun _ _ failed => failed
      rintro bytes s1 ⟨own1, handled, same, length, atMost, whole, rfl⟩
      have length_eq := length_openBytes F s own .stack
      have taken : (((openBytes F s own .stack).drop out.length).take length).length
          = length := by
        rw [List.length_take, List.length_drop, length_eq]
        omega
      refine .bind (.require (fun some => ?_) fun none => ?_)
      · have positive : 0 < length := by
          rw [← taken]
          exact List.length_pos_of_ne_nil some
        have isSize1 : (s1.files .stack).size = size := by
          rw [← length_openBytes F s1 own1, same, length_eq, isSize]
        have longer : (out ++ ((openBytes F s own .stack).drop out.length).take
            length).length = out.length + length := by
          rw [List.length_append, taken]
        refine (induction _ (handled.ready ready) isLive isSize1 (by omega)
          (by omega) ?_).mono ?_ ?_
        · rw [longer, same, List.take_add, ← part]
        · rintro bytes s2 ⟨own2, handled2, same2, isBytes⟩
          exact ⟨own2, handled.trans handled2, same2.trans same,
            isBytes.trans same⟩
        · rintro error s2 ⟨loud, own2, handled2⟩
          exact ⟨fun quiet => loud (handled.advanced.same.quiet quiet), own2,
            handled.trans handled2⟩
      · refine ⟨fun quiet => none fun empty => ?_, own1, handled⟩
        rw [empty, List.length_nil] at taken
        have := whole quiet
        have big : 0 < maxIo := by decide
        omega

theorem readAll_answers (ready : Ready F live s own) (notLive : ¬ live .stack)
    (name : Option CString) :
    Answers F lasting live s own (.readAll name) (perform (.readAll name) s).1
      (perform (.readAll name) s).2 := by
  refine perform_of_meets rfl ?_
  unfold fsReadAll
  refine (fsOpen_spec ready name .stack false).seq ?_ ?_
  · rintro _ s1 ⟨clean, given, location, own1, rfl, isValid, opened⟩
    have ready1 := ready.unfinished opened.between opened.same fun _ => clean
    have isLive : openedLive live s .stack location .stack := Or.inl rfl
    -- Whatever the function returns, its handle is gone afterwards.
    have close : ∀ {result : Except FsError Reply} {s2 : Fs} {own2 : Ownership},
        Handled F (openedLive live s .stack location) .stack s1 s2 own1 own2 →
        (s1.Quiet → openBytes F s2 own2 .stack = openBytes F s1 own1 .stack) →
        (∀ session, s.Quiet →
          session.map.contents given = some (openBytes F s1 own1 .stack) →
          MapStep (Full F s2.image) session (.readAll (some given)) result
            (session.detach given)) →
        Answers F lasting live s own (.readAll (some given)) result s2 := by
      intro result s2 own2 handled same step
      rcases opened.closed ready notLive handled with ⟨own3, ready3, closed⟩
      refine ⟨own3, opened.same.trans handled.advanced.same, ready3,
        fun session quiet shows' => ?_⟩
      have quiet1 := opened.same.quiet quiet
      rcases opened.session session quiet shows' with ⟨present, after⟩ |
        ⟨impossible, _⟩
      · have named := after.named opened.between quiet1 isLive
        rw [opened.place, opened.named] at named
        have shows2 := closed _ (handled.shows_same ready1 quiet1 isLive after
          (same quiet1))
        rw [Session.detach_attach given (shows'.handles_eq_none notLive)] at shows2
        exact ⟨_, shows2, step session quiet named.present⟩
      · cases impossible
    have size := length_openBytes F s1 own1 .stack
    refine .bind (.get (.bind (.require (fun small => ?_) fun big => ?_)))
    · refine (readAllLoop_spec _ [] ready1 isLive rfl (Nat.zero_le _)
        (Nat.sub_le _ _) rfl).mono ?_ ?_
      · rintro bytes s2 ⟨own2, handled, same, rfl⟩
        refine close handled (fun _ => same) fun session _ present => ?_
        exact .readAll present (by omega)
      · rintro error s2 ⟨loud, own2, handled⟩
        refine close handled (fun quiet => absurd quiet loud) ?_
        exact fun session quiet => absurd (opened.same.quiet quiet) loud
    · refine close (.refl ready1 isLive) (fun _ => rfl) fun session _ present => ?_
      exact .readAllBig present (by omega)
  · rintro error s1 ⟨own1, failed⟩
    refine failed.answers ready notLive rfl fun session shows' why _ => ?_
    rcases why with ⟨rfl, bad⟩ | ⟨given, rfl, _, absent, ⟨rfl, _⟩ |
      ⟨_, impossible, _⟩⟩
    · exact .badName bad
    · exact .readAllAbsent (shows'.absent absent)
    · cases impossible

/-- Bytes that are added at the end of the first part of a buffer. -/
theorem overwrite_bufferBytes (buffer : Nat → UInt8) (written stored : Nat) :
    overwrite (bufferBytes buffer written) written
        (bufferBytes (fun index => buffer (written + index)) stored) =
      bufferBytes buffer (written + stored) := by
  have length : (bufferBytes buffer written).length = written := by
    simp [bufferBytes]
  unfold overwrite
  rw [List.take_of_length_le (by omega), List.drop_of_length_le (by omega),
    List.append_nil]
  simp [bufferBytes, List.range_add, Function.comp_def]

/-- The loop of `fs_write_all`. The file always ends where the next byte is
stored. -/
theorem writeAllLoop_spec {buffer : Nat → UInt8} {size : Nat}
    (bounded : size < wordSize) (rounds : Nat) :
    ∀ {s : Fs} {own : Ownership} (written : Nat), Ready F live s own →
      live .stack → (s.files .stack).size = written → written ≤ size →
      size - written ≤ rounds →
      (s.Quiet → openBytes F s own .stack = bufferBytes buffer written) →
      Meets (writeAllLoop buffer size rounds written) s
        (fun _ s' => ∃ own', Handled F live .stack s s' own own' ∧
          (s.Quiet → openBytes F s' own' .stack = bufferBytes buffer size) ∧
          (s.Quiet → Tight F s own .stack → Tight F s' own' .stack))
        fun error s' => ∃ own', Handled F live .stack s s' own own' ∧
          (s.Quiet → error = .nospc ∧ ∃ stored, stored < size ∧
            Exhausted F s' own' .stack stored ∧
            openBytes F s' own' .stack = bufferBytes buffer stored) ∧
          (s.Quiet → Tight F s own .stack → Tight F s' own' .stack) := by
  induction rounds with
  | zero =>
      intro s own written ready isLive isSize most rest part
      have equal : written = size := by omega
      subst equal
      exact .pure ⟨own, .refl ready isLive, part, fun _ tight => tight⟩
  | succ rounds induction =>
      intro s own written ready isLive isSize most rest part
      unfold writeAllLoop
      refine .ite (fun less => ?_) fun full => ?_
      · have some : 0 < writeLimit written (size - written) := by
          have big : 0 < maxIo := by decide
          have word : wordSize = 0xFFFFFFFF + 1 := rfl
          unfold writeLimit
          omega
        refine (fsWrite_handled ready isLive).seq ?_ ?_
        · rintro stored s1 ⟨_, own1, handled, wrote, start, atMost, progress, _⟩
          have positive := progress some
          refine .bind (.require (fun _ => ?_) fun none => absurd
            (Nat.pos_iff_ne_zero.mp positive) none)
          have isSize1 : (s1.files .stack).size = written + stored := by
            rw [wrote.size, isSize]
            omega
          have most1 : written + stored ≤ size := by
            unfold writeLimit at atMost
            omega
          have part1 : s1.Quiet → openBytes F s1 own1 .stack =
              bufferBytes buffer (written + stored) := by
            intro quiet1
            have quiet := handled.advanced.same.quiet_before quiet1
            rw [wrote.openBytes_eq ready.between isLive quiet start, part quiet,
              overwrite_bufferBytes]
          refine (induction _ (handled.ready ready) isLive isSize1 most1 (by omega)
            part1).mono ?_ ?_
          · rintro _ s2 ⟨own2, handled2, whole, tight⟩
            refine ⟨own2, handled.trans handled2, fun quiet =>
              whole (handled.advanced.same.quiet quiet), fun quiet before => ?_⟩
            exact tight (handled.advanced.same.quiet quiet) (wrote.tight quiet before)
          · rintro error s2 ⟨own2, handled2, why, tight⟩
            refine ⟨own2, handled.trans handled2, fun quiet =>
              why (handled.advanced.same.quiet quiet), fun quiet before => ?_⟩
            exact tight (handled.advanced.same.quiet quiet) (wrote.tight quiet before)
        · rintro error s1 ⟨own1, handled, why⟩
          refine ⟨own1, handled, fun quiet => ?_, fun quiet => (why quiet).2.2⟩
          rcases why quiet with ⟨same, ⟨_, beyond⟩ | ⟨isError, _, _, exhausted⟩, _⟩
          · omega
          · exact ⟨isError, written, less, exhausted, same.trans (part quiet)⟩
      · have equal : written = size := by omega
        subst equal
        exact .pure ⟨own, .refl ready isLive, part, fun _ tight => tight⟩

theorem writeAll_answers (ready : Ready F live s own) (notLive : ¬ live .stack)
    (name : Option CString) (buffer : Nat → UInt8) (size : UInt32) :
    Answers F lasting live s own (.writeAll name buffer size)
      (perform (.writeAll name buffer size) s).1
      (perform (.writeAll name buffer size) s).2 := by
  refine perform_of_meets rfl ?_
  unfold fsWriteAll
  refine (fsOpen_spec ready name .stack true).seq ?_ ?_
  · rintro _ s1 ⟨clean, given, location, own1, rfl, isValid, opened⟩
    have ready1 := ready.unfinished opened.between opened.same fun _ => clean
    have isLive : openedLive live s .stack location .stack := Or.inl rfl
    have close : ∀ {result : Except FsError Reply} {s2 : Fs} {own2 : Ownership},
        Handled F (openedLive live s .stack location) .stack s1 s2 own1 own2 →
        (∀ session, s.Quiet →
          MapStep (Full F s2.image) session (.writeAll (some given) buffer size)
            result ((session.put given isValid
              (openBytes F s2 own2 .stack)).detach given)) →
        Answers F lasting live s own (.writeAll (some given) buffer size) result
          s2 := by
      intro result s2 own2 handled step
      rcases opened.closed ready notLive handled with ⟨own3, ready3, closed⟩
      refine ⟨own3, opened.same.trans handled.advanced.same, ready3,
        fun session quiet shows' => ?_⟩
      have quiet1 := opened.same.quiet quiet
      have unused : ∀ bytes, (session.put given isValid bytes).handles .stack = none :=
        fun _ => shows'.handles_eq_none notLive
      have named : storedName (entryOf s1.image (s1.files .stack).location) =
          given := by
        rw [opened.place]
        exact opened.named
      rcases opened.session session quiet shows' with ⟨present, after⟩ |
        ⟨_, absent, isValid', after⟩
      · have shows2 := closed _ (handled.advanced.shows_put ready1.between quiet1
          isLive after isValid named)
        rw [Session.put_attach, Session.detach_attach given (unused _)] at shows2
        exact ⟨_, shows2, step session quiet⟩
      · have shows2 := closed _ (handled.advanced.shows_put ready1.between quiet1
          isLive after isValid named)
        rw [Session.put_attach, Session.put_put,
          Session.detach_attach given (unused _)] at shows2
        exact ⟨_, shows2, step session quiet⟩
    refine (fsTruncate_handled ready1 isLive).seq ?_ ?_
    · rintro _ s2 ⟨_, own2, handled, truncated⟩
      have none : openBytes F s2 own2 .stack = bufferBytes buffer 0 :=
        truncated.openBytes_eq
      refine (writeAllLoop_spec (UInt32.toNat_lt size) _ 0 (handled.ready ready1)
        isLive truncated.size (Nat.zero_le _) (Nat.sub_le _ _)
        fun _ => none).mono ?_ ?_
      · rintro _ s3 ⟨own3, handled3, whole, _⟩
        refine close (handled.trans handled3) fun session quiet => ?_
        rw [whole ((opened.same.trans handled.advanced.same).quiet quiet)]
        exact .writeAll isValid
      · rintro error s3 ⟨own3, handled3, why, _⟩
        refine close (handled.trans handled3) fun session quiet => ?_
        rcases why ((opened.same.trans handled.advanced.same).quiet quiet) with
          ⟨rfl, stored, less, exhausted, part⟩
        rw [part]
        exact .writeAllFull isValid less exhausted.full
    · rintro error s2 ⟨own2, handled, why⟩
      refine close handled fun session quiet => ?_
      exact absurd (why (opened.same.quiet quiet)).2.2 (Nat.not_lt_zero _)
  · rintro error s1 ⟨own1, failed⟩
    refine failed.answers ready notLive rfl fun session shows' why image => ?_
    rcases why with ⟨rfl, bad⟩ | ⟨given, rfl, _, absent, ⟨_, impossible⟩ |
      ⟨rfl, _, full, _⟩⟩
    · exact .badName bad
    · cases impossible
    · rw [image]
      exact .writeAllNoEntry (shows'.absent absent) full

end Handles

end Katela.Filesystem
