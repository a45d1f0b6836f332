import Katela.Filesystem.CleanCache
import Katela.Filesystem.Meaning

/-! # The public calls

Every call keeps the filesystem ready for the next one, and without failing
transfers it does what the abstract filesystem does. -/

namespace Katela.Filesystem

/-- The state before and after every call. -/
structure Ready (F : Format) (live : FileRef → Prop) (s : Fs) (own : Ownership) :
    Prop where
  between : Between F live s own
  clean : s.Quiet → s.fatDirty = false
  device : s.diskSectors = s.total

/-- How a call left the filesystem. -/
def Answers (F : Format) (lasting : Prop) (live : FileRef → Prop) (s : Fs)
    (own : Ownership) (call : Call) (result : Except FsError Reply) (s' : Fs) :
    Prop :=
  ∃ own', Same s s' ∧ Ready F (call.liveAfter lasting s result s' live) s' own' ∧
    ∀ session, s.Quiet → Shows F live s own session → ∃ session',
      Shows F (call.liveAfter lasting s result s' live) s' own' session' ∧
      MapStep (Full F s'.image) session call result session'

/-- What holds of the function behind a call holds of the call. -/
theorem perform_of_meets {α : Type} {call : Call} {program : FsM α}
    {reply : α → Reply} {s : Fs} {Holds : Except FsError Reply → Fs → Prop}
    (isRun : call.run = reply <$> program)
    (meets : Meets program s (fun value s' => Holds (.ok (reply value)) s')
      fun error s' => Holds (.error error) s') :
    Holds (perform call s).1 (perform call s).2 := by
  have mapped : call.run s = EStateM.map reply program s := by
    rw [isRun]
    rfl
  unfold Meets at meets
  unfold perform
  rw [mapped, EStateM.map]
  cases outcome : program s with
  | ok value s' =>
      rw [outcome] at meets
      exact meets
  | error error s' =>
      rw [outcome] at meets
      exact meets

section Calls

variable {F : Format} {lasting : Prop} {live live' : FileRef → Prop} {s s' s'' : Fs}
variable {own own' : Ownership} {session : Session}

/-! ## The end of a call -/

theorem finish_spec {α : Type} {call : FsM α} {returned : α → Fs → Prop}
    {failed : FsError → Fs → Prop} (meets : Meets call s returned failed)
    (safe : ∀ value s', returned value s' →
      Geometry s'.sb s'.clusterShift ∧ Coherent s')
    (safeError : ∀ error s', failed error s' →
      Geometry s'.sb s'.clusterShift ∧ Coherent s') :
    Meets (finish call) s
      (fun value s'' => ∃ s', returned value s' ∧ Moved s' s'' s'.image ∧
        s''.fatDirty = false)
      fun error s'' =>
        (∃ s', failed error s' ∧ Moved s' s'' s'.image ∧
          (s'.Quiet → s''.fatDirty = false)) ∨
        error = .io ∧ ∃ value s', returned value s' ∧ ¬ s'.Quiet ∧
          Moved s' s'' s'.image := by
  unfold finish
  refine .bind (.attempt (meets.mono ?_ ?_))
  · intro value s1 ok
    rcases safe value s1 ok with ⟨geometry, coherent⟩
    refine .bind (.attempt ((fatFlush_spec geometry.fatFits coherent).mono ?_ ?_))
    · rintro _ s2 ⟨moved, clean, _, _⟩
      exact .pure ⟨s1, ok, moved, clean⟩
    · rintro error s2 ⟨rfl, loud, moved⟩
      exact .throw (Or.inr ⟨rfl, value, s1, ok, loud, moved⟩)
  · intro error s1 bad
    rcases safeError error s1 bad with ⟨geometry, coherent⟩
    refine .bind (.attempt ((fatFlush_spec geometry.fatFits coherent).mono ?_ ?_))
    · rintro _ s2 ⟨moved, clean, _, _⟩
      exact .throw (Or.inl ⟨s1, bad, moved, fun _ => clean⟩)
    · rintro _ s2 ⟨_, loud, moved⟩
      exact .throw (Or.inl ⟨s1, bad, moved, fun quiet => absurd quiet loud⟩)

theorem Between.safe (between : Between F live s own) :
    Geometry s.sb s.clusterShift ∧ Coherent s :=
  ⟨between.inv.geometry, between.inv.coherent⟩

/-- The state after the cache was written back. -/
theorem Between.ready (ready : Ready F live s own) (between : Between F live' s' own')
    (same : Same s s') (moved : Moved s' s'' s'.image)
    (clean : s'.Quiet → s''.fatDirty = false) : Ready F live' s'' own' where
  between := between.unmoved moved
  clean quiet := clean (moved.same.quiet_before quiet)
  device := by
    rw [moved.same.diskSectors, moved.same.total, same.diskSectors, same.total]
    exact ready.device

/-- The directory entry of a handle, on the disk and as the filesystem sees
it. -/
theorem slotOf_eq {file : FileRef} (coherent : Coherent s)
    (beyond : s.sb.fatSectors < (s.files file).location.sector) :
    slotOf s file = entryOf s.image (s.files file).location := by
  unfold slotOf entryOf
  rw [coherent.image_eq_disk beyond]
  rfl

theorem Inv.slotOf_eq {file : FileRef} (inv : Inv F live s own)
    (isLive : live file) :
    slotOf s file = entryOf s.image (s.files file).location := by
  apply Filesystem.slotOf_eq inv.coherent
  rw [inv.sb]
  exact (inv.handles.opened file isLive).holds.inDir.fat_lt

/-- Handles that are as live as before. -/
theorem Ready.live_congr (ready : Ready F live s own)
    (same : ∀ file, live' file ↔ live file) : Ready F live' s own := by
  have equal : live' = live := funext fun file => propext (same file)
  rw [equal]
  exact ready

theorem Shows.live_congr (shows' : Shows F live s own session)
    (same : ∀ file, live' file ↔ live file) : Shows F live' s own session := by
  have equal : live' = live := funext fun file => propext (same file)
  rw [equal]
  exact shows'

/-- A call that was refused without a failing transfer changed nothing. -/
theorem Refused.answers {Reason : Prop} {call : Call} {error : FsError}
    (ready : Ready F live s own)
    (refused : Refused F live' s s' own own' Reason)
    (moved : Moved s' s'' s'.image) (clean : s'.Quiet → s''.fatDirty = false)
    (after : ∀ file, call.liveAfter lasting s (.error error) s'' live file ↔
      live' file)
    (unchanged : s.Quiet → ∀ file, live' file ↔ live file)
    (step : ∀ session, Shows F live s own session → Reason →
      (Full F s.image → Full F s''.image) →
      MapStep (Full F s''.image) session call (.error error) session) :
    Answers F lasting live s own call (.error error) s'' := by
  refine ⟨own', refused.still.same.trans moved.same,
    (refused.between.ready ready refused.still.same moved clean).live_congr after, ?_⟩
  intro session quiet shows'
  rcases refused.reason quiet with ⟨reason, image, rfl⟩
  refine ⟨session, ?_, step session shows' reason ?_⟩
  · refine (shows'.congr (moved.image_eq.trans image) ?_).live_congr fun file =>
      (after file).trans (unchanged quiet file)
    rw [moved.files]
    exact refused.still.files
  · rw [moved.image_eq, image]
    exact id

/-! ## Creating, removing, renaming -/

/-- What the map says about a name. -/
theorem Shows.exists_iff (shows' : Shows F live s own session) (name : CString) :
    Exists F s.image own name ↔ session.map.contents name ≠ none := by
  rw [shows'.contents, ne_eq, contentsOf_eq_none_iff, not_not]

theorem Shows.absent (shows' : Shows F live s own session) {name : CString}
    (absent : ¬ Exists F s.image own name) : session.map.contents name = none := by
  by_contra present
  exact absent ((shows'.exists_iff name).mpr present)

theorem create_answers (ready : Ready F live s own) (name : Option CString) :
    Answers F lasting live s own (.create name) (perform (.create name) s).1
      (perform (.create name) s).2 := by
  refine perform_of_meets rfl ((finish_spec (createImpl_spec ready.between name)
    ?_ ?_).mono ?_ ?_)
  · rintro _ s1 ⟨_, _, _, _, _, _, created⟩
    exact (created.between ready.between).safe
  · rintro error s1 ⟨_, refused⟩
    exact refused.between.safe
  · rintro _ s2 ⟨s1, ⟨given, location, own1, rfl, isValid, absent, created⟩, moved,
      clean⟩
    have between1 := created.between ready.between
    refine ⟨own1, created.still.same.trans moved.same,
      between1.ready ready created.still.same moved fun _ => clean, ?_⟩
    intro session _ shows'
    refine ⟨session.put given isValid [], ?_, .create isValid
      (shows'.absent absent)⟩
    exact (created.shows_put ready.between isValid shows').congr moved.image_eq
      moved.files
  · rintro error s2 (⟨s1, ⟨own1, refused⟩, moved, clean⟩ | ⟨rfl, _, s1,
      ⟨given, location, own1, rfl, isValid, absent, created⟩, loud, moved⟩)
    · refine refused.answers ready moved clean (fun _ => Iff.rfl)
        (fun _ _ => Iff.rfl) ?_
      rintro session shows' (⟨rfl, bad⟩ | ⟨given, rfl, isValid, why⟩) full
      · exact .badName bad
      · cases error
        case exist => exact .createExist ((shows'.exists_iff given).mp why)
        case nospc => exact .createFull (shows'.absent why.1) (full why.2.1)
        all_goals exact why.elim
    · refine ⟨own1, created.still.same.trans moved.same,
        (created.between ready.between).ready ready created.still.same moved
          fun quiet => absurd quiet loud, ?_⟩
      intro session quiet
      exact absurd (created.still.same.quiet quiet) loud

/-- The handles whose slot is still in use, seen on the disk. -/
theorem Ready.remaining_iff (ready : Ready F live s own) (still : Still s s')
    (moved : Moved s' s'' s'.image) (file : FileRef) :
    live file ∧ (slotOf s'' file).flags % 2 = 1 ↔ remaining live s' file := by
  refine and_congr_right fun isLive => ?_
  have beyond := (ready.between.inv.handles.opened file isLive).holds.inDir.fat_lt
  rw [slotOf_eq moved.coherent (by
    rw [moved.files, still.files, moved.same.sb, still.same.sb,
      ready.between.inv.sb]
    exact beyond), moved.files, moved.image_eq]
  rfl

theorem remove_answers (ready : Ready F live s own) (name : Option CString) :
    Answers F lasting live s own (.remove name) (perform (.remove name) s).1
      (perform (.remove name) s).2 := by
  refine perform_of_meets rfl ((finish_spec (removeImpl_spec ready.between name)
    ?_ ?_).mono ?_ ?_)
  · rintro _ s1 ⟨_, _, _, _, _, removed⟩
    exact removed.between.safe
  · rintro error s1 ⟨_, refused⟩
    exact refused.between.safe
  · rintro _ s2 ⟨s1, ⟨given, location, own1, rfl, isValid, removed⟩, moved, clean⟩
    have sameLive := ready.remaining_iff removed.still moved
    refine ⟨own1, removed.still.same.trans moved.same,
      (removed.between.ready ready removed.still.same moved
        fun _ => clean).live_congr sameLive, ?_⟩
    intro session _ shows'
    refine ⟨session.remove given, ?_, .remove ?_⟩
    · exact ((removed.shows_remove ready.between shows').congr moved.image_eq
        moved.files).live_congr sameLive
    · exact (shows'.exists_iff given).mp ⟨location, removed.held, removed.named⟩
  · rintro error s2 (⟨s1, ⟨own1, refused⟩, moved, clean⟩ | ⟨rfl, _, s1,
      ⟨given, location, own1, rfl, isValid, removed⟩, loud, moved⟩)
    · refine refused.answers ready moved clean
        (ready.remaining_iff refused.still moved) ?_ ?_
      · intro quiet file
        refine ⟨fun still => still.1, fun isLive => ⟨isLive, ?_⟩⟩
        rcases refused.reason quiet with ⟨_, image, _⟩
        rw [image, refused.still.files]
        exact (ready.between.inv.handles.opened file isLive).holds.used
      · rintro session shows' (⟨rfl, bad⟩ | ⟨given, rfl, isValid, rfl, absent⟩) _
        · exact .badName bad
        · exact .removeAbsent (shows'.absent absent)
    · refine ⟨own1, removed.still.same.trans moved.same,
        (removed.between.ready ready removed.still.same moved
          fun quiet => absurd quiet loud).live_congr
          (ready.remaining_iff removed.still moved), ?_⟩
      intro session quiet
      exact absurd (removed.still.same.quiet quiet) loud

/-- A call that does not write the cache back itself. -/
theorem Ready.unfinished (ready : Ready F live s own)
    (between : Between F live' s' own') (same : Same s s')
    (clean : s'.Quiet → s'.fatDirty = false) : Ready F live' s' own' where
  between := between
  clean := clean
  device := by
    rw [same.diskSectors, same.total]
    exact ready.device

/-- A function that keeps the cache clean without failing transfers. -/
theorem Ready.withClean {α : Type} {program : FsM α} {returned : α → Fs → Prop}
    {failed : FsError → Fs → Prop} (ready : Ready F live s own)
    (meets : Meets program s returned failed) (keeps : Keeps Fs.Clean program) :
    Meets program s
      (fun value s' => returned value s' ∧ (s.Quiet → s'.fatDirty = false))
      fun error s' => failed error s' ∧ (s.Quiet → s'.fatDirty = false) := by
  by_cases quiet : s.Quiet
  · refine (meets.and (keeps s (ready.clean quiet))).mono ?_ ?_
    · exact fun value s' both => ⟨both.1, fun _ => both.2⟩
    · exact fun error s' both => ⟨both.1, fun _ => both.2⟩
  · refine meets.mono ?_ ?_
    · exact fun value s' holds => ⟨holds, fun isQuiet => absurd isQuiet quiet⟩
    · exact fun error s' holds => ⟨holds, fun isQuiet => absurd isQuiet quiet⟩

theorem rename_answers (ready : Ready F live s own)
    (source target : Option CString) :
    Answers F lasting live s own (.rename source target)
      (perform (.rename source target) s).1
      (perform (.rename source target) s).2 := by
  refine perform_of_meets rfl ((ready.withClean
    (fsRename_spec ready.between source target)
    (fsRename_clean source target)).mono ?_ ?_)
  · rintro _ s1 ⟨⟨source', target', location, own1, rfl, rfl, _, isValid, absent,
      renamed⟩, _⟩
    refine ⟨own1, renamed.still.same, ready.unfinished renamed.between
      renamed.still.same fun _ => renamed.clean, ?_⟩
    intro session _ shows'
    rcases renamed.shows_rename ready.between isValid absent shows' with
      ⟨after, present⟩
    exact ⟨_, after, .rename isValid present (shows'.absent absent)⟩
  · rintro error s1 ⟨⟨own1, refused⟩, clean⟩
    have ready1 := ready.unfinished refused.between refused.still.same fun quiet =>
      clean (refused.still.same.quiet_before quiet)
    refine refused.answers ready (.refl refused.between.inv.coherent) ready1.clean
      (fun _ => Iff.rfl) (fun _ _ => Iff.rfl) ?_
    rintro session shows' (⟨rfl, bad⟩ | ⟨source', target', rfl, rfl, _, _,
      ⟨rfl, present⟩ | ⟨rfl, absentTarget, absentSource⟩⟩) _
    · exact .badName bad
    · exact .renameExist ((shows'.exists_iff target').mp present)
    · exact .renameAbsent (shows'.absent absentTarget) (shows'.absent absentSource)

/-! ## Opening -/

/-- A slot of the directory took a new file without clusters. -/
structure Entered (F : Format) (image image' : Image) (own own' : Ownership)
    (location : Location) : Prop where
  fresh : ¬ Holds F image (own .root) location
  holds : Holds F image' (own' .root) location
  chain : own' (.slot location) = []
  root : Extends F image image' (own .root) (own' .root)
  kept : ∀ other, other ≠ location → KeptAt F image image' own own' other

/-- The slot that `fs_open` found or filled. -/
inductive Placed (F : Format) (image image' : Image) (own own' : Ownership)
    (location : Location) : Prop where
  | found (same : image' = image) (root : own' .root = own .root)
      (slots : ∀ other, own' (.slot other) = own (.slot other))
      (holds : Holds F image (own .root) location)
  | created (entered : Entered F image image' own own' location)

theorem Created.entered {name : CString} {location : Location}
    (created : Created F live s s' own own' name location) {own1 : Ownership}
    (closed : Closed own' own1) : Entered F s.image s'.image own own1 location where
  fresh := created.fresh
  holds := by
    rw [closed.root]
    exact created.holds
  chain := by
    rw [closed.slots]
    exact created.chain
  root := by
    rw [closed.root]
    exact created.root
  kept other different := by
    have kept := created.kept other different
    refine ⟨?_, kept.entry, (closed.slots other).trans kept.chain, kept.data⟩
    rw [closed.root]
    exact kept.holds

/-- What `fs_open` leaves when it succeeds. -/
structure Opened (F : Format) (live : FileRef → Prop) (s s' : Fs)
    (own own' : Ownership) (name : CString) (file : FileRef)
    (location : Location) (create : Bool) : Prop where
  between : Between F (openedLive live s file location) s' own'
  same : Same s s'
  files : ∀ other, other ≠ file → s'.files other = s.files other
  place : (s'.files file).location = location
  named : storedName (entryOf s'.image location) = name
  before : Holds F s.image (own .root) location →
    storedName (entryOf s.image location) = name
  kept : ∀ other, other ≠ location → Holds F s.image (own .root) other →
    entryOf s'.image other = entryOf s.image other
  placed : Placed F s.image s'.image own own' location
  unchanged : create = false → s'.image = s.image
  session : ∀ session, s.Quiet → Shows F live s own session →
    (session.map.contents name ≠ none ∧
      Shows F (openedLive live s file location) s' own'
        (session.attach file name) ∨
    create = true ∧ session.map.contents name = none ∧
      ∃ isValid : nameOk name = true,
        Shows F (openedLive live s file location) s' own'
          ((session.put name isValid []).attach file name))

theorem Found.opened {name : CString} {file : FileRef} {location : Location}
    {create : Bool} (before : Between F live s own) (isValid : nameOk name = true)
    (found : Found F live s s' own own' name create location) :
    ∃ own'', Opened F live s
      (s'.setFile file fun _ => opened location (entryOf s'.image location)) own
      own'' name file location create := by
  rcases found.between.opened found.holds file with ⟨own'', closed, between⟩
  have sameLive : openedLive live s' file location =
      openedLive live s file location := by
    funext other
    simp only [openedLive, found.still.files]
  rw [sameLive] at between
  refine ⟨own'', between, ?_, ?_, ?_, found.named, ?_, ?_, ?_, ?_, ?_⟩
  · exact ⟨found.still.same.sb, found.still.same.mounted,
      found.still.same.diskSectors, found.still.same.clusterShift,
      found.still.same.total, found.still.same.fails, found.still.same.grows⟩
  · intro other different
    rw [Fs.setFile_files_of_ne _ _ different, found.still.files]
  · rw [Fs.setFile_files_self]
    rfl
  · intro held
    rcases found.how with ⟨image, _⟩ | ⟨_, _, created⟩
    · rw [← image]
      exact found.named
    · exact absurd held created.fresh
  · intro other different held
    rcases found.how with ⟨image, _⟩ | ⟨_, _, created⟩
    · change entryOf s'.image other = _
      rw [image]
    · exact (created.kept other different).entry held
  · rcases found.how with ⟨image, rfl⟩ | ⟨_, _, created⟩
    · refine .found image closed.root closed.slots ?_
      rw [← image]
      exact found.holds
    · exact .created (created.entered closed)
  · intro isNew
    rcases found.how with ⟨image, _⟩ | ⟨isCreate, _⟩
    · exact image
    · rw [isNew] at isCreate
      cases isCreate
  · intro session _ shows'
    rw [← sameLive]
    rcases found.how with ⟨image, rfl⟩ | ⟨isCreate, absent, created⟩
    · refine Or.inl ⟨?_, ?_⟩
      · apply (shows'.exists_iff name).mp
        refine ⟨location, ?_, ?_⟩
        · rw [← image]
          exact found.holds
        · rw [← image]
          exact found.named
      · exact (shows'.congr image found.still.files).attach found.between.inv
          found.holds found.named closed
    · exact Or.inr ⟨isCreate, shows'.absent absent, isValid,
        (created.shows_put before isValid shows').attach found.between.inv
          found.holds found.named closed⟩

/-- The cache was written back after a file was opened. -/
theorem Opened.unmoved {name : CString} {file : FileRef} {location : Location}
    {create : Bool} (opened : Opened F live s s' own own' name file location create)
    (moved : Moved s' s'' s'.image) :
    Opened F live s s'' own own' name file location create where
  between := opened.between.unmoved moved
  same := opened.same.trans moved.same
  files other different := by
    rw [moved.files]
    exact opened.files other different
  place := by
    rw [moved.files]
    exact opened.place
  named := by
    rw [moved.image_eq]
    exact opened.named
  before := opened.before
  kept := by
    rw [moved.image_eq]
    exact opened.kept
  placed := by
    rw [moved.image_eq]
    exact opened.placed
  unchanged := by
    rw [moved.image_eq]
    exact opened.unchanged
  session session quiet shows' := by
    rcases opened.session session quiet shows' with ⟨present, after⟩ |
      ⟨isCreate, absent, isValid, after⟩
    · exact Or.inl ⟨present, after.congr moved.image_eq moved.files⟩
    · exact Or.inr ⟨isCreate, absent, isValid,
        after.congr moved.image_eq moved.files⟩

/-- What `fs_open` leaves when it fails. -/
structure OpenFailed (F : Format) (live : FileRef → Prop) (s s' : Fs)
    (own own' : Ownership) (name : Option CString) (file : FileRef)
    (create : Bool) (error : FsError) : Prop where
  between : Between F (fun other => live other ∧ s'.files other = s.files other) s'
    own'
  same : Same s s'
  files : ∀ other, other ≠ file → s'.files other = s.files other
  clean : s.Quiet → s'.fatDirty = false
  why : s.Quiet → NameError name (OpenError F s.image own create) error ∧
    s'.image = s.image ∧ s'.files = s.files ∧ own' = own

theorem fsOpen_spec (ready : Ready F live s own) (name : Option CString)
    (file : FileRef) (create : Bool) :
    Meets (fsOpen name file create) s
      (fun _ s' => s'.fatDirty = false ∧ ∃ given location own', name = some given ∧
        nameOk given = true ∧
        Opened F live s s' own own' given file location create)
      fun error s' => ∃ own', OpenFailed F live s s' own own' name file create
        error := by
  refine (finish_spec (openImpl_spec ready.between name file create) ?_ ?_).mono ?_ ?_
  · rintro _ s' ⟨given, location, s1, own1, _, isValid, found, rfl⟩
    rcases found.opened ready.between isValid with ⟨own', opened⟩
    exact opened.between.safe
  · rintro error s' ⟨own', refused⟩
    exact refused.between.safe
  · rintro _ s2 ⟨_, ⟨given, location, s1, own1, isName, isValid, found, rfl⟩, moved,
      clean⟩
    rcases found.opened ready.between isValid with ⟨own', opened⟩
    exact ⟨clean, given, location, own', isName, isValid, opened.unmoved moved⟩
  · rintro error s2 (⟨s1, ⟨own1, refused⟩, moved, clean⟩ | ⟨rfl, _, _,
      ⟨given, location, s1, own1, isName, isValid, found, rfl⟩, loud, moved⟩)
    · have files : s2.files = s.files := moved.files.trans refused.still.files
      have same := refused.still.same.trans moved.same
      refine ⟨own1, ?_, same, fun other _ => by rw [files], fun quiet => ?_,
        fun quiet => ?_⟩
      · have between := refused.between.unmoved moved
        refine ⟨between.inv.live_congr fun other => ?_, between.spare,
          between.shown, fun quiet other isLive =>
            between.synced quiet other isLive.1⟩
        rw [files]
        exact and_iff_left rfl
      · exact clean (refused.still.same.quiet quiet)
      · rcases refused.reason quiet with ⟨reason, image, sameOwn⟩
        exact ⟨reason, moved.image_eq.trans image, files, sameOwn⟩
    · rcases found.between.overwritten file
        (opened location (entryOf s1.image location)) with ⟨own', closed, between⟩
      have loud0 : ¬ s.Quiet := fun quiet => loud (found.still.same.quiet quiet)
      have between' := between.unmoved moved
      refine ⟨own', ?_, ?_, ?_, fun quiet => absurd quiet loud0,
        fun quiet => absurd quiet loud0⟩
      · refine ⟨between'.inv.live_congr fun other => ?_, between'.spare,
          between'.shown, fun quiet other isLive =>
            absurd (moved.same.quiet_before quiet) loud⟩
        rw [moved.files, found.still.files]
      · exact ⟨moved.same.sb.trans found.still.same.sb,
          moved.same.mounted.trans found.still.same.mounted,
          moved.same.diskSectors.trans found.still.same.diskSectors,
          moved.same.clusterShift.trans found.still.same.clusterShift,
          moved.same.total.trans found.still.same.total,
          moved.same.fails.trans found.still.same.fails,
          found.still.same.grows.trans moved.same.grows⟩
      · intro other different
        rw [moved.files, Fs.setFile_files_of_ne _ _ different, found.still.files]

theorem open_answers (ready : Ready F live s own) (name : Option CString)
    (file : Nat) (creates : Bool) :
    Answers F lasting live s own (.open name file creates)
      (perform (.open name file creates) s).1
      (perform (.open name file creates) s).2 := by
  refine perform_of_meets rfl ((fsOpen_spec ready name (.caller file)
    creates).mono ?_ ?_)
  · rintro _ s' ⟨clean, given, location, own', rfl, isValid, opened⟩
    have sameLive : ∀ other, (Call.open (some given) file creates).liveAfter lasting
        s (.ok .done) s' live other ↔
        openedLive live s (.caller file) location other := by
      intro other
      simp only [Call.liveAfter, openedLive, ← opened.place, FsFile.location,
        ne_eq, Location.mk.injEq]
    refine ⟨own', opened.same, (ready.unfinished opened.between opened.same
      fun _ => clean).live_congr sameLive, ?_⟩
    intro session quiet shows'
    rcases opened.session session quiet shows' with ⟨present, after⟩ |
      ⟨isCreate, absent, isValid', after⟩
    · exact ⟨_, after.live_congr sameLive, .open present⟩
    · subst isCreate
      exact ⟨_, after.live_congr sameLive, .openNew isValid absent⟩
  · rintro error s' ⟨own', failed⟩
    refine ⟨own', failed.same, ready.unfinished failed.between failed.same fun quiet =>
      failed.clean (failed.same.quiet_before quiet), ?_⟩
    intro session quiet shows'
    rcases failed.why quiet with ⟨why, image, files, rfl⟩
    refine ⟨session, (shows'.congr image files).live_congr fun other => ?_, ?_⟩
    · simp only [Call.liveAfter, files, and_true]
    · rw [image]
      rcases why with ⟨rfl, bad⟩ | ⟨given, rfl, _, absent, ⟨rfl, isCreate⟩ |
        ⟨rfl, isCreate, full, _⟩⟩
      · exact .badName bad
      · subst isCreate
        exact .openAbsent (shows'.absent absent)
      · subst isCreate
        exact .openFull (shows'.absent absent) full

end Calls

end Katela.Filesystem
