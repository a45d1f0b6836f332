import Katela.Filesystem.Naming

/-! # The calls that take a name

What `fs_create`, `fs_remove`, `fs_rename` and `fs_open` do to a filesystem
between two calls, before their results are written back. -/

namespace Katela.Filesystem

/-- The state between two calls. Without failing transfers every open file is
as its directory entry says. -/
structure Between (F : Format) (live : FileRef → Prop) (s : Fs)
    (own : Ownership) : Prop where
  inv : Inv F live s own
  spare : own .spare = []
  shown : s.Quiet → ∀ file, own (.handle file) = []
  synced : s.Quiet → ∀ file, live file →
    (s.files file).first = (entryOf s.image (s.files file).location).first ∧
      (s.files file).size = (entryOf s.image (s.files file).location).size

section Calls

variable {F : Format} {live live' : FileRef → Prop} {s s' : Fs}
variable {own own' : Ownership}

/-- The files of the handles that are still in use stayed as they were. -/
theorem Between.kept (before : Between F live s own) (inv : Inv F live' s' own')
    (still : Still s s') (less : ∀ file, live' file → live file)
    (kept : ∀ file, live' file →
      entryOf s'.image (s.files file).location =
        entryOf s.image (s.files file).location)
    (spare : own' .spare = [])
    (handles : ∀ file, own' (.handle file) = own (.handle file) ∨
      own' (.handle file) = []) : Between F live' s' own' where
  inv := inv
  spare := spare
  shown quiet file := by
    rcases handles file with same | empty
    · rw [same]
      exact before.shown (still.same.quiet_before quiet) file
    · exact empty
  synced quiet file isLive := by
    rw [still.files, kept file isLive]
    exact before.synced (still.same.quiet_before quiet) file (less file isLive)

theorem Between.unmoved (before : Between F live s own)
    (moved : Moved s s' s.image) : Between F live s' own :=
  before.kept (before.inv.unmoved moved) moved.still (fun _ isLive => isLive)
    (fun _ _ => by rw [moved.image_eq]) before.spare fun _ => Or.inl rfl

/-- A function that only looked. -/
theorem Between.looked (before : Between F live s own)
    (inv : Inv F live s' own) (still : Still s s')
    (image : s'.image = s.image) : Between F live s' own :=
  before.kept inv still (fun _ isLive => isLive) (fun _ _ => by rw [image])
    before.spare fun _ => Or.inl rfl

theorem requireMounted_spec (mounted : s.mounted = true) :
    Meets requireMounted s (fun _ s' => s' = s) fun _ _ => False := by
  unfold requireMounted
  exact .bind (.get (.require (fun _ => rfl) fun not => not mounted))

theorem nameCheck_spec (name : Option CString) :
    Meets (nameCheck name) s
      (fun checked s' => s' = s ∧ name = some checked ∧ nameOk checked = true)
      fun error s' => s' = s ∧ error = .name ∧
        ∀ given, name = some given → nameOk given = false := by
  unfold nameCheck
  cases name with
  | none => exact .throw ⟨rfl, rfl, fun _ impossible => by cases impossible⟩
  | some given =>
      refine .ite (fun valid => .pure ⟨rfl, rfl, valid⟩) fun invalid => ?_
      refine .throw ⟨rfl, rfl, ?_⟩
      intro other equal
      injection equal with equal
      rw [← equal]
      simpa using invalid

/-- A file with this name exists. -/
def Exists (F : Format) (image : Image) (own : Ownership) (name : CString) :
    Prop :=
  ∃ location, Holds F image (own .root) location ∧
    storedName (entryOf image location) = name

/-- A call failed. Without failing transfers nothing happened, for the given
reason. -/
structure Refused (F : Format) (live : FileRef → Prop) (s s' : Fs)
    (own own' : Ownership) (Reason : Prop) : Prop where
  between : Between F live s' own'
  still : Still s s'
  reason : s.Quiet → Reason ∧ s'.image = s.image ∧ own' = own

theorem Refused.since {s1 : Fs} {Reason Reason' : Prop}
    (refused : Refused F live s1 s' own own' Reason) (still : Still s s1)
    (image : s1.image = s.image) (reason : Reason → Reason') :
    Refused F live s s' own own' Reason' where
  between := refused.between
  still := still.trans refused.still
  reason quiet := by
    rcases refused.reason (still.same.quiet quiet) with ⟨why, same, sameOwn⟩
    exact ⟨reason why, same.trans image, sameOwn⟩

/-- A transfer failed before anything was changed. -/
theorem Between.refused {Reason : Prop} (before : Between F live s own)
    (inv : Inv F live s' own) (still : Still s s') (image : s'.image = s.image)
    (why : s.Quiet → Reason) : Refused F live s s' own own Reason :=
  ⟨before.looked inv still image, still, fun quiet => ⟨why quiet, image, rfl⟩⟩

/-- The start of all calls that take a name. -/
theorem checkedName_spec (before : Between F live s own) (name : Option CString)
    {α : Type} {rest : CString → FsM α} {returned : α → Fs → Prop}
    {failed : FsError → Fs → Prop}
    (invalid : (∀ given, name = some given → nameOk given = false) →
      failed .name s)
    (valid : ∀ given, name = some given → nameOk given = true →
      Meets (rest given) s returned failed) :
    Meets (do
      requireMounted
      let checked ← nameCheck name
      rest checked) s returned failed := by
  refine (requireMounted_spec before.inv.mounted).seq ?_ fun _ _ => False.elim
  rintro _ s1 rfl
  refine (nameCheck_spec name).seq ?_ ?_
  · rintro given s2 ⟨rfl, isName, isValid⟩
    exact valid given isName isValid
  · rintro error s2 ⟨rfl, rfl, isInvalid⟩
    exact invalid isInvalid

/-! ## Creating -/

theorem Created.since {s1 : Fs} {name : CString} {location : Location}
    (created : Created F live s1 s' own own' name location) (still : Still s s1)
    (image : s1.image = s.image) :
    Created F live s s' own own' name location where
  inv := created.inv
  still := still.trans created.still
  clean := created.clean
  fresh := by
    rw [← image]
    exact created.fresh
  holds := created.holds
  entry := created.entry
  chain := created.chain
  kept other different := by
    rw [← image]
    exact created.kept other different
  spare := created.spare
  handles := created.handles
  root := by
    rw [← image]
    exact created.root

/-- No open file is in the slot of a new one. -/
theorem Created.between {name : CString} {location : Location}
    (created : Created F live s s' own own' name location)
    (before : Between F live s own) : Between F live s' own' := by
  refine before.kept created.inv created.still (fun _ isLive => isLive) ?_
    (created.spare.trans before.spare) fun file => Or.inl (created.handles file)
  intro file isLive
  have held := (before.inv.handles.opened file isLive).holds
  refine (created.kept _ ?_).entry held
  intro equal
  rw [equal] at held
  exact created.fresh held

/-- Why a new entry can not be made although all transfers succeed. -/
def CreateError (F : Format) (image : Image) (own : Ownership)
    (name : CString) : FsError → Prop
  | .exist => Exists F image own name
  | .nospc => ¬ Exists F image own name ∧ Full F image ∧ NoSlot F image (own .root)
  | _ => False

theorem CreateFailed.refused {error : FsError} {name : CString}
    (failed : CreateFailed F live s s' own own' error)
    (before : Between F live s own) (absent : ¬ Exists F s.image own name) :
    Refused F live s s' own own' (CreateError F s.image own name error) := by
  have spare := failed.spare.trans before.spare
  by_cases quiet : s.Quiet
  · rcases failed.why with ⟨_, loud⟩ | ⟨rfl, full, image, rfl⟩
    · exact absurd quiet loud
    · exact before.refused failed.inv failed.still image fun _ =>
        ⟨absent, full, failed.crowded rfl⟩
  · refine ⟨⟨failed.inv, spare, ?_, ?_⟩, failed.still, fun isQuiet =>
      absurd isQuiet quiet⟩
    · intro isQuiet
      exact absurd (failed.still.same.quiet_before isQuiet) quiet
    · intro isQuiet
      exact absurd (failed.still.same.quiet_before isQuiet) quiet

/-- Errors that depend on the name. -/
def NameError (name : Option CString) (why : CString → FsError → Prop)
    (error : FsError) : Prop :=
  (error = .name ∧ ∀ given, name = some given → nameOk given = false) ∨
    ∃ given, name = some given ∧ nameOk given = true ∧ why given error

theorem createImpl_spec (before : Between F live s own) (name : Option CString) :
    Meets (createImpl name) s
      (fun _ s' => ∃ given location own', name = some given ∧
        nameOk given = true ∧ ¬ Exists F s.image own given ∧
        Created F live s s' own own' given location)
      fun error s' => ∃ own', Refused F live s s' own own'
        (NameError name (CreateError F s.image own) error) := by
  refine checkedName_spec before name ?_ ?_
  · intro invalid
    exact ⟨own, before, .refl s, fun _ => ⟨Or.inl ⟨rfl, invalid⟩, rfl, rfl⟩⟩
  · intro given isName valid
    refine (dirLookup_inv valid before.inv).seq ?_ ?_
    · rintro res s1 ⟨inv1, only, image, looked⟩
      have between1 := before.looked inv1 only.still image
      refine .bind (.require (fun isMissing => ?_) fun isFound => ?_)
      · have missing : res.found = none := by simpa using isMissing
        have absent : ¬ Exists F s.image own given := by
          rintro ⟨location, held, same⟩
          exact looked.missing missing location held same
        have looked1 : Looked F s1.image (own .root) given res := by
          rw [image]
          exact looked
        refine (entryCreate_inv valid inv1 before.spare looked1 missing).seq ?_ ?_
        · rintro found s2 ⟨_, own', created⟩
          exact .pure ⟨given, found.1, own', isName, valid, absent,
            created.since only.still image⟩
        · rintro error s2 ⟨own', failed⟩
          rw [← image] at absent
          refine ⟨own', (failed.refused between1 absent).since only.still image ?_⟩
          intro why
          rw [image] at why
          exact Or.inr ⟨given, isName, valid, why⟩
      · cases found : res.found with
        | none =>
            rw [found] at isFound
            simp at isFound
        | some pair =>
            rcases looked.found pair.1 pair.2 found with ⟨held, isEntry, named⟩
            rw [isEntry] at named
            refine ⟨own, before.refused inv1 only.still image fun _ => ?_⟩
            exact Or.inr ⟨given, isName, valid, pair.1, held, named⟩
    · rintro error s1 ⟨isIo, loud, inv1, only, image⟩
      exact ⟨own, before.refused inv1 only.still image fun quiet =>
        absurd quiet loud⟩

/-! ## Removing -/

/-- The open files whose directory slot is still in use. -/
def remaining (live : FileRef → Prop) (s : Fs) (file : FileRef) : Prop :=
  live file ∧ Used s.image (s.files file).location

theorem Inv.remaining (inv : Inv F live s own) :
    Inv F (remaining live s) s own := by
  refine inv.live_congr fun file => ⟨fun still => still.1, fun isLive => ?_⟩
  exact ⟨isLive, (inv.handles.opened file isLive).holds.used⟩

theorem Between.remaining (between : Between F live s own) :
    Between F (Filesystem.remaining live s) s own where
  inv := between.inv.remaining
  spare := between.spare
  shown := between.shown
  synced quiet file still := between.synced quiet file still.1

structure Removed (F : Format) (live : FileRef → Prop) (s s' : Fs)
    (own own' : Ownership) (name : CString) (location : Location) : Prop where
  between : Between F (remaining live s') s' own'
  still : Still s s'
  held : Holds F s.image (own .root) location
  named : storedName (entryOf s.image location) = name
  gone : ¬ Used s'.image location
  kept : ∀ other, other ≠ location → KeptAt F s.image s'.image own own' other

def RemoveError (F : Format) (image : Image) (own : Ownership)
    (name : CString) (error : FsError) : Prop :=
  error = .noent ∧ ¬ Exists F image own name

/-- The chain of a file is freed after its slot was cleared. -/
theorem chainFree_removed {s1 s2 : Fs} {own1 own2 : Ownership} {first : Nat}
    {location : Location} {name : CString} (before : Between F live s own)
    (held : Holds F s.image (own .root) location)
    (named : storedName (entryOf s.image location) = name)
    (still : Still s s1) (image : s1.image = s.image) (closed : Closed own own1)
    (cleared : Cleared F
      (fun file => live file ∧ (s1.files file).location ≠ location) s1 s2 own1
      own2 location)
    (isFirst : first = (entryOf s.image location).first) :
    Meets (chainFree first) s2
      (fun _ s' => ∃ own', Removed F live s s' own own' name location)
      fun _ s' => ¬ s.Quiet ∧ ∃ own', Removed F live s s' own own' name location := by
  have chain : first = firstOf (own2 .spare) := by
    rw [cleared.spare, closed.slots, isFirst]
    exact (before.inv.directory.first location held).symm
  have removed : ∀ s', FatOnly F s2 s' →
      Inv F (fun file => live file ∧ (s1.files file).location ≠ location) s'
        (Function.update own2 .spare []) →
      ∃ own', Removed F live s s' own own' name location := by
    intro s' only inv'
    have stillAll := (still.trans cleared.still).trans only.still
    have kept : ∀ other, other ≠ location → KeptAt F s.image s'.image own
        (Function.update own2 .spare []) other := by
      intro other different
      have first : KeptAt F s.image s1.image own own1 other :=
        .ofSectors closed.root (closed.slots other) fun _ _ => by rw [image]
      have last : KeptAt F s2.image s'.image own2
          (Function.update own2 .spare []) other :=
        .ofFatOnly only (by simp) (by simp)
      exact (first.trans (cleared.kept other different)).trans last
    have gone : ¬ Used s'.image location := by
      have same := only.image_eq location.sector (Or.inr held.inDir.fat_lt)
      simpa [Used, entryOf_congr same] using cleared.gone
    have sameLive : ∀ file, Filesystem.remaining live s' file ↔
        live file ∧ (s1.files file).location ≠ location := by
      intro file
      simp only [Filesystem.remaining, stillAll.files, still.files]
      refine and_congr_right fun isLive => ⟨?_, fun different => ?_⟩
      · intro used equal
        rw [equal] at used
        exact gone used
      · have old := (before.inv.handles.opened file isLive).holds
        exact ((kept _ different).holds.mpr old).used
    refine ⟨Function.update own2 .spare [], ?_, stillAll, held, named, gone, kept⟩
    refine before.kept (inv'.live_congr sameLive) stillAll (fun _ left => left.1)
      ?_ (by simp) ?_
    · intro file left
      have different := ((sameLive file).mp left).2
      rw [still.files] at different
      exact (kept _ different).entry (before.inv.handles.opened file left.1).holds
    · intro file
      rw [Function.update_of_ne (by simp), cleared.handles]
      exact closed.handles file
  refine (chainFree_inv cleared.inv chain).mono ?_ ?_
  · rintro _ s' ⟨inv', only⟩
    exact removed s' only inv'
  · rintro _ s' ⟨loud, inv', only⟩
    exact ⟨(still.trans cleared.still).same.not_quiet loud, removed s' only inv'⟩

theorem removeImpl_spec (before : Between F live s own) (name : Option CString) :
    Meets (removeImpl name) s
      (fun _ s' => ∃ given location own', name = some given ∧
        nameOk given = true ∧ Removed F live s s' own own' given location)
      fun error s' => ∃ own', Refused F (remaining live s') s s' own own'
        (NameError name (RemoveError F s.image own) error) := by
  have refused : ∀ {s' : Fs} {error : FsError}, Between F live s' own →
      Still s s' → s'.image = s.image →
      (s.Quiet → NameError name (RemoveError F s.image own) error) →
      ∃ own', Refused F (remaining live s') s s' own own'
        (NameError name (RemoveError F s.image own) error) :=
    fun between still image why => ⟨own, between.remaining, still,
      fun quiet => ⟨why quiet, image, rfl⟩⟩
  refine checkedName_spec before name ?_ ?_
  · intro invalid
    exact refused before (.refl s) rfl fun _ => Or.inl ⟨rfl, invalid⟩
  · intro given isName valid
    refine (dirLookup_inv valid before.inv).seq ?_ ?_
    · rintro res s1 ⟨inv1, only, image, looked⟩
      have between1 := before.looked inv1 only.still image
      cases found : res.found with
      | none =>
          refine .throw (refused between1 only.still image fun _ => ?_)
          refine Or.inr ⟨given, isName, valid, rfl, ?_⟩
          rintro ⟨location, held, named⟩
          exact looked.missing found location held named
      | some pair =>
          rcases pair with ⟨location, entry⟩
          rcases looked.found location entry found with ⟨held, rfl, named⟩
          rcases inv1.restrict (fun file (isLive : live file ∧
            (s1.files file).location ≠ location) => isLive.1) between1.shown with
            ⟨own1, closed, inv1'⟩
          have held1 : Holds F s1.image (own1 .root) location := by
            rw [image, closed.root]
            exact held
          refine (slotStore_remove inv1' held1 (closed.spare.trans before.spare)
            fun _ isLive => isLive.2).seq ?_ ?_
          · rintro _ s2 ⟨own2, cleared⟩
            refine (chainFree_removed before held named only.still image closed
              cleared rfl).mono ?_ ?_
            · rintro _ s' ⟨own', removed⟩
              exact ⟨given, location, own', isName, valid, removed⟩
            · rintro error s' ⟨loud, own', removed⟩
              exact ⟨own', removed.between, removed.still, fun quiet =>
                absurd quiet loud⟩
          · rintro error s2 ⟨_, loud, moved⟩
            exact refused (between1.unmoved moved)
              (only.still.trans moved.still) (moved.image_eq.trans image)
              fun quiet => absurd (only.same.quiet quiet) loud
    · rintro error s1 ⟨isIo, loud, inv1, only, image⟩
      exact refused (before.looked inv1 only.still image) only.still image
        fun quiet => absurd quiet loud

/-! ## Renaming -/

/-- The entry in a slot got another name. -/
structure Renamed (F : Format) (live : FileRef → Prop) (s s' : Fs)
    (own own' : Ownership) (source target : CString) (location : Location) :
    Prop where
  between : Between F live s' own'
  still : Still s s'
  clean : s'.fatDirty = false
  held : Holds F s.image (own .root) location
  named : storedName (entryOf s.image location) = source
  renamed : storedName (entryOf s'.image location) = target
  holds : Holds F s'.image (own' .root) location
  size : (entryOf s'.image location).size = (entryOf s.image location).size
  chain : own' (.slot location) = own (.slot location)
  data : ∀ cluster ∈ own (.slot location), ∀ sector,
    F.InCluster cluster sector → s'.image sector = s.image sector
  kept : ∀ other, other ≠ location → KeptAt F s.image s'.image own own' other

theorem slotStore_rename {location : Location} {target : CString}
    (valid : nameOk target = true) (before : Between F live s own)
    (held : Holds F s.image (own .root) location)
    (absent : ¬ Exists F s.image own target) :
    Meets (slotStore location
        { entryOf s.image location with name := nameField target }) s
      (fun _ s' => Renamed F live s s' own own
        (storedName (entryOf s.image location)) target location)
      fun error s' => error = .io ∧ ¬ s.Quiet ∧ Moved s s' s.image := by
  have inv := before.inv
  have bounds := inv.slot_bounds held.inDir
  generalize isEntry : ({ entryOf s.image location with
    name := nameField target } : DirEntry) = entry
  have first : entry.first = (entryOf s.image location).first := by rw [← isEntry]
  have size : entry.size = (entryOf s.image location).size := by rw [← isEntry]
  have flags : entry.flags = (entryOf s.image location).flags := by rw [← isEntry]
  have bounded : entry.Bounded := by
    have old := entryAt_bounded (s.image location.sector) location.slot
    rw [← isEntry]
    exact ⟨old.first, old.size, old.flags⟩
  have named : storedName entry = target :=
    storedName_nameField valid (by rw [← isEntry])
  refine (slotStore_spec inv.geometry inv.coherent entry bounds.1
    bounds.2).mono ?_ fun _ _ failed => failed
  intro _ s' stored
  have image : s'.image = putEntry s.image location entry := stored.image_eq
  have self := entryOf_putEntry_self s.image held.inDir.1 bounded
  have others : ∀ other, other ≠ location →
      entryOf (putEntry s.image location entry) other = entryOf s.image other :=
    fun other different => entryOf_putEntry_other s.image _ different
  have used : Used (putEntry s.image location entry) location := by
    simp only [Used, self, flags]
    exact held.used
  have directory : Directory F (putEntry s.image location entry) own := by
    refine inv.directory.put held.inDir others rfl (fun _ _ => rfl) ?_ ?_
      (fun unused => absurd used unused) ?_ ?_
    · intro _
      rw [self, first]
      exact inv.directory.first location held
    · intro _
      rw [self, size]
      exact inv.directory.size location held
    · intro _
      rw [self, named]
      exact valid
    · intro _ other _ heldOther
      rw [self, named]
      exact fun same => absent ⟨other, heldOther, same⟩
  have alike : ∀ other, Alike (entryOf s.image other)
      (entryOf (putEntry s.image location entry) other) := by
    intro other
    by_cases equal : other = location
    · subst equal
      rw [self]
      exact ⟨first, flags⟩
    · exact alike_of_eq (others other equal)
  have after : Inv F live s' own := by
    refine inv.stored stored (by rw [← inv.sb]; exact bounds.1) inv.accounted
      directory ?_
    exact inv.handles.congr (fun _ member => member) (fun other _ => alike other)
      (fun _ => rfl) fun _ => rfl
  have sizes : ∀ other, (entryOf s'.image other).size =
      (entryOf s.image other).size := by
    intro other
    rw [image]
    by_cases equal : other = location
    · subst equal
      rw [self, size]
    · rw [others other equal]
  have between : Between F live s' own := by
    refine ⟨after, before.spare, fun quiet => before.shown
      (stored.same.quiet_before quiet), fun quiet file isLive => ?_⟩
    rw [stored.files, sizes, image, (alike _).first]
    exact before.synced (stored.same.quiet_before quiet) file isLive
  refine ⟨between, stored.still, stored.clean, held, rfl, ?_, ⟨held.inDir, ?_⟩,
    sizes location, rfl, ?_, ?_⟩
  · rw [image, self]
    exact named
  · rw [image]
    exact used
  · intro cluster member sector here
    rw [image]
    exact inv.accounted.putEntry_data held.inDir (by simp) entry member here
  · intro other different
    rw [image]
    exact .put inv.accounted held.inDir different rfl rfl

theorem Renamed.since {s1 : Fs} {source target : CString} {location : Location}
    (renamed : Renamed F live s1 s' own own' source target location)
    (still : Still s s1) (image : s1.image = s.image) :
    Renamed F live s s' own own' source target location := by
  rcases renamed with ⟨between, still', clean, held, named, renamed, holds, size,
    chain, data, kept⟩
  rw [image] at held named size data kept
  exact ⟨between, still.trans still', clean, held, named, renamed, holds, size,
    chain, data, kept⟩

/-- Why `fs_rename` can fail although all transfers succeed. -/
def RenameError (F : Format) (image : Image) (own : Ownership)
    (source target : Option CString) (error : FsError) : Prop :=
  error = .name ∧ ((∀ given, source = some given → nameOk given = false) ∨
      ∀ given, target = some given → nameOk given = false) ∨
    ∃ source' target', source = some source' ∧ target = some target' ∧
      nameOk source' = true ∧ nameOk target' = true ∧
      (error = .exist ∧ Exists F image own target' ∨
        error = .noent ∧ ¬ Exists F image own target' ∧
          ¬ Exists F image own source')

theorem fsRename_spec (before : Between F live s own)
    (source target : Option CString) :
    Meets (fsRename source target) s
      (fun _ s' => ∃ source' target' location own', source = some source' ∧
        target = some target' ∧ nameOk source' = true ∧ nameOk target' = true ∧
        ¬ Exists F s.image own target' ∧
        Renamed F live s s' own own' source' target' location)
      fun error s' => ∃ own', Refused F live s s' own own'
        (RenameError F s.image own source target error) := by
  have refused : ∀ {s' : Fs} {error : FsError}, Inv F live s' own →
      Still s s' → s'.image = s.image →
      (s.Quiet → RenameError F s.image own source target error) →
      ∃ own', Refused F live s s' own own'
        (RenameError F s.image own source target error) :=
    fun inv still image why => ⟨own, before.refused inv still image why⟩
  refine checkedName_spec before source ?_ ?_
  · intro invalid
    exact refused before.inv (.refl s) rfl fun _ => Or.inl ⟨rfl, Or.inl invalid⟩
  intro source' isSource validSource
  refine (nameCheck_spec target).seq ?_ ?_
  · rintro target' s0 ⟨rfl, isTarget, validTarget⟩
    have reason : ∀ {error : FsError},
        (error = .exist ∧ Exists F s0.image own target' ∨
          error = .noent ∧ ¬ Exists F s0.image own target' ∧
            ¬ Exists F s0.image own source') →
        RenameError F s0.image own source target error :=
      fun why => Or.inr ⟨source', target', isSource, isTarget, validSource,
        validTarget, why⟩
    refine (dirLookup_inv validTarget before.inv).seq ?_ ?_
    · rintro res s1 ⟨inv1, only, image, looked⟩
      refine .bind (.require (fun isMissing => ?_) fun isFound => ?_)
      · have missing : res.found = none := by simpa using isMissing
        have absent : ¬ Exists F s0.image own target' := by
          rintro ⟨location, held, same⟩
          exact looked.missing missing location held same
        refine (dirLookup_inv validSource inv1).seq ?_ ?_
        · rintro res2 s2 ⟨inv2, only2, image2, looked2⟩
          have still2 := only.still.trans only2.still
          have image02 := image2.trans image
          rw [image] at looked2
          have between2 := before.looked inv2 still2 image02
          cases found : res2.found with
          | none =>
              refine .throw (refused inv2 still2 image02 fun _ =>
                reason (Or.inr ⟨rfl, absent, ?_⟩))
              rintro ⟨location, held, named⟩
              exact looked2.missing found location held named
          | some pair =>
              rcases pair with ⟨location, entry⟩
              rcases looked2.found location entry found with ⟨held, rfl, named⟩
              rw [← image02] at absent held named ⊢
              refine (slotStore_rename validTarget between2 held absent).mono ?_ ?_
              · intro _ s' renamed
                rw [named] at renamed
                rw [image02] at absent ⊢
                exact ⟨source', target', location, own, isSource, isTarget,
                  validSource, validTarget, absent, renamed.since still2 image02⟩
              · rintro error s' ⟨_, loud, moved⟩
                rw [image02]
                exact refused (inv2.unmoved moved) (still2.trans moved.still)
                  (moved.image_eq.trans image02)
                  fun quiet => absurd (still2.same.quiet quiet) loud
        · rintro error s2 ⟨_, loud, inv2, only2, image2⟩
          exact refused inv2 (only.still.trans only2.still) (image2.trans image)
            fun quiet => absurd (only.same.quiet quiet) loud
      · cases found : res.found with
        | none =>
            rw [found] at isFound
            simp at isFound
        | some pair =>
            rcases looked.found pair.1 pair.2 found with ⟨held, isEntry, named⟩
            rw [isEntry] at named
            exact refused inv1 only.still image fun _ =>
              reason (Or.inl ⟨rfl, pair.1, held, named⟩)
    · rintro error s1 ⟨_, loud, inv1, only, image⟩
      exact refused inv1 only.still image fun quiet => absurd quiet loud
  · rintro error s0 ⟨rfl, rfl, invalid⟩
    exact refused before.inv (.refl s0) rfl fun _ => Or.inl ⟨rfl, Or.inr invalid⟩

/-! ## Opening -/

/-- The handle of a file that was just opened. -/
def opened (location : Location) (entry : DirEntry) : FsFile where
  dirSector := location.sector
  dirSlot := location.slot
  first := entry.first
  size := entry.size
  cursorIndex := 0
  cursorCluster := entry.first

/-- The memory of the open files can change when they stay in order. -/
theorem Inv.setFile {file : FileRef} {change : FsFile → FsFile}
    (inv : Inv F live s own)
    (handles : Handles F live' s.image own (s.setFile file change).files) :
    Inv F live' (s.setFile file change) own :=
  ⟨inv.sb, inv.shift, inv.total, inv.mounted, ⟨inv.coherent.sector,
    inv.coherent.clean, inv.coherent.dirty⟩, inv.label, inv.accounted,
    inv.directory, handles, inv.disk, inv.history⟩

@[simp] theorem Fs.setFile_files_self (s : Fs) (file : FileRef)
    (change : FsFile → FsFile) :
    (s.setFile file change).files file = change (s.files file) :=
  Function.update_self _ _ _

theorem Fs.setFile_files_of_ne (s : Fs) {file other : FileRef}
    (change : FsFile → FsFile) (different : other ≠ file) :
    (s.setFile file change).files other = s.files other :=
  Function.update_of_ne different _ _

/-- A file that nobody has open is opened with a handle that is not in
use. -/
theorem Inv.opened {file : FileRef} {location : Location}
    (inv : Inv F live s own) (held : Holds F s.image (own .root) location)
    (unused : ¬ live file)
    (nobody : ∀ other, live other → (s.files other).location ≠ location) :
    Inv F (fun other => other = file ∨ live other)
      (s.setFile file fun _ => opened location (entryOf s.image location)) own := by
  have shown : ownerOf s.image file (Filesystem.opened location
      (entryOf s.image location)) = .slot location := if_pos rfl
  have others : ∀ other, live other → other ≠ file := by
    rintro other isLive rfl
    exact unused isLive
  refine inv.setFile ⟨?_, ?_, ?_⟩
  · intro other isOpen
    by_cases equal : other = file
    · subst equal
      rw [Fs.setFile_files_self]
      have first := inv.directory.first location held
      constructor
      case holds => exact held
      case first => rw [shown]; exact first
      case shown => exact fun _ => inv.handles.closed other unused
      case size => rw [shown]; exact inv.directory.size location held
      case bounded =>
        exact (entryAt_bounded (s.image location.sector) location.slot).size
      case cursor =>
        rw [shown]
        cases cells : own (.slot location) with
        | nil =>
            rw [cells] at first
            exact Or.inl first.symm
        | cons head rest =>
            rw [cells] at first
            exact Or.inr (congrArg some first)
    · rw [Fs.setFile_files_of_ne _ _ equal]
      exact inv.handles.opened other (isOpen.resolve_left equal)
  · intro one two oneOpen twoOpen same
    by_cases isOne : one = file
    · by_cases isTwo : two = file
      · rw [isOne, isTwo]
      · subst isOne
        rw [Fs.setFile_files_self, Fs.setFile_files_of_ne _ _ isTwo] at same
        exact absurd same.symm (nobody two (twoOpen.resolve_left isTwo))
    · by_cases isTwo : two = file
      · subst isTwo
        rw [Fs.setFile_files_self, Fs.setFile_files_of_ne _ _ isOne] at same
        exact absurd same (nobody one (oneOpen.resolve_left isOne))
      · rw [Fs.setFile_files_of_ne _ _ isOne, Fs.setFile_files_of_ne _ _ isTwo]
          at same
        exact inv.handles.single one two (oneOpen.resolve_left isOne)
          (twoOpen.resolve_left isTwo) same
  · intro other notOpen
    exact inv.handles.closed other fun isLive => notOpen (Or.inr isLive)

/-- The memory of a handle that is not in use can be written. -/
theorem Inv.overwritten {file : FileRef} (inv : Inv F live s own)
    (unused : ¬ live file) (handle : FsFile) :
    Inv F live (s.setFile file fun _ => handle) own := by
  have others : ∀ other, live other →
      (s.setFile file fun _ => handle).files other = s.files other := by
    intro other isLive
    apply Fs.setFile_files_of_ne
    rintro rfl
    exact unused isLive
  refine inv.setFile ⟨?_, ?_, inv.handles.closed⟩
  · intro other isLive
    rw [others other isLive]
    exact inv.handles.opened other isLive
  · intro one two oneLive twoLive same
    rw [others one oneLive, others two twoLive] at same
    exact inv.handles.single one two oneLive twoLive same

/-- The open files after a file was opened. -/
def openedLive (live : FileRef → Prop) (s : Fs) (file : FileRef)
    (location : Location) (other : FileRef) : Prop :=
  other = file ∨ live other ∧ other ≠ file ∧ (s.files other).location ≠ location

theorem Between.opened {location : Location} (between : Between F live s own)
    (held : Holds F s.image (own .root) location) (file : FileRef) :
    ∃ own', Closed own own' ∧ Between F (openedLive live s file location)
      (s.setFile file fun _ => opened location (entryOf s.image location)) own' := by
  rcases between.inv.restrict (fun other (isLive : live other ∧ other ≠ file ∧
    (s.files other).location ≠ location) => isLive.1) between.shown with
    ⟨own', closed, inv⟩
  have held' : Holds F s.image (own' .root) location := by
    rw [closed.root]
    exact held
  refine ⟨own', closed, inv.opened held' (fun isLive => isLive.2.1 rfl)
    fun other isLive => isLive.2.2, closed.spare.trans between.spare,
    fun quiet => closed.shown (between.shown quiet), ?_⟩
  rintro quiet other (isFile | ⟨isLive, different, _⟩)
  · subst isFile
    rw [Fs.setFile_files_self]
    exact ⟨rfl, rfl⟩
  · rw [Fs.setFile_files_of_ne _ _ different]
    exact between.synced quiet other isLive

/-- A handle was written and then the call failed. -/
theorem Between.overwritten (between : Between F live s own) (file : FileRef)
    (handle : FsFile) :
    ∃ own', Closed own own' ∧
      Between F (fun other => live other ∧
          (s.setFile file fun _ => handle).files other = s.files other)
        (s.setFile file fun _ => handle) own' := by
  by_cases unchanged : handle = s.files file
  · have same : (s.setFile file fun _ => handle) = s := by
      simp [Fs.setFile, unchanged]
    rw [same]
    refine ⟨own, ⟨rfl, fun _ => rfl, rfl, fun _ => Or.inl rfl⟩,
      between.inv.live_congr ?_, between.spare, between.shown, ?_⟩
    · exact fun other => and_iff_left rfl
    · exact fun quiet other isLive => between.synced quiet other isLive.1
  · have others : ∀ other, (s.setFile file fun _ => handle).files other =
        s.files other ↔ other ≠ file := by
      intro other
      constructor
      · rintro same rfl
        rw [Fs.setFile_files_self] at same
        exact unchanged same
      · exact Fs.setFile_files_of_ne s _
    rcases between.inv.restrict (fun other (isLive : live other ∧
      (s.setFile file fun _ => handle).files other = s.files other) => isLive.1)
      between.shown with ⟨own', closed, inv⟩
    refine ⟨own', closed, inv.overwritten
      (fun isLive => (others file).mp isLive.2 rfl) handle,
      closed.spare.trans between.spare,
      fun quiet => closed.shown (between.shown quiet), ?_⟩
    intro quiet other isLive
    rw [isLive.2]
    exact between.synced quiet other isLive.1

/-- Some handles are not used any more. -/
theorem Between.restrict (between : Between F live s own)
    (less : ∀ file, live' file → live file) :
    ∃ own', Closed own own' ∧ Between F live' s own' := by
  rcases between.inv.restrict less between.shown with ⟨own', closed, inv⟩
  exact ⟨own', closed, inv, closed.spare.trans between.spare,
    fun quiet => closed.shown (between.shown quiet),
    fun quiet file isLive => between.synced quiet file (less file isLive)⟩

/-- A file was found, or created if that was asked for. -/
structure Found (F : Format) (live : FileRef → Prop) (s s' : Fs)
    (own own' : Ownership) (name : CString) (create : Bool)
    (location : Location) : Prop where
  between : Between F live s' own'
  still : Still s s'
  holds : Holds F s'.image (own' .root) location
  named : storedName (entryOf s'.image location) = name
  how : s'.image = s.image ∧ own' = own ∨
    create = true ∧ ¬ Exists F s.image own name ∧
      Created F live s s' own own' name location

/-- Why `fs_open` can fail although all transfers succeed. -/
def OpenError (F : Format) (image : Image) (own : Ownership) (create : Bool)
    (name : CString) (error : FsError) : Prop :=
  ¬ Exists F image own name ∧
    (error = .noent ∧ create = false ∨
      error = .nospc ∧ create = true ∧ Full F image ∧ NoSlot F image (own .root))

theorem openImpl_spec (before : Between F live s own) (name : Option CString)
    (file : FileRef) (create : Bool) :
    Meets (openImpl name file create) s
      (fun _ s' => ∃ given location s1 own1, name = some given ∧
        nameOk given = true ∧ Found F live s s1 own own1 given create location ∧
        s' = s1.setFile file fun _ => opened location (entryOf s1.image location))
      fun error s' => ∃ own', Refused F live s s' own own'
        (NameError name (OpenError F s.image own create) error) := by
  refine checkedName_spec before name ?_ ?_
  · intro invalid
    exact ⟨own, before.refused before.inv (.refl s) rfl fun _ =>
      Or.inl ⟨rfl, invalid⟩⟩
  intro given isName valid
  refine (dirLookup_inv valid before.inv).seq ?_ ?_
  · rintro res s1 ⟨inv1, only, image, looked⟩
    have between1 := before.looked inv1 only.still image
    cases found : res.found with
    | some pair =>
        rcases pair with ⟨location, entry⟩
        rcases looked.found location entry found with ⟨held, rfl, named⟩
        rw [← image] at held named ⊢
        refine .modify ⟨given, location, s1, own, isName, valid, ⟨between1,
          only.still, held, named, Or.inl ⟨image, rfl⟩⟩, rfl⟩
    | none =>
        have absent : ¬ Exists F s.image own given := by
          rintro ⟨location, held, same⟩
          exact looked.missing found location held same
        refine .bind (.require (fun isCreate => ?_) fun noCreate => ?_)
        · have looked1 : Looked F s1.image (own .root) given res := by
            rw [image]
            exact looked
          refine (entryCreate_inv valid inv1 before.spare looked1 found).seq ?_ ?_
          · rintro ⟨location, entry⟩ s2 ⟨isNew, own', created⟩
            have created' := created.since only.still image
            have named := storedName_nameField valid
              (show (newEntry given).name = nameField given from rfl)
            refine .modify ⟨given, location, s2, own', isName, valid,
              ⟨created'.between before, created'.still, created.holds, ?_,
                Or.inr ⟨isCreate, absent, created'⟩⟩, ?_⟩
            · rw [created.entry]
              exact named
            · rw [created.entry, show entry = newEntry given from isNew]
              rfl
          · rintro error s2 ⟨own', failed⟩
            have absent1 := absent
            rw [← image] at absent1
            refine ⟨own', (failed.refused between1 absent1).since only.still image
              ?_⟩
            intro why
            rw [image] at why
            refine Or.inr ⟨given, isName, valid, absent, ?_⟩
            cases error
            case exist => exact absurd why absent
            case nospc => exact Or.inr ⟨rfl, isCreate, why.2⟩
            all_goals exact why.elim
        · refine ⟨own, before.refused inv1 only.still image fun _ => ?_⟩
          refine Or.inr ⟨given, isName, valid, absent, Or.inl ⟨rfl, ?_⟩⟩
          simpa using noCreate
  · rintro error s1 ⟨_, loud, inv1, only, image⟩
    exact ⟨own, before.refused inv1 only.still image fun quiet =>
      absurd quiet loud⟩

end Calls

end Katela.Filesystem
