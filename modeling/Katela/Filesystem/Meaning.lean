import Katela.Filesystem.FileCalls
import Katela.Filesystem.FileMap

/-! # The map that a disk stores

Every well-formed filesystem stores a finite map from names to contents, and
its live handles stand for names. The changes of the disk that the functions
make are changes of this map. -/

namespace Katela.Filesystem

/-- The contents of the file in a slot. -/
def bytesOf (F : Format) (image : Image) (own : Ownership)
    (location : Location) : List UInt8 :=
  F.fileBytes image (own (.slot location)) (entryOf image location).size

open Classical in
/-- The contents of the file with a name. -/
noncomputable def contentsOf (F : Format) (image : Image) (own : Ownership)
    (name : CString) : Option (List UInt8) :=
  if found : Exists F image own name then some (bytesOf F image own found.choose)
  else none

open Classical in
/-- The name of the file that a live handle is for. -/
noncomputable def handleNames (live : FileRef → Prop) (s : Fs) (file : FileRef) :
    Option CString :=
  if live file then some (storedName (entryOf s.image (s.files file).location))
  else none

/-- The session that a state stands for. -/
structure Shows (F : Format) (live : FileRef → Prop) (s : Fs) (own : Ownership)
    (session : Session) : Prop where
  contents : session.map.contents = contentsOf F s.image own
  handles : session.handles = handleNames live s

section Contents

variable {F : Format} {image image' : Image} {own own' : Ownership}
variable {name : CString} {location : Location}

theorem contentsOf_of_holds (directory : Directory F image own)
    (held : Holds F image (own .root) location)
    (named : storedName (entryOf image location) = name) :
    contentsOf F image own name = some (bytesOf F image own location) := by
  have found : Exists F image own name := ⟨location, held, named⟩
  have chosen := found.choose_spec
  have same : found.choose = location :=
    directory.distinct _ _ chosen.1 held (chosen.2.trans named.symm)
  unfold contentsOf
  rw [dif_pos found, same]

theorem contentsOf_of_absent (absent : ¬ Exists F image own name) :
    contentsOf F image own name = none := by
  unfold contentsOf
  exact dif_neg absent

theorem contentsOf_eq_none_iff :
    contentsOf F image own name = none ↔ ¬ Exists F image own name := by
  unfold contentsOf
  split
  · rename_i found
    simp [found]
  · rename_i absent
    simp [absent]

theorem KeptAt.bytesOf_eq (directory : Directory F image own)
    (kept : KeptAt F image image' own own' location)
    (held : Holds F image (own .root) location) :
    bytesOf F image' own' location = bytesOf F image own location := by
  unfold bytesOf
  rw [kept.entry held, kept.chain]
  exact Format.fileBytes_congr List.prefix_rfl (directory.size location held)
    kept.data

/-- Names that the changed slot neither had nor has keep their contents. -/
theorem contentsOf_kept (directory : Directory F image own)
    (directory' : Directory F image' own')
    (kept : ∀ other, other ≠ location → KeptAt F image image' own own' other)
    (before : Holds F image (own .root) location →
      storedName (entryOf image location) ≠ name)
    (after : Holds F image' (own' .root) location →
      storedName (entryOf image' location) ≠ name) :
    contentsOf F image' own' name = contentsOf F image own name := by
  by_cases found : Exists F image own name
  · rcases found with ⟨other, held, named⟩
    have different : other ≠ location := by
      rintro rfl
      exact before held named
    have same := kept other different
    have held' := same.holds.mpr held
    have named' : storedName (entryOf image' other) = name := by
      rw [same.entry held]
      exact named
    rw [contentsOf_of_holds directory held named,
      contentsOf_of_holds directory' held' named', same.bytesOf_eq directory held]
  · rw [contentsOf_of_absent found, contentsOf_of_absent]
    rintro ⟨other, held', named'⟩
    have different : other ≠ location := by
      rintro rfl
      exact after held' named'
    have same := kept other different
    have held := same.holds.mp held'
    rw [same.entry held] at named'
    exact found ⟨other, held, named'⟩

/-- The slots of a directory, in order. -/
def Format.slots (F : Format) (root : List Nat) : List Location :=
  root.flatMap fun cluster => (List.range (2 ^ F.shift)).flatMap fun sector =>
    (List.range slotsPerSector).map fun slot => ⟨F.sectorOf cluster + sector, slot⟩

theorem Format.mem_slots (F : Format) (root : List Nat) (location : Location) :
    location ∈ F.slots root ↔ F.InDir root location := by
  simp only [slots, List.mem_flatMap, List.mem_map, List.mem_range, InDir,
    InCluster]
  constructor
  · rintro ⟨cluster, member, sector, less, slot, inside, rfl⟩
    exact ⟨inside, cluster, member, Nat.le_add_right _ _,
      Nat.add_lt_add_left less _⟩
  · rintro ⟨inside, cluster, member, lower, upper⟩
    refine ⟨cluster, member, location.sector - F.sectorOf cluster, by omega,
      location.slot, inside, ?_⟩
    rw [Nat.add_sub_cancel' lower]

/-- Every directory stores a finite map. -/
theorem Directory.fileMap (directory : Directory F image own) :
    ∃ map : FileMap, map.contents = contentsOf F image own := by
  refine ⟨⟨contentsOf F image own, ?_, ?_⟩, rfl⟩
  · intro other bytes found
    have exists' : Exists F image own other := by
      by_contra absent
      rw [contentsOf_of_absent absent] at found
      cases found
    rcases exists' with ⟨place, held, rfl⟩
    exact directory.valid place held
  · refine (List.finite_toSet ((F.slots (own .root)).map
      fun place => storedName (entryOf image place))).subset ?_
    intro other present
    have exists' : Exists F image own other := by
      by_contra absent
      exact present (contentsOf_of_absent absent)
    rcases exists' with ⟨place, held, named⟩
    exact List.mem_map.mpr ⟨place, (F.mem_slots _ place).mpr held.inDir, named⟩

end Contents

/-! ## Changes of the map -/

section Changes

variable {F : Format} {live live' : FileRef → Prop} {s s' : Fs}
variable {own own' : Ownership} {session : Session} {name : CString}
variable {location : Location} {file : FileRef}

theorem handleNames_of_live (isLive : live file) :
    handleNames live s file =
      some (storedName (entryOf s.image (s.files file).location)) :=
  if_pos isLive

theorem handleNames_of_not_live (notLive : ¬ live file) :
    handleNames live s file = none :=
  if_neg notLive

theorem Shows.congr (shows' : Shows F live s own session)
    (image : s'.image = s.image) (files : s'.files = s.files) :
    Shows F live s' own session where
  contents := by
    rw [image]
    exact shows'.contents
  handles := by
    rw [shows'.handles]
    funext file
    simp only [handleNames, image, files]

/-- The map stays and some handles are not used any more. -/
theorem Shows.handles_eq_none (shows' : Shows F live s own session)
    (notLive : ¬ live file) : session.handles file = none := by
  rw [shows'.handles]
  exact handleNames_of_not_live notLive

theorem Shows.handles_eq_some (shows' : Shows F live s own session)
    (isLive : live file) : session.handles file =
      some (storedName (entryOf s.image (s.files file).location)) := by
  rw [shows'.handles]
  exact handleNames_of_live isLive

/-- The open files are in slots other than the changed one. -/
theorem handleNames_kept (inv : Inv F live s own) (files : s'.files = s.files)
    (kept : ∀ other, other ≠ location →
      KeptAt F s.image s'.image own own' other)
    (isLive : live file) (different : (s.files file).location ≠ location) :
    storedName (entryOf s'.image (s'.files file).location) =
      storedName (entryOf s.image (s.files file).location) := by
  rw [files, (kept _ different).entry (inv.handles.opened file isLive).holds]

theorem Created.shows_put (created : Created F live s s' own own' name location)
    (before : Between F live s own) (isValid : nameOk name = true)
    (shows' : Shows F live s own session) :
    Shows F live s' own' (session.put name isValid []) := by
  have named : storedName (entryOf s'.image location) = name := by
    rw [created.entry]
    exact storedName_nameField isValid rfl
  constructor
  · funext other
    by_cases equal : other = name
    · subst equal
      rw [contentsOf_of_holds created.inv.directory created.holds named, bytesOf,
        created.entry]
      exact Function.update_self _ _ _
    · refine (Function.update_of_ne equal _ _).trans ?_
      rw [contentsOf_kept before.inv.directory created.inv.directory created.kept
        (fun held => absurd held created.fresh)
        (fun _ same => equal (same.symm.trans named))]
      exact congrFun shows'.contents other
  · refine shows'.handles.trans (funext fun file => ?_)
    by_cases isLive : live file
    · rw [handleNames_of_live isLive, handleNames_of_live isLive]
      rw [handleNames_kept before.inv created.still.files created.kept isLive]
      intro here
      have held := (before.inv.handles.opened file isLive).holds
      rw [here] at held
      exact created.fresh held
    · rw [handleNames_of_not_live isLive, handleNames_of_not_live isLive]

theorem Removed.shows_remove
    (removed : Removed F live s s' own own' name location)
    (before : Between F live s own) (shows' : Shows F live s own session) :
    Shows F (remaining live s') s' own' (session.remove name) := by
  have inv' := removed.between.inv
  constructor
  · funext other
    by_cases equal : other = name
    · subst equal
      have absent : ¬ Exists F s'.image own' other := by
        rintro ⟨place, held, named⟩
        have different : place ≠ location := by
          rintro rfl
          exact removed.gone held.used
        have same := removed.kept place different
        have old := same.holds.mp held
        rw [same.entry old] at named
        exact different (before.inv.directory.distinct place location old
          removed.held (named.trans removed.named.symm))
      rw [contentsOf_of_absent absent]
      exact Function.update_self _ _ _
    · refine (Function.update_of_ne equal _ _).trans ?_
      rw [contentsOf_kept before.inv.directory inv'.directory removed.kept
        (fun _ same => equal (same.symm.trans removed.named))
        (fun held => absurd held.used removed.gone)]
      exact congrFun shows'.contents other
  · funext file
    by_cases isLive : live file
    · have held := (before.inv.handles.opened file isLive).holds
      have isNamed := shows'.handles_eq_some isLive
      by_cases here : (s.files file).location = location
      · have gone : ¬ remaining live s' file := by
          rintro ⟨_, used⟩
          rw [removed.still.files, here] at used
          exact removed.gone used
        rw [handleNames_of_not_live gone]
        refine if_pos ?_
        rw [isNamed, here, removed.named]
      · have still : remaining live s' file := by
          refine ⟨isLive, ?_⟩
          rw [removed.still.files]
          exact ((removed.kept _ here).holds.mpr held).used
        rw [handleNames_of_live still,
          handleNames_kept before.inv removed.still.files removed.kept isLive here,
          ← isNamed]
        refine if_neg ?_
        rw [isNamed]
        intro same
        injection same with same
        exact here (before.inv.directory.distinct _ location held removed.held
          (same.trans removed.named.symm))
    · have gone : ¬ remaining live s' file := fun still => isLive still.1
      rw [handleNames_of_not_live gone]
      refine (if_neg ?_).trans (shows'.handles_eq_none isLive)
      rw [shows'.handles_eq_none isLive]
      simp

theorem Renamed.shows_rename {source target : CString}
    (renamed : Renamed F live s s' own own' source target location)
    (before : Between F live s own) (isValid : nameOk target = true)
    (absent : ¬ Exists F s.image own target)
    (shows' : Shows F live s own session) :
    Shows F live s' own' (session.rename source target isValid
        (bytesOf F s.image own location)) ∧
      session.map.contents source = some (bytesOf F s.image own location) := by
  have inv' := renamed.between.inv
  have different : source ≠ target := by
    rintro rfl
    exact absent ⟨location, renamed.held, renamed.named⟩
  have bytes : bytesOf F s'.image own' location = bytesOf F s.image own location := by
    unfold bytesOf
    rw [renamed.size, renamed.chain]
    exact Format.fileBytes_congr List.prefix_rfl
      (before.inv.directory.size location renamed.held) renamed.data
  refine ⟨⟨?_, ?_⟩, ?_⟩
  · funext other
    by_cases isTarget : other = target
    · subst isTarget
      rw [contentsOf_of_holds inv'.directory renamed.holds renamed.renamed, bytes]
      exact Function.update_self _ _ _
    · refine (Function.update_of_ne isTarget _ _).trans ?_
      by_cases isSource : other = source
      · subst isSource
        have gone : ¬ Exists F s'.image own' other := by
          rintro ⟨place, held, named⟩
          have elsewhere : place ≠ location := by
            rintro rfl
            exact isTarget (named.symm.trans renamed.renamed)
          have same := renamed.kept place elsewhere
          have old := same.holds.mp held
          rw [same.entry old] at named
          exact elsewhere (before.inv.directory.distinct place location old
            renamed.held (named.trans renamed.named.symm))
        rw [contentsOf_of_absent gone]
        exact Function.update_self _ _ _
      · refine (Function.update_of_ne isSource _ _).trans ?_
        rw [contentsOf_kept before.inv.directory inv'.directory renamed.kept
          (fun _ same => isSource (same.symm.trans renamed.named))
          (fun _ same => isTarget (same.symm.trans renamed.renamed))]
        exact congrFun shows'.contents other
  · funext file
    by_cases isLive : live file
    · have held := (before.inv.handles.opened file isLive).holds
      have isNamed := shows'.handles_eq_some isLive
      rw [handleNames_of_live isLive]
      by_cases here : (s.files file).location = location
      · rw [renamed.still.files, here, renamed.renamed]
        refine if_pos ?_
        rw [isNamed, here, renamed.named]
      · rw [handleNames_kept before.inv renamed.still.files renamed.kept isLive
          here, ← isNamed]
        refine if_neg ?_
        rw [isNamed]
        intro same
        injection same with same
        exact here (before.inv.directory.distinct _ location held renamed.held
          (same.trans renamed.named.symm))
    · rw [handleNames_of_not_live isLive]
      refine (if_neg ?_).trans (shows'.handles_eq_none isLive)
      rw [shows'.handles_eq_none isLive]
      simp
  · rw [shows'.contents]
    exact contentsOf_of_holds before.inv.directory renamed.held renamed.named

/-! ## Open files -/

/-- The map does not depend on chains that only handles have. -/
theorem contentsOf_congr {image : Image} (root : own' .root = own .root)
    (slots : ∀ location, own' (.slot location) = own (.slot location)) :
    contentsOf F image own' = contentsOf F image own := by
  have bytes : bytesOf F image own' = bytesOf F image own := by
    funext place
    simp only [bytesOf, slots]
  funext other
  unfold contentsOf Exists
  rw [bytes, root]

theorem Closed.contentsOf_eq {image : Image} (closed : Closed own own') :
    contentsOf F image own' = contentsOf F image own :=
  contentsOf_congr closed.root closed.slots

theorem Shows.attach {own1 : Ownership} (inv : Inv F live s own)
    (held : Holds F s.image (own .root) location)
    (named : storedName (entryOf s.image location) = name)
    (closed : Closed own own1) (shows' : Shows F live s own session) :
    Shows F (openedLive live s file location)
      (s.setFile file fun _ => opened location (entryOf s.image location)) own1
      (session.attach file name) := by
  constructor
  · refine shows'.contents.trans ?_
    exact closed.contentsOf_eq.symm
  · funext other
    by_cases equal : other = file
    · subst equal
      rw [handleNames_of_live (Or.inl rfl), Fs.setFile_files_self]
      refine (Function.update_self _ _ _).trans ?_
      rw [← named]
      rfl
    · refine (Function.update_of_ne equal _ _).trans ?_
      by_cases isLive : live other
      · have isNamed := shows'.handles_eq_some isLive
        by_cases here : (s.files other).location = location
        · have gone : ¬ openedLive live s file location other := by
            rintro (isFile | ⟨_, _, elsewhere⟩)
            · exact equal isFile
            · exact elsewhere here
          rw [handleNames_of_not_live gone]
          refine if_pos ?_
          rw [isNamed, here, named]
        · rw [handleNames_of_live (Or.inr ⟨isLive, equal, here⟩),
            Fs.setFile_files_of_ne _ _ equal]
          refine (if_neg ?_).trans isNamed
          rw [isNamed]
          intro same
          injection same with same
          exact here (inv.directory.distinct _ location
            (inv.handles.opened other isLive).holds held (same.trans named.symm))
      · have gone : ¬ openedLive live s file location other := by
          rintro (isFile | ⟨still, _⟩)
          · exact equal isFile
          · exact isLive still
        rw [handleNames_of_not_live gone]
        refine (if_neg ?_).trans (shows'.handles_eq_none isLive)
        rw [shows'.handles_eq_none isLive]
        simp

/-- The handles of one name are not used any more. -/
theorem Shows.detach {own1 : Ownership} (closed : Closed own own1)
    (shows' : Shows F live s own session)
    (sameLive : ∀ file, live' file ↔ live file ∧
      storedName (entryOf s.image (s.files file).location) ≠ name) :
    Shows F live' s own1 (session.detach name) := by
  constructor
  · exact shows'.contents.trans closed.contentsOf_eq.symm
  · funext file
    by_cases isLive : live file
    · have isNamed := shows'.handles_eq_some isLive
      by_cases equal : storedName (entryOf s.image (s.files file).location) = name
      · have gone : ¬ live' file := fun still => ((sameLive file).mp still).2 equal
        rw [handleNames_of_not_live gone]
        refine if_pos ?_
        rw [isNamed, equal]
      · rw [handleNames_of_live ((sameLive file).mpr ⟨isLive, equal⟩), ← isNamed]
        refine if_neg ?_
        rw [isNamed]
        simpa using equal
    · have gone : ¬ live' file := fun still => isLive ((sameLive file).mp still).1
      rw [handleNames_of_not_live gone]
      refine (if_neg ?_).trans (shows'.handles_eq_none isLive)
      rw [shows'.handles_eq_none isLive]
      simp

/-- The contents of an open file. -/
def openBytes (F : Format) (s : Fs) (own : Ownership) (file : FileRef) :
    List UInt8 :=
  F.fileBytes s.image (chainOf s own file) (s.files file).size

/-- Without failing transfers a handle shows its file as the directory does. -/
theorem Between.bytesOf_eq (between : Between F live s own) (quiet : s.Quiet)
    (isLive : live file) :
    bytesOf F s.image own (s.files file).location = openBytes F s own file := by
  have synced := between.synced quiet file isLive
  have owner : ownerOf s.image file (s.files file) =
      .slot (s.files file).location := if_pos synced.1
  unfold bytesOf openBytes chainOf
  rw [owner, synced.2]

/-- The name under which the file of a handle is in the map. -/
structure Named (session : Session) (file : FileRef) (name : CString)
    (bytes : List UInt8) : Prop where
  isValid : nameOk name = true
  opened : session.handles file = some name
  present : session.map.contents name = some bytes

theorem Shows.named (between : Between F live s own) (quiet : s.Quiet)
    (isLive : live file) (shows' : Shows F live s own session) :
    Named session file (storedName (entryOf s.image (s.files file).location))
      (openBytes F s own file) := by
  have held := (between.inv.handles.opened file isLive).holds
  refine ⟨between.inv.directory.valid _ held, shows'.handles_eq_some isLive, ?_⟩
  rw [shows'.contents, contentsOf_of_holds between.inv.directory held rfl,
    between.bytesOf_eq quiet isLive]

theorem Advanced.shows_put (advanced : Advanced F live file s s' own own')
    (before : Between F live s own) (quiet : s.Quiet) (isLive : live file)
    (shows' : Shows F live s own session)
    (isValid : nameOk name = true)
    (named : storedName (entryOf s.image (s.files file).location) = name) :
    Shows F live s' own' (session.put name isValid (openBytes F s' own' file)) := by
  have between' := advanced.between
  have held' := (between'.inv.handles.opened file isLive).holds
  have held := (before.inv.handles.opened file isLive).holds
  have named' : storedName (entryOf s'.image (s'.files file).location) = name := by
    rw [advanced.location, ← named]
    simp only [storedName, advanced.name]
  constructor
  · funext other
    by_cases equal : other = name
    · subst equal
      rw [contentsOf_of_holds between'.inv.directory held' named',
        between'.bytesOf_eq (advanced.same.quiet quiet) isLive]
      exact Function.update_self _ _ _
    · refine (Function.update_of_ne equal _ _).trans ?_
      rw [contentsOf_kept before.inv.directory between'.inv.directory advanced.kept
        (fun _ same => equal (same.symm.trans named)) ?_]
      · exact congrFun shows'.contents other
      · intro _ same
        rw [← advanced.location] at same
        exact equal (same.symm.trans named')
  · refine shows'.handles.trans (funext fun other => ?_)
    by_cases otherLive : live other
    · rw [handleNames_of_live otherLive, handleNames_of_live otherLive]
      by_cases equal : other = file
      · subst equal
        rw [named', named]
      · have apart : (s.files other).location ≠ (s.files file).location :=
          fun same => equal (before.inv.handles.single other file otherLive isLive
            same)
        rw [advanced.files other equal, (advanced.kept _ apart).entry
          (before.inv.handles.opened other otherLive).holds]
    · rw [handleNames_of_not_live otherLive, handleNames_of_not_live otherLive]

theorem Session.put_same {bytes : List UInt8} (isValid : nameOk name = true)
    (present : session.map.contents name = some bytes) :
    session.put name isValid bytes = session := by
  have same : session.map.put name isValid bytes = session.map := by
    apply FileMap.ext
    exact Function.update_eq_self_iff.mpr present.symm
  unfold Session.put
  rw [same]

/-- A file that was only looked at. -/
theorem Visited.advanced (before : Between F live s own) (isLive : live file)
    (visited : Visited F live file s s' own own') :
    Advanced F live file s s' own own' ∧
      openBytes F s' own' file = openBytes F s own file := by
  have worked := visited.worked
  have aside := worked.aside before.inv isLive
  have opened := before.inv.handles.opened file isLive
  have opened' := worked.inv.handles.opened file isLive
  have first : (s'.files file).first = (s.files file).first := by
    rw [← opened.first, ← opened'.first]
    exact congrArg firstOf visited.chain
  have agrees : s'.Quiet → Agrees s' file := by
    intro quiet
    have synced := before.synced (worked.same.quiet_before quiet) file isLive
    constructor
    · rw [aside.location, aside.entry, first]
      exact synced.1.symm
    · rw [aside.location, aside.entry, worked.size]
      exact synced.2.symm
  refine ⟨aside.advanced before isLive (worked.spare.trans before.spare) ?_
    agrees, ?_⟩
  · intro quiet
    exact opened'.shown (if_pos (agrees quiet).first.symm)
  · unfold openBytes Format.fileBytes
    rw [worked.size]
    exact List.map_congr_left fun position _ => visited.byteAt_eq position

/-! ## Bytes -/

theorem Format.take_fileBytes (F : Format) (image : Image) (cells : List Nat)
    {target size : Nat} (shorter : target ≤ size) :
    (F.fileBytes image cells size).take target =
      F.fileBytes image cells target := by
  unfold fileBytes
  rw [← List.map_take, List.take_range, Nat.min_eq_left shorter]

theorem Format.getElem?_fileBytes (F : Format) (image : Image)
    (cells : List Nat) (size index : Nat) :
    (F.fileBytes image cells size)[index]? =
      if index < size then some (F.byteAt image cells index) else none := by
  unfold fileBytes
  rw [List.getElem?_map]
  split
  · rename_i less
    rw [List.getElem?_range less]
    rfl
  · rename_i more
    rw [List.getElem?_eq_none (by rw [List.length_range]; omega)]
    rfl

theorem getElem?_overwrite {bytes : List UInt8} {offset : Nat}
    (inside : offset ≤ bytes.length) (data : List UInt8) (index : Nat) :
    (overwrite bytes offset data)[index]? =
      if offset ≤ index ∧ index < offset + data.length then data[index - offset]?
      else bytes[index]? := by
  have front : (bytes.take offset).length = offset := List.length_take_of_le inside
  unfold overwrite
  rw [List.append_assoc, List.getElem?_append, front]
  by_cases early : index < offset
  · rw [if_pos early, if_neg (by omega), List.getElem?_take_of_lt early]
  · rw [if_neg early, List.getElem?_append]
    by_cases late : index - offset < data.length
    · rw [if_pos late, if_pos (by omega)]
    · rw [if_neg late, if_neg (by omega), List.getElem?_drop]
      congr 1
      omega

theorem Written.openBytes_eq {offset done : Nat} {source : Nat → UInt8}
    (written : Written F live file s s' own own' offset done source)
    (before : Between F live s own) (isLive : live file) (quiet : s.Quiet)
    (start : offset ≤ (s.files file).size) :
    openBytes F s' own' file =
      overwrite (openBytes F s own file) offset (bufferBytes source done) := by
  have wrote := written.wrote quiet
  have size := (before.inv.handles.opened file isLive).size
  have length : (openBytes F s own file).length = (s.files file).size :=
    Format.length_fileBytes _ _ _
  have stored : (bufferBytes source done).length = done := by simp [bufferBytes]
  apply List.ext_getElem?
  intro index
  rw [getElem?_overwrite (by omega), stored]
  unfold openBytes
  rw [F.getElem?_fileBytes, F.getElem?_fileBytes, written.size]
  by_cases inside : offset ≤ index ∧ index < offset + done
  · have new := wrote.new (index - offset) (by omega)
    rw [Nat.add_sub_cancel' inside.1] at new
    have less : index - offset < done := by omega
    rw [if_pos (by omega), if_pos inside, new, bufferBytes, List.getElem?_map,
      List.getElem?_range less]
    rfl
  · rw [if_neg inside]
    by_cases known : index < (s.files file).size
    · rw [if_pos (by omega), if_pos known]
      rw [wrote.old index (Nat.lt_of_lt_of_le known size) (by omega)]
    · rw [if_neg (by omega), if_neg known]

end Changes

end Katela.Filesystem
