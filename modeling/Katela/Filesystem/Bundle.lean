import Katela.Filesystem.Space

/-! # Bundled files

`bundle_install` stores the files of a table that do not exist yet. It looks only at
their names, so a file that did not fit on the disk stays as it is. -/

namespace Katela.Filesystem

/-- An entry of the table; `start` is the memory from its start on. -/
structure BundleEntry where
  name : CString
  start : Nat → UInt8
  size : UInt32

/-- The contents of the file. -/
def BundleEntry.bytes (entry : BundleEntry) : List UInt8 :=
  bufferBytes entry.start entry.size.toNat

/-- `bundle_install` without its messages; `file` is its local handle. -/
def bundleInstall (file : Nat) : List BundleEntry → FsM Unit
  | [] => pure ()
  | entry :: rest => do
      match ← attempt (fsOpen (some entry.name) (.caller file) false) with
      | .error .noent => do
          let _ ← attempt (fsWriteAll (some entry.name) entry.start entry.size.toNat)
          bundleInstall file rest
      | _ => bundleInstall file rest

/-- The contents that the table has for a name. -/
def bundled : List BundleEntry → CString → Option (List UInt8)
  | [], _ => none
  | entry :: rest, name => if entry.name = name then some entry.bytes else bundled rest name

/-- Existing files are unchanged, and a new file is the bundled one or does not exist. -/
def WholeOrAbsent (table : List BundleEntry) (before after : CString → Option (List UInt8)) :
    Prop :=
  ∀ name, (before name ≠ none → after name = before name) ∧
    (before name = none → after name = none ∨ after name = bundled table name)

/-- Whether every file that is created fits, with `free` clusters and `vacant` slots of the
directory left. -/
def Fits (F : Format) : (present : CString → Prop) → (free vacant : Nat) →
    List BundleEntry → Prop
  | _, _, _, [] => True
  | present, free, vacant, entry :: rest =>
      (present entry.name → Fits F present free vacant rest) ∧
      (¬ present entry.name →
        (vacant = 0 → free = 0 ∨ F.keeps entry.size.toNat + 1 ≤ free ∧
          Fits F (fun name => name = entry.name ∨ present name)
            (free - (F.keeps entry.size.toNat + 1)) (F.clusterSlots - 1) rest) ∧
        (vacant ≠ 0 → F.keeps entry.size.toNat ≤ free ∧
          Fits F (fun name => name = entry.name ∨ present name)
            (free - F.keeps entry.size.toNat) (vacant - 1) rest))

/-- Clusters that are enough for all files of the table. -/
def needed (F : Format) (table : List BundleEntry) : Nat :=
  (table.map fun entry => F.keeps entry.size.toNat + 1).sum

section Installing

variable {F : Format} {s s' : Fs} {own own' : Ownership} {file : Nat}
variable {entry : BundleEntry} {rest table : List BundleEntry}

/-- Nothing is created when there is neither a slot nor a cluster. -/
theorem fits_of_full (present : CString → Prop) (table : List BundleEntry) :
    Fits F present 0 0 table := by
  induction table with
  | nil => exact trivial
  | cons entry rest induction =>
      exact ⟨fun _ => induction, fun _ => ⟨fun _ => Or.inl rfl, fun some => absurd rfl some⟩⟩

/-- The room for an entry that does not exist yet. -/
theorem fits_cons_of_absent {present : CString → Prop} {free vacant : Nat}
    (absent : ¬ present entry.name) :
    Fits F present free vacant (entry :: rest) ↔
      (vacant = 0 → free = 0 ∨ F.keeps entry.size.toNat + 1 ≤ free ∧
        Fits F (fun name => name = entry.name ∨ present name)
          (free - (F.keeps entry.size.toNat + 1)) (F.clusterSlots - 1) rest) ∧
      (vacant ≠ 0 → F.keeps entry.size.toNat ≤ free ∧
        Fits F (fun name => name = entry.name ∨ present name)
          (free - F.keeps entry.size.toNat) (vacant - 1) rest) :=
  ⟨fun fits => fits.2 absent, fun fits => ⟨fun isPresent => absurd isPresent absent,
    fun _ => fits⟩⟩

/-- A mounted filesystem while no handle is in use. -/
structure Idle (F : Format) (s : Fs) (own : Ownership) : Prop where
  ready : Ready F (fun _ => False) s own
  quiet : s.Quiet

/-- The files of a filesystem. -/
noncomputable def filesOf (F : Format) (s : Fs) (own : Ownership) :
    CString → Option (List UInt8) :=
  contentsOf F s.image own

/-- The state stands for the same filesystem as before. -/
structure Unchanged (F : Format) (s s' : Fs) (own own' : Ownership) : Prop where
  image : s'.image = s.image
  root : own' .root = own .root
  slots : ∀ location, own' (.slot location) = own (.slot location)

theorem Idle.shows (idle : Idle F s own) :
    ∃ session, Shows F (fun _ => False) s own session := by
  rcases idle.ready.between.inv.directory.fileMap with ⟨map, isMap⟩
  exact ⟨⟨map, fun _ => none⟩, isMap, funext fun file => (handleNames_of_not_live id).symm⟩

/-- What `bundle_install` finds out about a name. -/
theorem fsOpen_probe (idle : Idle F s own) {name : CString} (valid : nameOk name = true) :
    Meets (fsOpen (some name) (.caller file) false) s
      (fun _ s' => filesOf F s own name ≠ none ∧ ∃ own', Idle F s' own' ∧
        Unchanged F s s' own own')
      fun error s' => error = .noent ∧ filesOf F s own name = none ∧ ∃ own', Idle F s' own' ∧
        Unchanged F s s' own own' := by
  refine (fsOpen_spec idle.ready (some name) (.caller file) false).mono ?_ ?_
  · rintro _ s1 ⟨clean, given, location, own1, isName, _, opened⟩
    injection isName with isName
    subst isName
    have image := opened.unchanged rfl
    rcases opened.between.restrict (fun _ (impossible : False) => impossible.elim) with
      ⟨own2, closed, between⟩
    have ready2 := idle.ready.unfinished between opened.same fun _ => clean
    have volume := ready2.between.inv.volume
    rw [image] at volume
    rcases idle.ready.between.inv.volume.unique volume with ⟨root, slots⟩
    refine ⟨?_, own2, ⟨ready2, opened.same.quiet idle.quiet⟩, image, root, slots⟩
    rcases idle.shows with ⟨session, shown⟩
    rcases opened.session session idle.quiet shown with ⟨present, _⟩ | ⟨impossible, _⟩
    · rw [shown.contents] at present
      exact present
    · cases impossible
  · rintro error s1 ⟨own1, failed⟩
    rcases failed.why idle.quiet with ⟨⟨_, bad⟩ | ⟨given, isName, _, absent, ⟨isError, _⟩ |
      ⟨_, impossible, _⟩⟩, image, _, rfl⟩
    · rw [bad name rfl] at valid
      cases valid
    · injection isName with isName
      subst isName
      have quiet1 := failed.same.quiet idle.quiet
      have ready1 := idle.ready.unfinished failed.between failed.same fun _ =>
        failed.clean idle.quiet
      refine ⟨isError, contentsOf_of_absent absent, own1, ⟨ready1.live_congr fun file => ?_,
        quiet1⟩, image, rfl, fun _ => rfl⟩
      exact ⟨False.elim, fun both => both.1⟩
    · cases impossible

/-- The room on the disk: free clusters and vacant slots of the directory. -/
def freeOf (F : Format) (s : Fs) : Nat := freeClusters F s.image

def vacantOf (F : Format) (s : Fs) (own : Ownership) : Nat :=
  vacantSlots F s.image (own .root)

theorem Unchanged.files (unchanged : Unchanged F s s' own own') :
    filesOf F s' own' = filesOf F s own := by
  unfold filesOf
  rw [unchanged.image]
  exact contentsOf_congr unchanged.root unchanged.slots

theorem Unchanged.free (unchanged : Unchanged F s s' own own') : freeOf F s' = freeOf F s := by
  unfold freeOf
  rw [unchanged.image]

theorem Unchanged.vacant (unchanged : Unchanged F s s' own own') :
    vacantOf F s' own' = vacantOf F s own := by
  unfold vacantOf
  rw [unchanged.image, unchanged.root]

/-- A new file took so many clusters and a slot, which may have cost another cluster. -/
def Takes (F : Format) (clusters : Nat) (s s' : Fs) (own own' : Ownership) : Prop :=
  vacantOf F s own ≠ 0 ∧ freeOf F s' + clusters = freeOf F s ∧
      vacantOf F s' own' + 1 = vacantOf F s own ∨
    vacantOf F s own = 0 ∧ freeOf F s' + (clusters + 1) = freeOf F s ∧
      vacantOf F s' own' + 1 = F.clusterSlots

theorem Filled.takes {name : CString} {length : Nat} {location : Location}
    (idle : Idle F s own) (idle' : Idle F s' own')
    (filled : Filled F s s' own own' name length location)
    (absent : ¬ Exists F s.image own name) : Takes F (F.keeps length) s s' own own' := by
  have volume := idle.ready.between.inv.volume
  have fresh : ¬ Holds F s.image (own .root) location :=
    fun held => absent ⟨location, held, filled.before held⟩
  have free := filled.free idle.ready idle'.ready idle.quiet idle'.quiet
  rw [filled.chain fun held => absurd held fresh, volume.directory.vacant location fresh,
    List.length_nil] at free
  unfold Takes freeOf vacantOf
  rcases filled.rewritten.root with ⟨held, _⟩ | ⟨_, same | ⟨⟨cluster, grown, only⟩, noSlot⟩⟩
  · exact absurd held fresh
  · have vacant := filled.rewritten.vacant_of_same volume.nodup_slots fresh same
    rw [same] at free
    exact Or.inl ⟨by omega, by omega, vacant⟩
  · have vacant := filled.rewritten.vacant_of_grown filled.volume grown only fresh noSlot
    rw [grown, List.length_append, List.length_singleton] at free
    exact Or.inr ⟨vacant.1, by omega, vacant.2⟩

/-- What becomes of an entry that does not exist yet. -/
theorem fsWriteAll_bundled (idle : Idle F s own) (valid : nameOk entry.name = true)
    (absent : filesOf F s own entry.name = none) :
    Meets (fsWriteAll (some entry.name) entry.start entry.size.toNat) s
      (fun _ s' => ∃ own', Idle F s' own' ∧
        filesOf F s' own' = Function.update (filesOf F s own) entry.name (some entry.bytes) ∧
        Takes F (F.keeps entry.size.toNat) s s' own own')
      fun _ s' => ∃ own', Idle F s' own' ∧
        (Unchanged F s s' own own' ∧ freeOf F s = 0 ∧ vacantOf F s own = 0 ∨
          ∃ stored clusters, stored < entry.size.toNat ∧
            clusters < F.keeps entry.size.toNat ∧ freeOf F s' = 0 ∧
            filesOf F s' own' = Function.update (filesOf F s own) entry.name
              (some (bufferBytes entry.start stored)) ∧
            Takes F clusters s s' own own') := by
  rcases idle.shows with ⟨session, shown⟩
  have notExists : ¬ Exists F s.image own entry.name := contentsOf_eq_none_iff.mp absent
  have closed : ∀ file, False ↔ otherNames (fun _ => False) s (some entry.name) file :=
    fun file => ⟨False.elim, fun other => other.1⟩
  refine (fsWriteAll_step idle.ready id idle.quiet shown valid entry.start entry.size).mono
    ?_ ?_
  · rintro _ s' ⟨same, own', location, ready', filled, contents⟩
    have idle' : Idle F s' own' := ⟨ready'.live_congr closed, same.quiet idle.quiet⟩
    exact ⟨own', idle', contents, filled.takes idle idle' notExists⟩
  · rintro error s' ⟨_, same, own', ready', lacking⟩
    have idle' : Idle F s' own' := ⟨ready'.live_congr closed, same.quiet idle.quiet⟩
    refine ⟨own', idle', ?_⟩
    cases lacking with
    | noSlot _ full noSlot image contents =>
        have volume' := ready'.between.inv.volume
        rw [image] at volume'
        rcases idle.ready.between.inv.volume.unique volume' with ⟨root, slots⟩
        exact Or.inl ⟨⟨image, root, slots⟩, freeClusters_eq_zero_iff.mpr full,
          (vacantSlots_eq_zero_iff _).mpr noSlot⟩
    | @noCluster location stored part filled full reached contents =>
        have fresh : SnugAt F s.image own location :=
          fun held => absurd ⟨location, held, filled.before held⟩ notExists
        rw [filled.chain fresh] at reached
        have fewer : F.keeps stored * F.clusterBytes <
            F.keeps entry.size.toNat * F.clusterBytes :=
          Nat.lt_of_le_of_lt reached (Nat.lt_of_lt_of_le part (F.le_keeps _))
        exact Or.inr ⟨stored, F.keeps stored, part, Nat.lt_of_mul_lt_mul_right fewer,
          freeClusters_eq_zero_iff.mpr full, contents, filled.takes idle idle' notExists⟩

/-- What is known after a run over a table. -/
structure Installs (F : Format) (table : List BundleEntry) (s s' : Fs)
    (own own' : Ownership) : Prop where
  idle : Idle F s' own'
  kept : ∀ name, filesOf F s own name ≠ none → filesOf F s' own' name = filesOf F s own name
  whole : WholeOrAbsent table (filesOf F s own) (filesOf F s' own') ↔
    Fits F (fun name => filesOf F s own name ≠ none) (freeOf F s) (vacantOf F s own) table
  full : freeOf F s = 0 → vacantOf F s own = 0 → filesOf F s' own' = filesOf F s own
  present : needed F table ≤ freeOf F s →
    ∀ name, bundled table name ≠ none → filesOf F s' own' name ≠ none

theorem Installs.since {s1 : Fs} {own1 : Ownership}
    (installs : Installs F table s1 s' own1 own') (unchanged : Unchanged F s s1 own own1) :
    Installs F table s s' own own' := by
  have files := unchanged.files
  refine ⟨installs.idle, ?_, ?_, ?_, ?_⟩
  · rw [← files]
    exact installs.kept
  · rw [← files, ← unchanged.free, ← unchanged.vacant]
    exact installs.whole
  · rw [← files, ← unchanged.free, ← unchanged.vacant]
    exact installs.full
  · rw [← unchanged.free]
    exact installs.present

theorem bundled_cons_of_ne {name : CString} (different : name ≠ entry.name) :
    bundled (entry :: rest) name = bundled rest name := by
  rw [bundled, if_neg fun equal => different equal.symm]

theorem needed_cons (entry : BundleEntry) (rest : List BundleEntry) :
    needed F (entry :: rest) = F.keeps entry.size.toNat + 1 + needed F rest := by
  simp only [needed, List.map_cons, List.sum_cons]

/-- An entry that exists is skipped. -/
theorem Installs.skip (installs : Installs F rest s s' own own')
    (present : filesOf F s own entry.name ≠ none) :
    Installs F (entry :: rest) s s' own own' := by
  refine ⟨installs.idle, installs.kept, ?whole, installs.full, ?present⟩
  case present =>
    intro enough name isBundled
    rw [needed_cons] at enough
    by_cases equal : name = entry.name
    · subst equal
      rw [installs.kept _ present]
      exact present
    · rw [bundled_cons_of_ne equal] at isBundled
      exact installs.present (by omega) name isBundled
  have table : WholeOrAbsent (entry :: rest) (filesOf F s own) (filesOf F s' own') ↔
      WholeOrAbsent rest (filesOf F s own) (filesOf F s' own') := by
    refine forall_congr' fun name => and_congr_right fun _ => ?_
    by_cases equal : name = entry.name
    · subst equal
      exact ⟨fun _ absent => absurd absent present, fun _ absent => absurd absent present⟩
    · rw [bundled_cons_of_ne equal]
  rw [table, installs.whole]
  exact ⟨fun fits => ⟨fun _ => fits, fun absent => absurd present absent⟩,
    fun fits => fits.1 present⟩

/-- A disk that is full before the entry stays as it is. -/
theorem Installs.without (installs : Installs F rest s s' own own') (free : freeOf F s = 0)
    (vacant : vacantOf F s own = 0) : Installs F (entry :: rest) s s' own own' := by
  have same := installs.full free vacant
  refine ⟨installs.idle, installs.kept, iff_of_true ?_ ?_, installs.full, ?_⟩
  · rw [same]
    exact fun name => ⟨fun _ => rfl, Or.inl⟩
  · rw [free, vacant]
    exact fits_of_full _ _
  · intro enough
    rw [needed_cons] at enough
    omega

/-- The entry exists after its step, whatever fitted. -/
theorem Installs.kept_since {s1 : Fs} {own1 : Ownership} {bytes : List UInt8}
    (installs : Installs F rest s1 s' own1 own')
    (absent : filesOf F s own entry.name = none)
    (files : filesOf F s1 own1 = Function.update (filesOf F s own) entry.name (some bytes)) :
    filesOf F s' own' entry.name = some bytes ∧
      ∀ name, filesOf F s own name ≠ none →
        filesOf F s' own' name = filesOf F s own name := by
  constructor
  · rw [installs.kept, files, Function.update_self]
    rw [files, Function.update_self]
    exact Option.some_ne_none _
  · intro name present
    have different : name ≠ entry.name := by
      rintro rfl
      exact present absent
    rw [installs.kept, files, Function.update_of_ne different]
    rw [files, Function.update_of_ne different]
    exact present

theorem Takes.not_full {clusters : Nat} (takes : Takes F clusters s s' own own') :
    freeOf F s = 0 → vacantOf F s own ≠ 0 := by
  rcases takes with ⟨some, _⟩ | ⟨_, free, _⟩
  · exact fun _ => some
  · intro none
    omega

/-- The entry was stored whole. -/
theorem Installs.whole_since {s1 : Fs} {own1 : Ownership}
    (installs : Installs F rest s1 s' own1 own')
    (absent : filesOf F s own entry.name = none)
    (files : filesOf F s1 own1 =
      Function.update (filesOf F s own) entry.name (some entry.bytes))
    (takes : Takes F (F.keeps entry.size.toNat) s s1 own own1) :
    Installs F (entry :: rest) s s' own own' := by
  rcases installs.kept_since absent files with ⟨stored, kept⟩
  refine ⟨installs.idle, kept, ?whole, fun free vacant => absurd vacant (takes.not_full free),
    ?present⟩
  case present =>
    intro enough name isBundled
    rw [needed_cons] at enough
    by_cases equal : name = entry.name
    · rw [equal, stored]
      exact Option.some_ne_none _
    · rw [bundled_cons_of_ne equal] at isBundled
      refine installs.present ?_ name isBundled
      rcases takes with ⟨_, free, _⟩ | ⟨_, free, _⟩
      · omega
      · omega
  have table : WholeOrAbsent (entry :: rest) (filesOf F s own) (filesOf F s' own') ↔
      WholeOrAbsent rest (filesOf F s1 own1) (filesOf F s' own') := by
    refine forall_congr' fun name => ?_
    by_cases equal : name = entry.name
    · subst equal
      rw [files, Function.update_self, stored, bundled, if_pos rfl]
      simp [absent]
    · rw [files, Function.update_of_ne equal, bundled_cons_of_ne equal]
  have present : (fun name => filesOf F s1 own1 name ≠ none) =
      fun name => name = entry.name ∨ filesOf F s own name ≠ none := by
    funext name
    rw [files]
    by_cases equal : name = entry.name
    · simp [equal]
    · simp [equal]
  rw [table, installs.whole, present, fits_cons_of_absent (not_not.mpr absent)]
  rcases takes with ⟨some, free, vacant⟩ | ⟨none, free, vacant⟩
  · rw [show freeOf F s - F.keeps entry.size.toNat = freeOf F s1 by omega,
      show vacantOf F s own - 1 = vacantOf F s1 own1 by omega]
    constructor
    · exact fun fits => ⟨fun isNone => absurd isNone some, fun _ => ⟨by omega, fits⟩⟩
    · exact fun fits => (fits.2 some).2
  · rw [show freeOf F s - (F.keeps entry.size.toNat + 1) = freeOf F s1 by omega,
      show F.clusterSlots - 1 = vacantOf F s1 own1 by omega]
    constructor
    · exact fun fits => ⟨fun _ => Or.inr ⟨by omega, fits⟩, fun isSome => absurd none isSome⟩
    · intro fits
      rcases fits.1 none with isZero | ⟨_, fits⟩
      · omega
      · exact fits

/-- Only the first bytes of the entry were stored. -/
theorem Installs.part_since {s1 : Fs} {own1 : Ownership} {stored clusters : Nat}
    (installs : Installs F rest s1 s' own1 own')
    (absent : filesOf F s own entry.name = none) (part : stored < entry.size.toNat)
    (files : filesOf F s1 own1 = Function.update (filesOf F s own) entry.name
      (some (bufferBytes entry.start stored)))
    (fewer : clusters < F.keeps entry.size.toNat) (full : freeOf F s1 = 0)
    (takes : Takes F clusters s s1 own own1) :
    Installs F (entry :: rest) s s' own own' := by
  rcases installs.kept_since absent files with ⟨isPart, kept⟩
  refine ⟨installs.idle, kept, iff_of_false ?_ ?_, fun free vacant =>
    absurd vacant (takes.not_full free), ?_⟩
  · intro whole
    have outcome := (whole entry.name).2 absent
    rw [isPart, bundled, if_pos rfl] at outcome
    rcases outcome with impossible | equal
    · cases impossible
    · injection equal with equal
      have length := congrArg List.length equal
      simp only [BundleEntry.bytes, bufferBytes, List.length_map, List.length_range] at length
      omega
  · rw [fits_cons_of_absent (not_not.mpr absent)]
    intro fits
    rcases takes with ⟨some, free, _⟩ | ⟨none, free, _⟩
    · have enough := (fits.2 some).1
      omega
    · rcases fits.1 none with isZero | ⟨enough, _⟩
      · omega
      · omega
  · intro enough
    rw [needed_cons] at enough
    rcases takes with ⟨_, free, _⟩ | ⟨_, free, _⟩
    · omega
    · omega

theorem bundleInstall_spec (table : List BundleEntry) :
    ∀ {s : Fs} {own : Ownership}, Idle F s own →
    (∀ entry ∈ table, nameOk entry.name = true) →
    Meets (bundleInstall file table) s
      (fun _ s' => ∃ own', Installs F table s s' own own') fun _ _ => False := by
  induction table with
  | nil =>
      intro s own idle _
      exact .pure ⟨own, idle, fun _ _ => rfl,
        iff_of_true (fun _ => ⟨fun _ => rfl, Or.inl⟩) trivial, fun _ _ => rfl,
        fun _ _ isBundled => absurd rfl isBundled⟩
  | cons entry rest induction =>
      intro s own idle valid
      have validEntry := valid entry List.mem_cons_self
      have validRest : ∀ other ∈ rest, nameOk other.name = true :=
        fun other member => valid other (List.mem_cons_of_mem _ member)
      unfold bundleInstall
      refine .bind (.attempt ((fsOpen_probe idle validEntry).mono ?_ ?_))
      · rintro _ s1 ⟨present, own1, idle1, unchanged⟩
        refine (induction idle1 validRest).mono ?_ fun _ _ impossible => impossible
        exact fun _ s2 ⟨own2, installs⟩ => ⟨own2, (installs.since unchanged).skip present⟩
      · rintro error s1 ⟨rfl, absent, own1, idle1, unchanged⟩
        have absent1 : filesOf F s1 own1 entry.name = none := by
          rw [unchanged.files]
          exact absent
        refine .bind (.attempt ((fsWriteAll_bundled idle1 validEntry absent1).mono ?_ ?_))
        · rintro _ s2 ⟨own2, idle2, files, takes⟩
          refine (induction idle2 validRest).mono ?_ fun _ _ impossible => impossible
          exact fun _ s3 ⟨own3, installs⟩ =>
            ⟨own3, (installs.whole_since absent1 files takes).since unchanged⟩
        · rintro error s2 ⟨own2, idle2, ⟨same, free, vacant⟩ | ⟨stored, clusters, part, fewer,
            full, files, takes⟩⟩
          · refine (induction idle2 validRest).mono ?_ fun _ _ impossible => impossible
            exact fun _ s3 ⟨own3, installs⟩ =>
              ⟨own3, ((installs.since same).without free vacant).since unchanged⟩
          · refine (induction idle2 validRest).mono ?_ fun _ _ impossible => impossible
            exact fun _ s3 ⟨own3, installs⟩ => ⟨own3, (installs.part_since absent1 part files
              fewer full takes).since unchanged⟩

/-- With enough room every file that fits in the table's sum also fits one by one. -/
theorem fits_of_needed {table : List BundleEntry} :
    ∀ {present : CString → Prop} {free vacant : Nat}, needed F table ≤ free →
      Fits F present free vacant table := by
  induction table with
  | nil => exact fun _ => trivial
  | cons entry rest induction =>
      intro present free vacant enough
      rw [needed_cons] at enough
      refine ⟨fun _ => induction (by omega), fun _ => ⟨fun _ => Or.inr ⟨by omega, ?_⟩,
        fun _ => ⟨by omega, ?_⟩⟩⟩
      · exact induction (by omega)
      · exact induction (by omega)

/-- Whatever happened to other files since, a later run with enough free clusters brings the
files of the table that did not exist before the first run to their contents. -/
def CompletesLater (F : Format) (table : List BundleEntry)
    (before after : CString → Option (List UInt8)) : Prop :=
  ∀ file t own, Idle F t own →
    (∀ name, bundled table name ≠ none → filesOf F t own name = none ∨
      filesOf F t own name = after name) →
    needed F table ≤ freeOf F t →
    Meets (bundleInstall file table) t
      (fun _ t' => ∃ own', Idle F t' own' ∧ ∀ name, bundled table name ≠ none →
        before name = none → filesOf F t' own' name = bundled table name)
      fun _ _ => False

theorem WholeOrAbsent.completesLater {before after : CString → Option (List UInt8)}
    (whole : WholeOrAbsent table before after)
    (valid : ∀ entry ∈ table, nameOk entry.name = true) :
    CompletesLater F table before after := by
  intro file t own idle since enough
  refine (bundleInstall_spec table idle valid).mono ?_ fun _ _ impossible => impossible
  rintro _ t' ⟨own', installs⟩
  refine ⟨own', installs.idle, fun name isBundled absent => ?_⟩
  have present := installs.present enough name isBundled
  by_cases missing : filesOf F t own name = none
  · rcases (installs.whole.mpr (fits_of_needed enough) name).2 missing with none | stored
    · exact absurd none present
    · exact stored
  · rw [installs.kept name missing]
    rcases since name isBundled with none | same
    · exact absurd none missing
    · rw [same] at missing ⊢
      rcases (whole name).2 absent with none | stored
      · exact absurd none missing
      · exact stored

end Installing

/-! ## A disk that is too small -/

section TooSmall

variable {F : Format} {s : Fs} {own : Ownership}

/-- A directory without files has a vacant slot. -/
theorem Idle.vacantOf_ne_zero (idle : Idle F s own)
    (empty : ∀ name, filesOf F s own name = none) : vacantOf F s own ≠ 0 := by
  intro isZero
  have noSlot := (vacantSlots_eq_zero_iff _).mp isZero
  have root := List.mem_of_head? idle.ready.between.inv.directory.root
  have inDir : F.InDir (own .root) ⟨F.sectorOf F.sb.rootCluster, 0⟩ :=
    ⟨(by decide : 0 < slotsPerSector), _, root, Nat.le_refl _, Nat.lt_add_of_pos_right (Nat.two_pow_pos _)⟩
  exact contentsOf_eq_none_iff.mp (empty _) ⟨_, ⟨inDir, noSlot _ inDir⟩, rfl⟩

/-- The room on a disk is limited by its size. -/
theorem Idle.freeOf_mul_le (idle : Idle F s own) :
    freeOf F s * F.clusterBytes ≤ F.total * sectorSize := by
  have inside := (superblockCheck_iff.mp F.accepted).total
  have fits := F.geometry.fits
  have count := idle.ready.count idle.quiet (Nat.lt_succ_self F.sb.clusterCount)
  have few : freeOf F s ≤ F.sb.clusterCount := by
    unfold freeOf freeClusters
    simp only [Nat.succ_eq_add_one] at count
    omega
  calc freeOf F s * F.clusterBytes ≤ F.sb.clusterCount * F.clusterBytes :=
        Nat.mul_le_mul_right _ few
    _ = F.sb.clusterCount * 2 ^ F.shift * sectorSize := by
        rw [F.clusterBytes_eq, Nat.mul_assoc]
    _ ≤ F.total * sectorSize := Nat.mul_le_mul_right _ (by omega)

/-- A table with one file `a` of the given size. -/
def singleBundle (size : UInt32) : List BundleEntry :=
  [⟨⟨[97], by decide⟩, fun _ => 98, size⟩]

/-- The smallest disk after it was formatted. -/
theorem small_idle :
    ∃ F s own, F.total = minDiskSectors ∧ Formatted s ∧ Idle F s own ∧
      ∀ name, filesOf F s own name = none := by
  rcases blank_formatted with ⟨start, formatted, quiet, isTotal⟩
  rcases formatted.ready with ⟨F, _, _, _, ready, shows⟩
  refine ⟨F, start, freshOwn, ?_, formatted, ⟨ready, quiet⟩, fun name => ?_⟩
  · rw [← ready.between.inv.total, isTotal]
  · exact (congrFun shows.contents name).symm

/-- A file of three megabytes is more than fits on the smallest disk. -/
theorem not_fits_single (idle : Idle F s own) (small : F.total = minDiskSectors)
    (empty : ∀ name, filesOf F s own name = none) :
    ¬ Fits F (fun name => filesOf F s own name ≠ none) (freeOf F s) (vacantOf F s own)
      (singleBundle 3000000) := by
  intro fits
  have room := idle.freeOf_mul_le
  have needs := F.le_keeps 3000000
  have enough : F.keeps 3000000 ≤ freeOf F s :=
    ((fits.2 (not_not.mpr (empty _))).2 (idle.vacantOf_ne_zero empty)).1
  have more := Nat.mul_le_mul_right F.clusterBytes enough
  rw [small] at room
  simp only [minDiskSectors, fsLbaStart, sectorSize] at room
  omega

end TooSmall

end Katela.Filesystem
