import Katela.Filesystem.Bundle
import Katela.Shell.Commands

/-! # The rename command

The branch `rename` of `execute_command` cuts two names off its arguments. A name longer
than `FS_NAME_MAX` is cut there, and the character behind the first name is skipped without
a look at it, so the names can be pieces of what was typed. -/

namespace Katela.Shell

open Katela.Filesystem

def fsErrorText : FsError → String
  | .io => "disk i/o error"
  | .nodev => "no disk found"
  | .nofs => "filesystem is not mounted"
  | .noent => "file not found"
  | .exist => "file already exists"
  | .nospc => "no space left on disk"
  | .name => "invalid file name"
  | .inval => "invalid argument"
  | .corrupt => "filesystem is corrupted"
  | .toosmall => "disk is too small"
  | .toobig => "file is too big for this operation"

def printFsError (error : FsError) : List String := ["fs: ", fsErrorText error, "\n"]

/-- The string at the start of a buffer. -/
def stringIn (buffer : List UInt8) : CString where
  bytes := buffer.takeWhile (· ≠ 0)
  noNul member := by
    have nonzero := List.mem_takeWhile_imp member
    simp at nonzero

/-- The names that are cut off the arguments, or what is printed instead. -/
def renameNames (args : List UInt8) : Checked (List String) (CString × CString) := do
  let (oldName, rest) ← copyWord fsNameMax args
  let next ← Checked.get rest 0
  if next = 0 then .failed ["new filename required\n"]
  else do
    let (newName, _) ← copyWord fsNameMax (rest.drop 1)
    .done (stringIn (oldName ++ [0]), stringIn (newName ++ [0]))

/-- The branch, with what it prints. -/
def renameCommand (args : List UInt8) (s : Fs) : Checked Unit (List String × Fs) :=
  (renameNames args).recover (fun printed => .done (printed, s)) fun (oldName, newName) =>
    match fsRename (some oldName) (some newName) s with
    | .ok _ s' => .done ([], s')
    | .error error s' => .done (printFsError error, s')

/-! ## What is asked of the command -/

/-- The sectors as the filesystem sees them: a dirty cache stands for its sector. -/
def seen (s : Fs) : Nat → Sector :=
  if s.fatDirty then Function.update s.sectors (lbaOf s.fatCacheSector) s.fatCache
  else s.sectors

/-- The command renames a file. -/
def Renames (args : CString) (s : Fs) (source target : CString) : Prop :=
  renameNames (memoryOf args) = .done (source, target) ∧
    ∃ s', fsRename (some source) (some target) s = .ok () s'

/-- The arguments are the two names with a space between them, and more only behind
another space. -/
def Typed (args source target : CString) : Prop :=
  space ∉ source.bytes ∧ space ∉ target.bytes ∧
    ∃ rest, args.bytes = source.bytes ++ space :: (target.bytes ++ rest) ∧
      (rest = [] ∨ rest.head? = some space)

/-- The command renames only what was typed. Otherwise it prints an error, and the
filesystem is as before. -/
structure RenamesTyped (args : CString) (s : Fs) : Prop where
  typed : ∀ source target, Renames args s source target → Typed args source target
  refused : (∀ source target, ¬ Renames args s source target) →
    ∃ printed s', renameCommand (memoryOf args) s = .done (printed, s') ∧
      printed ≠ [] ∧ seen s' = seen s

/-- A filesystem that is not mounted, or is well-formed between two calls. -/
def InUse (s : Fs) : Prop :=
  s.mounted = false ∨ ∃ F live own, Ready F live s own

/-- The word behind the first one and a space. -/
def secondWord (args : CString) : List UInt8 :=
  firstWord (args.bytes.drop ((firstWord args.bytes).length + 1))

/-- Both words fit into the buffers. -/
def Uncut (args : CString) : Prop :=
  (firstWord args.bytes).length ≤ fsNameMax ∧ (secondWord args).length ≤ fsNameMax

/-- Two different names that a file can have. -/
def Renamable (source target : List UInt8) : Prop :=
  nameOk (stringIn source) = true ∧ nameOk (stringIn target) = true ∧ source ≠ target

/-- Both words fit, or what is cut off them are not two different names. -/
def Spared (args : CString) : Prop :=
  let word := firstWord args.bytes
  if word.length ≤ fsNameMax then
    (secondWord args).length ≤ fsNameMax ∨
      ¬ Renamable word ((secondWord args).take fsNameMax)
  else ¬ Renamable (word.take fsNameMax) ((word.drop (fsNameMax + 1)).take fsNameMax)

/-! ## A rename that fails leaves everything -/

section Failing

variable (sectors : Nat → Sector)

theorem blockRead_seen (sector : Nat) :
    Keeps (fun s => seen s = sectors) (blockRead sector) := by
  intro s same
  refine (blockRead_spec s sector).mono ?_ ?_
  · rintro _ s' ⟨_, rfl⟩
    exact same
  · rintro _ s' ⟨_, _, rfl⟩
    exact same

theorem fatFlush_seen {s : Fs} (same : seen s = sectors) :
    Meets fatFlush s (fun _ s' => seen s' = sectors ∧ s'.fatDirty = false)
      fun _ s' => seen s' = sectors := by
  unfold fatFlush
  refine .bind (.get (.ite (fun dirty => ?_) fun clean => ?_))
  · refine (blockWrite_spec s .fat _ _).seq ?_ ?_
    · rintro _ s' rfl
      refine .modify ⟨?_, rfl⟩
      rw [← same]
      unfold seen
      rw [if_pos dirty]
      rfl
    · rintro _ s' ⟨_, _, rfl⟩
      exact same
  · exact .pure ⟨same, Bool.eq_false_of_not_eq_true clean⟩

theorem seen_of_clean {s : Fs} (clean : s.fatDirty = false) : seen s = s.sectors := by
  unfold seen
  rw [clean]
  rfl

theorem fatLoad_seen (sector : Nat) :
    Keeps (fun s => seen s = sectors) (fatLoad sector) := by
  intro s same
  unfold fatLoad
  refine .bind (.get (.ite (fun _ => .pure same) fun _ => ?_))
  refine (fatFlush_seen sectors same).seq ?_ fun _ _ still => still
  rintro _ s1 ⟨same1, clean⟩
  -- A clean cache can be filled with another sector.
  have filled : ∀ s2 : Fs, s2.fatDirty = s1.fatDirty → s2.sectors = s1.sectors →
      seen s2 = sectors := by
    intro s2 sameDirty sameSectors
    rw [seen_of_clean (sameDirty.trans clean), sameSectors, ← seen_of_clean clean, same1]
  unfold fatFill
  refine .bind (.attempt ((blockRead_spec s1 sector).mono ?_ ?_))
  · rintro _ s2 ⟨_, rfl⟩
    exact .modify (filled _ rfl rfl)
  · rintro _ s2 ⟨_, _, rfl⟩
    exact .bind (.modify (.throw (filled _ rfl rfl)))

theorem slotStore_seen {s : Fs} (location : Location) (entry : DirEntry)
    (same : seen s = sectors) :
    Meets (slotStore location entry) s (fun _ _ => True) fun _ s' => seen s' = sectors := by
  unfold slotStore
  refine (fatFlush_seen sectors same).seq ?_ fun _ _ still => still
  rintro _ s1 ⟨same1, _⟩
  refine (blockRead_seen sectors _ s1 same1).seq ?_ fun _ _ still => still
  intro contents s2 same2
  refine (blockWrite_spec s2 .directory _ _).mono (fun _ _ _ => trivial) ?_
  rintro _ s3 ⟨_, _, rfl⟩
  exact same2

end Failing

theorem fsRename_refused (s : Fs) (source target : CString) :
    Meets (fsRename (some source) (some target)) s
      (fun _ _ => nameOk source = true ∧ nameOk target = true)
      fun _ s' => seen s' = seen s := by
  have lookup := dirLookup_keeps (blockRead_seen (seen s)) (fatLoad_seen (seen s))
  unfold fsRename
  refine (requireMounted_keeps s rfl : Meets _ s (fun _ s' => seen s' = seen s) _).seq ?_
    fun _ _ still => still
  intro _ s1 same1
  refine ((nameCheck_spec (some source)).and
    (nameCheck_keeps (some source) s1 same1)).seq ?_ fun _ _ both => both.2
  rintro source' s2 ⟨⟨_, isSource, sourceOk⟩, same2⟩
  refine ((nameCheck_spec (some target)).and
    (nameCheck_keeps (some target) s2 same2)).seq ?_ fun _ _ both => both.2
  rintro target' s3 ⟨⟨_, isTarget, targetOk⟩, same3⟩
  cases isSource
  cases isTarget
  refine (lookup target s3 same3).seq ?_ fun _ _ still => still
  intro res s4 same4
  refine .bind (.require (fun _ => ?_) fun _ => same4)
  refine (lookup source s4 same4).seq ?_ fun _ _ still => still
  intro res' s5 same5
  cases res'.found with
  | none => exact .throw same5
  | some pair =>
      refine (slotStore_seen (seen s) pair.1 _ same5).mono ?_ fun _ _ still => still
      exact fun _ _ _ => ⟨sourceOk, targetOk⟩

/-! ## The names -/

theorem firstWord_subset {characters : List UInt8} {c : UInt8}
    (member : c ∈ firstWord characters) : c ∈ characters :=
  (List.takeWhile_sublist _).subset member

theorem length_firstWord_le (characters : List UInt8) :
    (firstWord characters).length ≤ characters.length :=
  (List.takeWhile_sublist _).length_le

theorem space_notMem_firstWord (characters : List UInt8) :
    space ∉ firstWord characters := by
  intro member
  have noSpace := List.mem_takeWhile_imp member
  simp at noSpace

/-- A word with a space or nothing behind it. -/
theorem firstWord_append {word rest : List UInt8} (noSpace : space ∉ word)
    (ends : rest = [] ∨ rest.head? = some space) : firstWord (word ++ rest) = word := by
  have isRest : firstWord rest = [] := by
    cases rest with
    | nil => rfl
    | cons c rest =>
        rcases ends with impossible | isSpace
        · cases impossible
        · cases isSpace
          rfl
  unfold firstWord at isRest ⊢
  rw [List.takeWhile_append_of_pos, isRest, List.append_nil]
  intro c member
  have different : c ≠ space := fun equal => noSpace (equal ▸ member)
  simpa using different

theorem firstWord_drop {characters : List UInt8} :
    ∀ {count : Nat}, count ≤ (firstWord characters).length →
      firstWord (characters.drop count) = (firstWord characters).drop count := by
  induction characters with
  | nil =>
      intro count _
      rw [List.drop_nil]
      exact List.drop_nil.symm
  | cons c characters ih =>
      intro count short
      rw [firstWord_cons] at short ⊢
      cases count with
      | zero => rw [List.drop_zero, List.drop_zero, firstWord_cons]
      | succ count =>
          by_cases isSpace : c = space
          · rw [if_pos isSpace] at short
            exact absurd short (Nat.not_succ_le_zero count)
          · rw [if_neg isSpace] at short ⊢
            rw [List.drop_succ_cons, List.drop_succ_cons]
            exact ih (Nat.le_of_succ_le_succ short)

theorem stringIn_bytes {word : List UInt8} (nonzero : 0 ∉ word) :
    (stringIn (word ++ [0])).bytes = word := by
  have stops : ([0] : List UInt8).takeWhile (· ≠ 0) = [] := rfl
  unfold stringIn
  dsimp only
  rw [List.takeWhile_append_of_pos, stops, List.append_nil]
  intro c member
  have different : c ≠ 0 := fun equal => nonzero (equal ▸ member)
  simpa using different

theorem stringIn_terminated {word : List UInt8} (nonzero : 0 ∉ word) :
    stringIn (word ++ [0]) = stringIn word := by
  apply CString.ext
  rw [stringIn_bytes nonzero]
  unfold stringIn
  dsimp only
  rw [List.takeWhile_eq_self_iff.mpr]
  intro c member
  have different : c ≠ 0 := fun equal => nonzero (equal ▸ member)
  simpa using different

/-- The first name that the command uses. -/
def sourceOf (args : CString) : List UInt8 := (firstWord args.bytes).take fsNameMax

/-- The second name that the command uses. -/
def targetOf (args : CString) : List UInt8 :=
  (firstWord (args.bytes.drop ((sourceOf args).length + 1))).take fsNameMax

theorem zero_notMem_sourceOf (args : CString) : 0 ∉ sourceOf args :=
  fun member => args.noNul (firstWord_subset (List.mem_of_mem_take member))

theorem zero_notMem_targetOf (args : CString) : 0 ∉ targetOf args :=
  fun member => args.noNul (List.mem_of_mem_drop
    (firstWord_subset (List.mem_of_mem_take member)))

theorem bytes_sourceOf (args : CString) :
    (stringIn (sourceOf args)).bytes = sourceOf args := by
  rw [← stringIn_terminated (zero_notMem_sourceOf args)]
  exact stringIn_bytes (zero_notMem_sourceOf args)

theorem bytes_targetOf (args : CString) :
    (stringIn (targetOf args)).bytes = targetOf args := by
  rw [← stringIn_terminated (zero_notMem_targetOf args)]
  exact stringIn_bytes (zero_notMem_targetOf args)

theorem renameNames_eq (args : CString) :
    renameNames (memoryOf args) =
      if args.bytes.drop (sourceOf args).length = [] then
        .failed ["new filename required\n"]
      else .done (stringIn (sourceOf args), stringIn (targetOf args)) := by
  unfold renameNames memoryOf
  have isSource : (firstWord args.bytes).take fsNameMax = sourceOf args := rfl
  rw [copyWord_eq args.bytes _ args.noNul, Checked.done_bind]
  simp only [isSource]
  cases isRest : args.bytes.drop (sourceOf args).length with
  | nil => rfl
  | cons next rest =>
      have isTail := (getElem?_of_drop isRest).2
      have nonzero : next ≠ 0 := by
        rintro rfl
        apply args.noNul
        apply List.mem_of_mem_drop
        rw [isRest]
        exact List.mem_cons_self
      have terminated : 0 ∉ rest := by
        rw [← isTail]
        exact fun member => args.noNul (List.mem_of_mem_drop member)
      have isNext : (Checked.get (next :: rest ++ [0]) 0 : Checked (List String) UInt8) =
          .done next := rfl
      rw [isNext, Checked.done_bind, if_neg nonzero, List.cons_append, List.drop_succ_cons,
        List.drop_zero, copyWord_eq rest _ terminated, Checked.done_bind]
      have isTarget : (firstWord rest).take fsNameMax = targetOf args := by
        unfold targetOf
        rw [isTail]
      rw [isTarget, stringIn_terminated (zero_notMem_sourceOf args),
        stringIn_terminated (zero_notMem_targetOf args), if_neg (List.cons_ne_nil _ _)]

theorem exists_firstWord_append (characters : List UInt8) :
    ∃ rest, characters = firstWord characters ++ rest ∧
      (rest = [] ∨ rest.head? = some space) := by
  induction characters with
  | nil => exact ⟨[], rfl, Or.inl rfl⟩
  | cons c characters ih =>
      rw [firstWord_cons]
      by_cases isSpace : c = space
      · subst isSpace
        exact ⟨space :: characters, rfl, Or.inr rfl⟩
      · rcases ih with ⟨rest, isRest, ends⟩
        refine ⟨rest, ?_, ends⟩
        rw [if_neg isSpace, List.cons_append, ← isRest]

/-- The names that were typed are the words. -/
theorem Typed.words {args source target : CString} (typed : Typed args source target) :
    firstWord args.bytes = source.bytes ∧ secondWord args = target.bytes := by
  rcases typed with ⟨noSpace, noSpace', rest, isArgs, ends⟩
  have isFirst : firstWord args.bytes = source.bytes := by
    rw [isArgs]
    exact firstWord_append noSpace (Or.inr rfl)
  refine ⟨isFirst, ?_⟩
  unfold secondWord
  rw [isFirst, isArgs, ← List.drop_drop, List.drop_left, List.drop_succ_cons, List.drop_zero]
  exact firstWord_append noSpace' ends

theorem Uncut.typed {args : CString} (uncut : Uncut args)
    (more : args.bytes.drop (sourceOf args).length ≠ []) :
    Typed args (stringIn (sourceOf args)) (stringIn (targetOf args)) := by
  have isSource : sourceOf args = firstWord args.bytes := List.take_of_length_le uncut.1
  have isTarget : targetOf args = secondWord args := by
    unfold targetOf
    rw [isSource]
    exact List.take_of_length_le uncut.2
  unfold Typed
  rw [bytes_sourceOf, bytes_targetOf, isTarget]
  rw [isSource] at more ⊢
  refine ⟨space_notMem_firstWord _, space_notMem_firstWord _, ?_⟩
  rcases exists_firstWord_append args.bytes with ⟨behind, isArgs, ends⟩
  have isDrop : args.bytes.drop (firstWord args.bytes).length = behind := by
    have cut := congrArg (List.drop (firstWord args.bytes).length) isArgs
    rwa [List.drop_left] at cut
  rw [isDrop] at more
  cases behind with
  | nil => exact absurd rfl more
  | cons c behind =>
      rcases ends with impossible | isSpace
      · cases impossible
      cases isSpace
      have isSecond : secondWord args = firstWord behind := by
        unfold secondWord
        rw [← List.drop_drop, isDrop]
        rfl
      rcases exists_firstWord_append behind with ⟨rest, isBehind, ends'⟩
      refine ⟨rest, ?_, ends'⟩
      rw [isSecond, ← isBehind]
      exact isArgs

/-! ## Runs of the command -/

/-- Nothing happens without a call that succeeds. -/
theorem renamesTyped_of {args : CString} {s : Fs}
    (typed : ∀ source target, Renames args s source target → Typed args source target) :
    RenamesTyped args s := by
  refine ⟨typed, ?_⟩
  intro noRename
  unfold renameCommand
  unfold Renames at noRename
  rw [renameNames_eq] at noRename ⊢
  split at noRename
  · next isEmpty =>
      rw [if_pos isEmpty]
      exact ⟨_, s, rfl, List.cons_ne_nil _ _, rfl⟩
  · next more =>
      rw [if_neg more]
      cases run : fsRename (some (stringIn (sourceOf args)))
          (some (stringIn (targetOf args))) s with
      | ok value s' => exact absurd ⟨rfl, s', run⟩ (noRename _ _)
      | error error s' =>
          refine ⟨printFsError error, s', ?_, List.cons_ne_nil _ _, ?_⟩
          · simp only [Checked.recover, run]
          · exact (fsRename_refused s _ _).error_of_run run

theorem Renames.names {args : CString} {s : Fs} {source target : CString}
    (renames : Renames args s source target) :
    args.bytes.drop (sourceOf args).length ≠ [] ∧ source = stringIn (sourceOf args) ∧
      target = stringIn (targetOf args) := by
  have isDone := renames.1
  rw [renameNames_eq] at isDone
  split at isDone
  · cases isDone
  · next more =>
      cases isDone
      exact ⟨more, rfl, rfl⟩

theorem Renames.valid {args : CString} {s : Fs} {source target : CString}
    (renames : Renames args s source target) :
    nameOk source = true ∧ nameOk target = true := by
  rcases renames.2 with ⟨s', run⟩
  exact (fsRename_refused s source target).ok_of_run run

theorem Renames.different {args : CString} {s : Fs} {source target : CString}
    (inUse : InUse s) (renames : Renames args s source target) : source ≠ target := by
  rcases renames.2 with ⟨s', run⟩
  rcases inUse with unmounted | ⟨F, live, own, ready⟩
  · have refused : Meets (fsRename (some source) (some target)) s (fun _ _ => False)
        fun _ _ => True := by
      refine .bind (.bind (.get (.require (fun mounted => ?_) fun _ => trivial)))
      rw [unmounted] at mounted
      cases mounted
    exact (refused.ok_of_run run).elim
  · rcases (fsRename_spec ready.between (some source) (some target)).ok_of_run run with
      ⟨source', target', location, own', isSource, isTarget, _, _, absent, renamed⟩
    cases isSource
    cases isTarget
    rintro rfl
    exact absent ⟨location, renamed.held, renamed.named⟩

/-- Every two different names are the names of a rename that succeeds. -/
theorem exists_fsRename_ok {source target : CString} (sourceOk : nameOk source = true)
    (targetOk : nameOk target = true) (different : source ≠ target) :
    ∃ s, InUse s ∧ ∃ s', fsRename (some source) (some target) s = .ok () s' := by
  rcases small_idle with ⟨F, s, own, _, _, idle, empty⟩
  let entry : BundleEntry := ⟨source, fun _ => 0, 0⟩
  have written := @fsWriteAll_bundled F s own entry idle sourceOk (empty source)
  cases run : fsWriteAll (some entry.name) entry.start entry.size.toNat s with
  | error error s1 =>
      rcases written.error_of_run run with ⟨_, _, ⟨_, _, noSlot⟩ | ⟨stored, _, less, _⟩⟩
      · exact absurd noSlot (idle.vacantOf_ne_zero empty)
      · exact absurd less (Nat.not_lt_zero stored)
  | ok value s1 =>
      rcases written.ok_of_run run with ⟨own1, idle1, files, _⟩
      have present : filesOf F s1 own1 source ≠ none := by
        rw [files, Function.update_self]
        exact Option.some_ne_none _
      have absent : filesOf F s1 own1 target = none := by
        rw [files, Function.update_of_ne different.symm]
        exact empty target
      refine ⟨s1, Or.inr ⟨F, _, own1, idle1.ready⟩, ?_⟩
      have renamed := fsRename_spec idle1.ready.between (some source) (some target)
      cases run' : fsRename (some source) (some target) s1 with
      | ok value s2 => exact ⟨s2, rfl⟩
      | error error s2 =>
          exfalso
          rcases renamed.error_of_run run' with ⟨own2, refused⟩
          rcases (refused.reason idle1.quiet).1 with ⟨_, bad | bad⟩ |
            ⟨source', target', isSource, isTarget, _, _, ⟨_, exists'⟩ | ⟨_, _, missing⟩⟩
          · exact absurd (bad source rfl) (by rw [sourceOk]; decide)
          · exact absurd (bad target rfl) (by rw [targetOk]; decide)
          · cases isTarget
            exact contentsOf_eq_none_iff.mp absent exists'
          · cases isSource
            exact present (contentsOf_eq_none_iff.mpr missing)

theorem spared_iff (args : CString) :
    Spared args ↔ Uncut args ∨ ¬ Renamable (sourceOf args) (targetOf args) := by
  unfold Spared Uncut
  by_cases short : (firstWord args.bytes).length ≤ fsNameMax
  · have isSource : sourceOf args = firstWord args.bytes := List.take_of_length_le short
    have isTarget : targetOf args = (secondWord args).take fsNameMax := by
      rw [targetOf, isSource]
      rfl
    rw [if_pos short, isTarget, isSource]
    simp only [short, true_and]
  · have isLength : (sourceOf args).length = fsNameMax := by
      unfold sourceOf
      rw [List.length_take]
      omega
    have isTarget : targetOf args =
        ((firstWord args.bytes).drop (fsNameMax + 1)).take fsNameMax := by
      rw [targetOf, isLength, firstWord_drop (by omega)]
    rw [if_neg short, isTarget]
    simp only [short, false_and, false_or]
    rfl

/-- Names that are pieces of longer words are used for a file that has the first one. -/
theorem cut_not_typed {args : CString} (cut : ¬ Spared args) :
    ∃ s, InUse s ∧ ¬ RenamesTyped args s := by
  rw [spared_iff, not_or, not_not] at cut
  rcases cut with ⟨notUncut, sourceOk, targetOk, different⟩
  rcases exists_fsRename_ok sourceOk targetOk (fun same => different (by
    rw [← bytes_sourceOf, same, bytes_targetOf])) with ⟨s, inUse, s', run⟩
  refine ⟨s, inUse, ?_⟩
  intro renamesTyped
  have sourceShort : (sourceOf args).length ≤ fsNameMax := List.length_take_le _ _
  have targetShort : (targetOf args).length ≤ fsNameMax := List.length_take_le _ _
  have more : args.bytes.drop (sourceOf args).length ≠ [] := by
    intro isEmpty
    have short := List.drop_eq_nil_iff.mp isEmpty
    have wordShort := length_firstWord_le args.bytes
    have sourceWord : (sourceOf args).length ≤ (firstWord args.bytes).length :=
      List.length_take_le' _ _
    have nothing : secondWord args = [] := by
      unfold secondWord
      rw [List.drop_eq_nil_iff.mpr (by omega)]
      rfl
    exact notUncut ⟨by omega, by rw [nothing]; exact Nat.zero_le _⟩
  have renames : Renames args s (stringIn (sourceOf args)) (stringIn (targetOf args)) := by
    refine ⟨?_, s', run⟩
    rw [renameNames_eq, if_neg more]
  rcases (renamesTyped.typed _ _ renames).words with ⟨isFirst, isSecond⟩
  rw [bytes_sourceOf] at isFirst
  rw [bytes_targetOf] at isSecond
  exact notUncut ⟨by rw [isFirst]; exact sourceShort, by rw [isSecond]; exact targetShort⟩

/-- The command renames only what was typed, in every state of the filesystem, exactly if
both words fit into the buffers or the pieces that it cuts off are not two different
names. Words that fit are renamed as typed on every disk. -/
theorem rename_typed_iff (args : CString) :
    ((∀ s, InUse s → RenamesTyped args s) ↔ Spared args) ∧
      (Uncut args → ∀ s, RenamesTyped args s) := by
  have typedOfUncut : Uncut args → ∀ s source target, Renames args s source target →
      Typed args source target := by
    intro uncut s source target renames
    rcases renames.names with ⟨more, rfl, rfl⟩
    exact uncut.typed more
  refine ⟨⟨?_, ?_⟩, fun uncut s => renamesTyped_of (typedOfUncut uncut s)⟩
  · intro always
    by_contra cut
    rcases cut_not_typed cut with ⟨s, inUse, notTyped⟩
    exact notTyped (always s inUse)
  · intro spared s inUse
    refine renamesTyped_of fun source target renames => ?_
    have valid := renames.valid
    have different := renames.different inUse
    rcases renames.names with ⟨_, isSource, isTarget⟩
    subst isSource isTarget
    rcases (spared_iff args).mp spared with uncut | notRenamable
    · exact typedOfUncut uncut s _ _ renames
    · refine absurd ⟨valid.1, valid.2, ?_⟩ notRenamable
      exact fun same => different (congrArg stringIn same)

/-- One word of 117 characters, without a space. -/
def longWord : CString := stringIn (List.replicate 117 97)

/-- On some disk the file whose name is the first 115 characters is renamed to the
last one. -/
theorem long_word_renamed : ¬ ∀ s, InUse s → RenamesTyped longWord s := by
  intro always
  have cut : ¬ Spared longWord := by
    rw [spared_iff, not_or, not_not]
    unfold Uncut Renamable
    decide +kernel
  rcases cut_not_typed cut with ⟨s, inUse, notTyped⟩
  exact notTyped (always s inUse)

end Katela.Shell
