import Katela.Shell.Commands

/-! # The boot command line

`has_word` and `recovery_requested` of `src/kernel/recovery.c`, which look for a word on the
command line of the bootloader. A string is the list of its bytes with the terminator, and
a read behind the terminator is outside. -/

namespace Katela.Recovery

open Katela.Filesystem (CString)
open Katela.Shell (memoryOf literal space)

/-! ## The search -/

/-- The loop over spaces. -/
def skipSpaces (text : List UInt8) : (rounds i : Nat) → Checked Unit Nat
  | 0, _ => .endless
  | rounds + 1, i => do
      let c ← Checked.get text i
      if c = space then skipSpaces text rounds (i + 1) else .done i

/-- The loop over the characters up to the next space. -/
def skipRun (text : List UInt8) : (rounds i : Nat) → Checked Unit Nat
  | 0, _ => .endless
  | rounds + 1, i => do
      let c ← Checked.get text i
      if c ≠ 0 ∧ c ≠ space then skipRun text rounds (i + 1) else .done i

/-- The loop that compares `length` characters from `start` on with the word. -/
def compareLoop (text word : List UInt8) (start length : Nat) :
    (rounds j : Nat) → Checked Unit Nat
  | 0, _ => .endless
  | rounds + 1, j =>
      if j < length then do
        let expected ← Checked.get word j
        if expected ≠ 0 then do
          let c ← Checked.get text (start + j)
          if c = expected then compareLoop text word start length rounds (j + 1)
          else .done j
        else .done j
      else .done j

/-- The outer loop of `has_word`. -/
def wordLoop (text word : List UInt8) : (rounds i : Nat) → Checked Unit Bool
  | 0, _ => .endless
  | rounds + 1, i => do
      let c ← Checked.get text i
      if c ≠ 0 then do
        let start ← skipSpaces text text.length i
        let i ← skipRun text text.length start
        let length := i - start
        let j ← compareLoop text word start length text.length 0
        if j = length then do
          let last ← Checked.get word j
          if last = 0 then .done true else wordLoop text word rounds i
        else wordLoop text word rounds i
      else .done false

/-- `has_word`. No loop needs more rounds than there are bytes. -/
def hasWord (text word : List UInt8) : Checked Unit Bool :=
  wordLoop text word text.length 0

def multibootMagic : UInt32 := 0x2BADB002

def infoFlagCmdline : UInt32 := (1 : UInt32) <<< 2

/-- The fields of the boot information that `recovery_requested` reads; a null pointer is
`none`. -/
structure BootInfo where
  flags : UInt32
  cmdline : Option CString

def recoveryRequested (magic : UInt32) (info : Option BootInfo) : Checked Unit Bool :=
  match info with
  | none => .done false
  | some info =>
      if magic ≠ multibootMagic then .done false
      else if info.flags &&& infoFlagCmdline = 0 then .done false
      else match info.cmdline with
        | none => .done false
        | some line =>
            hasWord (memoryOf line)
              (literal ['r', 'e', 'c', 'o', 'v', 'e', 'r', 'y'] ++ [0])

/-! ## The runs of a line -/

/-- A maximal part of the line without spaces. -/
structure IsRun (line run : List UInt8) : Prop where
  nonempty : run ≠ []
  free : space ∉ run
  maximal : ∃ before after, line = before ++ (run ++ after) ∧
    (∀ c, before.getLast? = some c → c = space) ∧ ∀ c, after.head? = some c → c = space

section Runs

variable {line run rest word : List UInt8}

theorem not_isRun_nil : ¬ IsRun [] word := by
  rintro ⟨nonempty, _, before, after, isLine, _⟩
  have parts := List.append_eq_nil_iff.mp isLine.symm
  exact nonempty (List.append_eq_nil_iff.mp parts.2).1

/-- A space in front of a line belongs to no run. -/
theorem isRun_space_cons : IsRun (space :: line) word ↔ IsRun line word := by
  constructor
  · rintro ⟨nonempty, free, before, after, isLine, ends, starts⟩
    cases before with
    | nil =>
        rcases List.exists_cons_of_ne_nil nonempty with ⟨c, word', rfl⟩
        have isSpace : space = c := (List.cons.inj isLine).1
        exact absurd (isSpace ▸ List.mem_cons_self) free
    | cons c before =>
        refine ⟨nonempty, free, before, after, (List.cons.inj isLine).2, fun d isLast => ?_,
          starts⟩
        apply ends
        rw [List.getLast?_cons, isLast]
        rfl
  · rintro ⟨nonempty, free, before, after, isLine, ends, starts⟩
    refine ⟨nonempty, free, space :: before, after, congrArg _ isLine, fun d isLast => ?_,
      starts⟩
    cases before with
    | nil =>
        cases isLast
        rfl
    | cons c before =>
        rw [List.getLast?_cons_cons] at isLast
        exact ends d isLast

theorem isRun_spaces_append {spaces : List UInt8} (all : ∀ c ∈ spaces, c = space) :
    IsRun (spaces ++ line) word ↔ IsRun line word := by
  induction spaces with
  | nil => rfl
  | cons c spaces ih =>
      have isSpace := all c List.mem_cons_self
      subst isSpace
      exact isRun_space_cons.trans (ih fun d member => all d (List.mem_cons_of_mem _ member))

/-- The part of a line before the first space. -/
theorem takeWhile_run (free : space ∉ run) (starts : ∀ c, rest.head? = some c → c = space) :
    (run ++ rest).takeWhile (· ≠ space) = run := by
  have all : ∀ c ∈ run, decide (c ≠ space) = true := by
    intro c member
    rw [decide_eq_true_eq]
    rintro rfl
    exact free member
  rw [List.takeWhile_append_of_pos all]
  cases rest with
  | nil => exact List.append_nil run
  | cons c rest =>
      rw [starts c rfl, List.takeWhile_cons_of_neg (by simp), List.append_nil]

/-- The runs of a line are the one in front and those behind it. -/
theorem isRun_append (nonempty : run ≠ []) (free : space ∉ run)
    (starts : ∀ c, rest.head? = some c → c = space) :
    IsRun (run ++ rest) word ↔ word = run ∨ IsRun rest word := by
  constructor
  · rintro ⟨nonempty', free', before, after, isLine, ends', starts'⟩
    rcases List.append_eq_append_iff.mp isLine with
      ⟨middle, isBefore, isRest⟩ | ⟨middle, isRun, isBehind⟩
    · by_cases none : before = []
      · left
        rw [none, List.nil_append] at isLine
        rw [← takeWhile_run free starts, isLine, takeWhile_run free' starts']
      · right
        refine ⟨nonempty', free', middle, after, isRest, fun c isLast => ?_, starts'⟩
        apply ends'
        rw [isBefore, List.getLast?_append, isLast]
        rfl
    · rcases List.eq_nil_or_concat before with rfl | ⟨front, c, isFront⟩
      · left
        rw [List.nil_append] at isLine
        rw [← takeWhile_run free starts, isLine, takeWhile_run free' starts']
      · rw [List.concat_eq_append] at isFront
        have isSpace := ends' c (by rw [isFront]; exact List.getLast?_concat)
        subst isSpace
        exact absurd (by rw [isRun, isFront]; simp) free
  · rintro (rfl | ⟨nonempty', free', before, after, isRest, ends', starts'⟩)
    · exact ⟨nonempty, free, [], rest, rfl, nofun, starts⟩
    · refine ⟨nonempty', free', run ++ before, after, ?_, fun c isLast => ?_, starts'⟩
      · rw [isRest, List.append_assoc]
      · cases before with
        | nil =>
            rcases List.exists_cons_of_ne_nil nonempty' with ⟨d, word', rfl⟩
            have isSpace := starts d (by rw [isRest]; rfl)
            subst isSpace
            exact absurd List.mem_cons_self free'
        | cons d before =>
            apply ends'
            rw [List.getLast?_append] at isLast
            rw [← isLast, List.getLast?_cons]
            rfl

/-- A line starts with spaces and a run. -/
theorem exists_split (line : List UInt8) : ∃ spaces run rest,
    line = spaces ++ (run ++ rest) ∧ (∀ c ∈ spaces, c = space) ∧ space ∉ run ∧
      (∀ c, rest.head? = some c → c = space) ∧ (run = [] → rest = []) := by
  induction line with
  | nil => exact ⟨[], [], [], rfl, nofun, List.not_mem_nil, nofun, fun _ => rfl⟩
  | cons c line ih =>
      rcases ih with ⟨spaces, run, rest, isLine, all, free, starts, runStarts⟩
      by_cases isSpace : c = space
      · subst isSpace
        refine ⟨space :: spaces, run, rest, congrArg _ isLine, fun c member => ?_, free,
          starts, runStarts⟩
        rcases List.mem_cons.mp member with rfl | member
        · rfl
        · exact all c member
      · cases spaces with
        | nil =>
            refine ⟨[], c :: run, rest, congrArg _ isLine, nofun, ?_, starts, nofun⟩
            rw [List.mem_cons, not_or]
            exact ⟨fun equal => isSpace equal.symm, free⟩
        | cons d spaces =>
            refine ⟨[], [c], line, rfl, nofun, ?_, fun e isHead => ?_, nofun⟩
            · rw [List.mem_singleton]
              exact fun equal => isSpace equal.symm
            · rw [isLine] at isHead
              cases isHead
              exact all d List.mem_cons_self

end Runs

/-! ## The loops -/

section Loops

variable {text rest : List UInt8}

theorem skipSpaces_eq {c : UInt8} (notSpace : c ≠ space) (spaces : List UInt8) :
    ∀ {rounds i : Nat}, (∀ d ∈ spaces, d = space) → spaces.length < rounds →
      text.drop i = spaces ++ c :: rest →
      skipSpaces text rounds i = .done (i + spaces.length) := by
  induction spaces with
  | nil =>
      intro rounds i _ enough isDrop
      cases rounds with
      | zero => cases enough
      | succ rounds =>
          rw [skipSpaces, Checked.get_of_drop isDrop, Checked.done_bind, if_neg notSpace]
          rfl
  | cons d spaces ih =>
      intro rounds i all enough isDrop
      rw [List.length_cons] at enough
      cases rounds with
      | zero => cases enough
      | succ rounds =>
          rw [skipSpaces, Checked.get_of_drop isDrop, Checked.done_bind,
            if_pos (all d List.mem_cons_self),
            ih (fun e member => all e (List.mem_cons_of_mem _ member)) (by omega)
              (getElem?_of_drop isDrop).2, List.length_cons]
          congr 1
          omega

theorem skipRun_eq {c : UInt8} (stops : c = 0 ∨ c = space) (run : List UInt8) :
    ∀ {rounds i : Nat}, 0 ∉ run → space ∉ run → run.length < rounds →
      text.drop i = run ++ c :: rest →
      skipRun text rounds i = .done (i + run.length) := by
  induction run with
  | nil =>
      intro rounds i _ _ enough isDrop
      cases rounds with
      | zero => cases enough
      | succ rounds =>
          rw [skipRun, Checked.get_of_drop isDrop, Checked.done_bind, if_neg]
          · rfl
          · rintro ⟨nonzero, notSpace⟩
            exact stops.elim nonzero notSpace
  | cons d run ih =>
      intro rounds i terminated free enough isDrop
      rw [List.length_cons] at enough
      have nonzero := List.ne_of_not_mem_cons terminated
      have notSpace := List.ne_of_not_mem_cons free
      cases rounds with
      | zero => cases enough
      | succ rounds =>
          rw [skipRun, Checked.get_of_drop isDrop, Checked.done_bind,
            if_pos ⟨nonzero.symm, notSpace.symm⟩,
            ih (List.not_mem_of_not_mem_cons terminated) (List.not_mem_of_not_mem_cons free)
              (by omega) (getElem?_of_drop isDrop).2, List.length_cons]
          congr 1
          omega

/-- The comparison gets to the end of the run and of the word if they are equal. -/
theorem compareLoop_spec {memory : List UInt8} {start length : Nat} (run : List UInt8) :
    ∀ {word : List UInt8} {rounds j : Nat}, 0 ∉ word → run.length < rounds →
      j + run.length = length → text.drop (start + j) = run ++ rest →
      memory.drop j = word ++ [0] →
      ∃ k, compareLoop text memory start length rounds j = .done k ∧
        (k ≠ length → run ≠ word) ∧
        (k = length → ∃ last, Checked.get memory k = (.done last : Checked Unit UInt8) ∧
          (last = 0 ↔ run = word)) := by
  induction run with
  | nil =>
      intro word rounds j terminated enough isLength isDrop isWord
      cases rounds with
      | zero => cases enough
      | succ rounds =>
          have ended : ¬ j < length := by
            rw [← isLength]
            exact Nat.lt_irrefl j
          refine ⟨j, by rw [compareLoop, if_neg ended], fun other => absurd isLength other,
            fun _ => ?_⟩
          cases word with
          | nil => exact ⟨0, Checked.get_of_drop isWord, by simp⟩
          | cons e word =>
              refine ⟨e, Checked.get_of_drop isWord, ?_⟩
              have nonzero := List.ne_of_not_mem_cons terminated
              simp [nonzero.symm]
  | cons c run ih =>
      intro word rounds j terminated enough isLength isDrop isWord
      rw [List.length_cons] at enough isLength
      cases rounds with
      | zero => cases enough
      | succ rounds =>
          have more : j < length := by omega
          cases word with
          | nil =>
              refine ⟨j, ?_, fun _ => by simp, fun isEnd => by omega⟩
              rw [compareLoop, if_pos more, Checked.get_of_drop isWord, Checked.done_bind,
                if_neg (by simp)]
          | cons e word =>
              have nonzero := List.ne_of_not_mem_cons terminated
              have stepped : compareLoop text memory start length (rounds + 1) j =
                  if c = e then compareLoop text memory start length rounds (j + 1)
                  else .done j := by
                rw [compareLoop, if_pos more, Checked.get_of_drop isWord, Checked.done_bind,
                  if_pos nonzero.symm, Checked.get_of_drop isDrop, Checked.done_bind]
              rw [stepped]
              by_cases same : c = e
              · subst same
                rw [if_pos rfl]
                rcases @ih word rounds (j + 1) (List.not_mem_of_not_mem_cons terminated)
                  (by omega) (by omega) (getElem?_of_drop isDrop).2
                  (getElem?_of_drop isWord).2 with ⟨k, isDone, differs, agrees⟩
                refine ⟨k, isDone, fun early equal => differs early (List.cons.inj equal).2,
                  fun isEnd => ?_⟩
                rcases agrees isEnd with ⟨last, isLast, isZero⟩
                exact ⟨last, isLast, by simp [isZero]⟩
              · rw [if_neg same]
                exact ⟨j, rfl, fun _ equal => same (List.cons.inj equal).1,
                  fun isEnd => by omega⟩

/-- The first byte of what is left of a string. -/
theorem exists_first (line : List UInt8) :
    ∃ c behind, line ++ [0] = c :: behind ∧ (line = [] ∧ c = 0 ∨ line.head? = some c) := by
  cases line with
  | nil => exact ⟨0, [], rfl, Or.inl ⟨rfl, rfl⟩⟩
  | cons c line => exact ⟨c, line ++ [0], rfl, Or.inr rfl⟩

/-- One round of the outer loop compares a run with the word. -/
theorem wordLoop_round {word spaces run : List UInt8} {rounds i : Nat}
    (terminated : 0 ∉ word) (all : ∀ c ∈ spaces, c = space) (runEnds : 0 ∉ run)
    (free : space ∉ run) (starts : ∀ c, rest.head? = some c → c = space)
    (runStarts : run = [] → rest = []) (nonempty : spaces ++ run ≠ [])
    (isDrop : text.drop i = spaces ++ (run ++ (rest ++ [0]))) :
    wordLoop text (word ++ [0]) (rounds + 1) i =
      if run = word then .done true
      else wordLoop text (word ++ [0]) rounds (i + (spaces ++ run).length) := by
  have isLength := congrArg List.length isDrop
  simp only [List.length_drop, List.length_append, List.length_singleton] at isLength
  have afterSpaces := drop_of_drop isDrop
  -- What stops the loop over the run.
  rcases exists_first rest with ⟨stop, behind, isStop, stops⟩
  have stopped : stop = 0 ∨ stop = space := stops.imp And.right (starts stop)
  have atRun : skipRun text text.length (i + spaces.length) =
      .done (i + spaces.length + run.length) := by
    rw [isStop] at afterSpaces
    exact skipRun_eq stopped run runEnds free (by omega) afterSpaces
  -- What stops the loop over the spaces.
  have atSpaces : skipSpaces text text.length i = .done (i + spaces.length) := by
    rcases exists_first (run ++ rest) with ⟨first, behind, isFirst, isHead⟩
    rw [← List.append_assoc run, isFirst] at isDrop
    refine skipSpaces_eq ?_ spaces all (by omega) isDrop
    rintro rfl
    rcases isHead with ⟨_, impossible⟩ | isHead
    · cases impossible
    · cases run with
      | nil =>
          rw [runStarts rfl] at isHead
          cases isHead
      | cons c run =>
          cases isHead
          exact free List.mem_cons_self
  rcases @compareLoop_spec text (rest ++ [0]) (word ++ [0]) (i + spaces.length) run.length run
    word text.length 0 terminated (by omega) (Nat.zero_add _) afterSpaces rfl with
    ⟨k, isDone, differs, agrees⟩
  have first : ∃ c, Checked.get text i = (.done c : Checked Unit UInt8) ∧ c ≠ 0 := by
    cases spaces with
    | nil =>
        cases run with
        | nil => exact absurd rfl nonempty
        | cons c run =>
            exact ⟨c, Checked.get_of_drop isDrop, (List.ne_of_not_mem_cons runEnds).symm⟩
    | cons c spaces =>
        refine ⟨c, Checked.get_of_drop isDrop, ?_⟩
        rw [all c List.mem_cons_self]
        decide
  rcases first with ⟨c, isByte, nonzero⟩
  have isRunLength : i + spaces.length + run.length - (i + spaces.length) = run.length := by
    omega
  rw [wordLoop, isByte, Checked.done_bind, if_pos nonzero, atSpaces, Checked.done_bind, atRun,
    Checked.done_bind]
  dsimp only
  rw [isRunLength, isDone, Checked.done_bind, List.length_append, ← Nat.add_assoc]
  by_cases ended : k = run.length
  · rcases agrees ended with ⟨last, isLast, isZero⟩
    rw [if_pos ended, isLast, Checked.done_bind]
    by_cases same : run = word
    · rw [if_pos (isZero.mpr same), if_pos same]
    · rw [if_neg (fun zero => same (isZero.mp zero)), if_neg same]
  · rw [if_neg ended, if_neg (differs ended)]

/-- The loop finds the runs of what is left of the line. -/
theorem wordLoop_eq {word : List UInt8} (nonempty : word ≠ []) (terminated : 0 ∉ word)
    (rounds : Nat) : ∀ {line : List UInt8} {i : Nat}, 0 ∉ line → line.length < rounds →
      text.drop i = line ++ [0] →
      ∃ found, wordLoop text (word ++ [0]) rounds i = .done found ∧
        (found = true ↔ IsRun line word) := by
  induction rounds with
  | zero => exact fun _ impossible => absurd impossible (Nat.not_lt_zero _)
  | succ rounds ih =>
      intro line i ends enough isDrop
      by_cases none : line = []
      · subst none
        refine ⟨false, ?_, by simp [not_isRun_nil]⟩
        rw [wordLoop, Checked.get_of_drop isDrop, Checked.done_bind, if_neg (by simp)]
      · rcases exists_split line with
          ⟨spaces, run, rest, rfl, all, free, starts, runStarts⟩
        have some : spaces ++ run ≠ [] := by
          intro isNil
          rcases List.append_eq_nil_iff.mp isNil with ⟨rfl, rfl⟩
          rw [runStarts rfl] at none
          exact none rfl
        rw [← List.append_assoc, List.mem_append, not_or] at ends
        have runEnds : 0 ∉ run := fun member => ends.1 (List.mem_append_right _ member)
        rw [List.append_assoc, List.append_assoc] at isDrop
        rw [wordLoop_round terminated all runEnds free starts runStarts some isDrop,
          isRun_spaces_append all]
        by_cases same : run = word
        · refine ⟨true, if_pos same, iff_of_true rfl ?_⟩
          subst same
          exact (isRun_append nonempty free starts).mpr (Or.inl rfl)
        · rw [if_neg same]
          have shorter : 0 < (spaces ++ run).length := List.length_pos_iff.mpr some
          have isRest : text.drop (i + (spaces ++ run).length) = rest ++ [0] := by
            rw [← List.append_assoc] at isDrop
            exact drop_of_drop isDrop
          rw [← List.append_assoc, List.length_append] at enough
          rcases ih ends.2 (by omega) isRest with ⟨found, isDone, isFound⟩
          refine ⟨found, isDone, isFound.trans ?_⟩
          by_cases isNil : run = []
          · rw [isNil, List.nil_append]
          · rw [isRun_append isNil free starts, or_iff_right (Ne.symm same)]

end Loops

/-! ## The word on the command line -/

/-- The search ends without a read behind a terminator, and it finds exactly the maximal
runs of the line. -/
theorem hasWord_exact (line word : CString) (nonempty : word.bytes ≠ []) :
    ∃ found, hasWord (memoryOf line) (memoryOf word) = .done found ∧
      (found = true ↔ IsRun line.bytes word.bytes) := by
  refine wordLoop_eq nonempty word.noNul _ line.noNul ?_ rfl
  rw [memoryOf, List.length_append]
  exact Nat.lt_add_one _

/-- The last run of a line, behind two spaces. -/
theorem hasWord_in_line :
    ∃ found, hasWord (memoryOf ⟨literal ['a', 'b', ' ', ' ', 'c'], by decide⟩)
      (memoryOf ⟨literal ['c'], by decide⟩) = .done found ∧
      (found = true ↔ IsRun (literal ['a', 'b', ' ', ' ', 'c']) (literal ['c'])) :=
  hasWord_exact ⟨literal ['a', 'b', ' ', ' ', 'c'], by decide⟩ ⟨literal ['c'], by decide⟩
    (by decide)

/-- The start of a run is not found. -/
example : hasWord (literal ['a', 'b', ' '] ++ [0]) (literal ['a'] ++ [0]) = .done false := by
  decide

/-- The system starts in recovery mode if the line has the word "recovery". -/
theorem recoveryRequested_iff (magic : UInt32) (info : Option BootInfo) :
    ∃ requested, recoveryRequested magic info = .done requested ∧
      (requested = true ↔ magic = multibootMagic ∧ ∃ info' line, info = some info' ∧
        info'.flags &&& infoFlagCmdline ≠ 0 ∧ info'.cmdline = some line ∧
          IsRun line.bytes (literal ['r', 'e', 'c', 'o', 'v', 'e', 'r', 'y'])) := by
  cases info with
  | none => exact ⟨false, rfl, by simp⟩
  | some info =>
      by_cases isMagic : magic = multibootMagic
      · by_cases flagged : info.flags &&& infoFlagCmdline = 0
        · refine ⟨false, ?_, by simp [flagged]⟩
          simp [recoveryRequested, isMagic, flagged]
        · cases isLine : info.cmdline with
          | none =>
              refine ⟨false, ?_, by simp [isLine]⟩
              simp [recoveryRequested, isMagic, flagged, isLine]
          | some line =>
              have enough : line.bytes.length < (memoryOf line).length := by
                rw [memoryOf, List.length_append]
                exact Nat.lt_add_one _
              rcases @wordLoop_eq (memoryOf line) (literal ['r', 'e', 'c', 'o', 'v', 'e', 'r', 'y'])
                (by decide) (by decide) _ line.bytes 0 line.noNul enough rfl with
                ⟨found, isDone, isFound⟩
              refine ⟨found, ?_, ?_⟩
              · simpa [recoveryRequested, isMagic, flagged, isLine, hasWord] using isDone
              · simp [isMagic, flagged, isLine, isFound]
      · refine ⟨false, ?_, by simp [isMagic]⟩
        simp [recoveryRequested, isMagic]

end Katela.Recovery
