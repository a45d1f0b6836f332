import Mathlib.Data.List.TakeWhile
import Katela.Filesystem.Model
import Katela.Foundation.Checked

/-! # Commands

The start of `execute_command` in `src/kernel/standart.c`, which cuts the command word off
a line and picks a branch, and the guard in front of it in `src/kernel/syscall.c`. A
pointer into a line is the list of the bytes from there to the terminator. -/

namespace Katela.Shell

open Katela.Filesystem (CString)

/-- A string as it lies in memory. -/
def memoryOf (line : CString) : List UInt8 := line.bytes ++ [0]

/-- The bytes of a literal of the source, without its terminator. -/
def literal (characters : List Char) : List UInt8 :=
  characters.map fun c => UInt8.ofNat c.toNat

def space : UInt8 := 32

/-- The loop that copies a word of at most `room` characters; gives the copy, without its
terminator, and the pointer behind the word. -/
def copyWord {ε : Type} : (room : Nat) → List UInt8 → Checked ε (List UInt8 × List UInt8)
  | _, [] => .outside
  | 0, c :: rest => .done ([], c :: rest)
  | room + 1, c :: rest =>
      if c ≠ space ∧ c ≠ 0 then do
        let (word, rest) ← copyWord room rest
        .done (c :: word, rest)
      else .done ([], c :: rest)

def strcmp : List UInt8 → List UInt8 → Checked Unit Int
  | a :: as, b :: bs =>
      if a ≠ 0 ∧ a = b then strcmp as bs else .done (a.toNat - b.toNat)
  | _, _ => .outside

/-- The branches of `execute_command`. -/
inductive Command where
  | info
  | echo
  | swiss
  | panic
  | off
  | beep
  | dt
  | exec
  | help
  | rm
  | clear
  | create
  | rename
  | see
  | get
  | set
  | df
  | ping
  | resolve
  | netinfo
  | format
  | notFound
  deriving DecidableEq, Repr

/-- The words that the branches ask for, in their order. -/
def commandWords : List (List Char × Command) :=
  [(['i', 'n', 'f', 'o'], .info), (['e', 'c', 'h', 'o'], .echo),
    (['s', 'w', 'i', 's', 's'], .swiss), (['p', 'a', 'n', 'i', 'c'], .panic),
    (['o', 'f', 'f'], .off), (['b', 'e', 'e', 'p'], .beep), (['d', 't'], .dt),
    (['e', 'x', 'e', 'c'], .exec), (['h', 'e', 'l', 'p'], .help), (['r', 'm'], .rm),
    (['c', 'l', 'e', 'a', 'r'], .clear), (['c', 'l', 's'], .clear),
    (['c', 'r', 'e', 'a', 't', 'e'], .create), (['r', 'e', 'n', 'a', 'm', 'e'], .rename),
    (['s', 'e', 'e'], .see), (['g', 'e', 't'], .get), (['s', 'e', 't'], .set),
    (['d', 'f'], .df), (['p', 'i', 'n', 'g'], .ping),
    (['r', 'e', 's', 'o', 'l', 'v', 'e'], .resolve),
    (['n', 'e', 't', 'i', 'n', 'f', 'o'], .netinfo),
    (['f', 'o', 'r', 'm', 'a', 't'], .format)]

/-- The chain of comparisons. -/
def branchOf (command : List UInt8) : List (List Char × Command) → Checked Unit Command
  | [] => .done .notFound
  | (word, branch) :: others => do
      let difference ← strcmp command (literal word ++ [0])
      if difference = 0 then .done branch else branchOf command others

/-- The size of `command`. -/
def commandSize : Nat := 64

/-- The start of `execute_command`: the command word, the branch that is taken and
`args`. -/
def executeCommand (buffer : List UInt8) :
    Checked Unit (List UInt8 × Command × List UInt8) := do
  let (word, args) ← copyWord (commandSize - 1) buffer
  let first ← Checked.get args 0
  let args := if first = space then args.drop 1 else args
  let branch ← branchOf (word ++ [0]) commandWords
  .done (word, branch, args)

/-! ## System calls -/

/-- `&&`, which leaves the second operand alone after a false one. -/
def andThen (first second : Checked Unit Bool) : Checked Unit Bool := do
  if ← first then second else .done false

def characterIs (line : List UInt8) (index : Nat) (expected : UInt8) :
    Checked Unit Bool := do
  .done ((← Checked.get line index) = expected)

def isExec (line : List UInt8) : Checked Unit Bool :=
  andThen (characterIs line 0 101) <| andThen (characterIs line 1 120) <|
    andThen (characterIs line 2 101) <| andThen (characterIs line 3 99) do
      let last ← Checked.get line 4
      .done (last = space ∨ last = 0)

/-- What `syscall_dispatch` does. -/
inductive Service where
  | write (text : List UInt8)
  | refused
  | run (command : Command) (args : List UInt8)
  | yield
  | sleep (duration : UInt32)
  | uptime
  | getKey
  | unknown

/-- `syscall_dispatch`, for the values of two registers and the memory that the second
one points to. -/
def syscallDispatch (eax ebx : UInt32) (memory : List UInt8) : Checked Unit Service := do
  if eax = 1 then .done (.write memory)
  else if eax = 3 then do
    if ← isExec memory then .done .refused
    else do
      let (_, branch, args) ← executeCommand memory
      .done (.run branch args)
  else if eax = 4 then .done .yield
  else if eax = 5 then .done (.sleep ebx)
  else if eax = 6 then .done .uptime
  else if eax = 7 then .done .getKey
  else .done .unknown

def sysRun : UInt32 := 3

/-! ## Words -/

/-- The characters before the first space. -/
def firstWord (characters : List UInt8) : List UInt8 :=
  characters.takeWhile (· ≠ space)

theorem copyWord_eq {ε : Type} (characters : List UInt8) :
    ∀ room, 0 ∉ characters → (copyWord room (characters ++ [0]) : Checked ε _) =
      .done ((firstWord characters).take room,
        characters.drop ((firstWord characters).take room).length ++ [0]) := by
  induction characters with
  | nil =>
      intro room _
      cases room <;> rfl
  | cons c characters ih =>
      intro room terminated
      have nonzero := List.ne_of_not_mem_cons terminated
      have terminated := List.not_mem_of_not_mem_cons terminated
      cases room with
      | zero => rfl
      | succ room =>
          by_cases isSpace : c = space
          · subst isSpace
            rfl
          · have isWord : firstWord (c :: characters) = c :: firstWord characters :=
              List.takeWhile_cons_of_pos (by simpa using isSpace)
            rw [List.cons_append, copyWord, if_pos ⟨isSpace, nonzero.symm⟩,
              ih room terminated, isWord]
            rfl

theorem strcmp_spec (left : List UInt8) :
    ∀ right, 0 ∉ left → 0 ∉ right → ∃ difference,
      strcmp (left ++ [0]) (right ++ [0]) = .done difference ∧
        (difference = 0 ↔ left = right) := by
  induction left with
  | nil =>
      intro right _ terminated
      cases right with
      | nil => exact ⟨0, rfl, by simp⟩
      | cons b right =>
          refine ⟨_, rfl, ?_⟩
          have nonzero := List.ne_of_not_mem_cons terminated
          rw [ne_eq, ← UInt8.toNat_inj] at nonzero
          simp only [reduceCtorEq, iff_false]
          have isZero : (0 : UInt8).toNat = 0 := rfl
          omega
  | cons a left ih =>
      intro right leftEnds rightEnds
      have nonzero := List.ne_of_not_mem_cons leftEnds
      have leftEnds := List.not_mem_of_not_mem_cons leftEnds
      cases right with
      | nil =>
          refine ⟨_, if_neg (fun both => nonzero both.2.symm), ?_⟩
          rw [ne_eq, ← UInt8.toNat_inj] at nonzero
          simp only [reduceCtorEq, iff_false]
          have isZero : (0 : UInt8).toNat = 0 := rfl
          omega
      | cons b right =>
          have restEnds := List.not_mem_of_not_mem_cons rightEnds
          by_cases same : a = b
          · subst same
            rcases ih right leftEnds restEnds with ⟨difference, isDone, isZero⟩
            refine ⟨difference, ?_, ?_⟩
            · rw [List.cons_append, List.cons_append, strcmp, if_pos ⟨nonzero.symm, rfl⟩,
                isDone]
            · rw [isZero]
              simp
          · refine ⟨_, if_neg (fun both => same both.2), ?_⟩
            rw [← UInt8.toNat_inj] at same
            rw [List.cons.injEq, ← UInt8.toNat_inj]
            omega

/-! ## The branch for a word -/

/-- The branch of the first word that is equal. -/
def branchFor (word : List UInt8) (words : List (List Char × Command)) : Command :=
  ((words.find? fun entry => literal entry.1 = word).map (·.2)).getD .notFound

theorem branchOf_eq {word : List UInt8} (terminated : 0 ∉ word)
    (words : List (List Char × Command)) :
    (∀ entry ∈ words, 0 ∉ literal entry.1) →
      branchOf (word ++ [0]) words = .done (branchFor word words) := by
  induction words with
  | nil =>
      intro _
      rfl
  | cons entry words ih =>
      intro literals
      rcases strcmp_spec word (literal entry.1) terminated
        (literals entry List.mem_cons_self) with ⟨difference, isDone, isZero⟩
      rw [branchOf, isDone, Checked.done_bind]
      by_cases same : word = literal entry.1
      · rw [if_pos (isZero.mpr same), branchFor,
          List.find?_cons_of_pos (by simpa using same.symm)]
        rfl
      · rw [if_neg (fun zero => same (isZero.mp zero)),
          ih fun other member => literals other (.tail _ member), branchFor, branchFor,
          List.find?_cons_of_neg (by simpa using fun equal => same equal.symm)]

theorem branchFor_eq_exec_iff (word : List UInt8) :
    branchFor word commandWords = .exec ↔ word = literal ['e', 'x', 'e', 'c'] := by
  constructor
  · intro isExec
    unfold branchFor at isExec
    cases found : commandWords.find? fun entry => literal entry.1 = word with
    | none =>
        rw [found] at isExec
        cases isExec
    | some entry =>
        rw [found] at isExec
        have only : ∀ entry ∈ commandWords, entry.2 = .exec →
            literal entry.1 = literal ['e', 'x', 'e', 'c'] := by decide
        have isWord : literal entry.1 = word := by simpa using List.find?_some found
        rw [← isWord]
        exact only entry (List.mem_of_find?_eq_some found) isExec
  · rintro rfl
    decide

/-- What `execute_command` reads off a line. -/
theorem executeCommand_eq (line : CString) :
    ∃ args, executeCommand (memoryOf line) =
      .done ((firstWord line.bytes).take 63,
        branchFor ((firstWord line.bytes).take 63) commandWords, args) := by
  have terminated : 0 ∉ (firstWord line.bytes).take 63 := by
    intro member
    exact line.noNul ((List.takeWhile_sublist _).subset (List.mem_of_mem_take member))
  have literals : ∀ entry ∈ commandWords, 0 ∉ literal entry.1 := by decide
  have inside : 0 < (line.bytes.drop ((firstWord line.bytes).take 63).length ++
      [0]).length := by simp
  unfold executeCommand memoryOf
  rw [copyWord_eq line.bytes _ line.noNul]
  simp only [Checked.done_bind, commandSize, Nat.add_one_sub_one,
    Checked.get_of_lt inside, branchOf_eq terminated commandWords literals]
  exact ⟨_, rfl⟩

/-! ## The guard -/

/-- The line starts with a word and a space, or is the word. -/
def startsWord : (expected line : List UInt8) → Checked Unit Bool
  | _, [] => .outside
  | [], c :: _ => .done (c = space ∨ c = 0)
  | e :: expected, c :: rest =>
      if c = e then startsWord expected rest else .done false

theorem characterIs_drop {line rest : List UInt8} {index : Nat} {first : UInt8}
    (isDrop : line.drop index = first :: rest) (expected : UInt8) :
    characterIs line index expected = .done (decide (first = expected)) := by
  unfold characterIs
  rw [Checked.get_of_drop isDrop, Checked.done_bind]

theorem andThen_eq (buffer expected : List UInt8) (index : Nat) (e : UInt8)
    {next : Checked Unit Bool} (isNext : next = startsWord expected (buffer.drop (index + 1))) :
    andThen (characterIs buffer index e) next = startsWord (e :: expected) (buffer.drop index) := by
  cases isDrop : buffer.drop index with
  | nil =>
      have outside : buffer[index]? = none := by
        rw [← List.head?_drop, isDrop]
        rfl
      unfold andThen characterIs Checked.get
      rw [outside]
      rfl
  | cons first rest =>
      have isRest := (getElem?_of_drop isDrop).2
      rw [isRest] at isNext
      unfold andThen
      rw [characterIs_drop isDrop, Checked.done_bind, isNext, startsWord]
      by_cases same : first = e
      · rw [if_pos (decide_eq_true same), if_pos same]
      · rw [if_neg (by simpa using same), if_neg same]

theorem isExec_eq (buffer : List UInt8) :
    isExec buffer = startsWord (literal ['e', 'x', 'e', 'c']) buffer := by
  refine andThen_eq buffer _ 0 _ (andThen_eq buffer _ 1 _ (andThen_eq buffer _ 2 _
    (andThen_eq buffer _ 3 _ ?_)))
  cases isDrop : buffer.drop 4 with
  | nil =>
      have outside : buffer[4]? = none := by
        rw [← List.head?_drop, isDrop]
        rfl
      unfold Checked.get
      rw [outside]
      rfl
  | cons last rest =>
      rw [Checked.get_of_drop isDrop, Checked.done_bind]
      rfl

theorem firstWord_cons (c : UInt8) (characters : List UInt8) :
    firstWord (c :: characters) = if c = space then [] else c :: firstWord characters := by
  unfold firstWord
  rw [List.takeWhile_cons]
  by_cases isSpace : c = space
  · rw [if_pos isSpace, if_neg (by simpa using isSpace)]
  · rw [if_neg isSpace, if_pos (by simpa using isSpace)]

theorem startsWord_eq (expected : List UInt8) :
    ∀ characters, 0 ∉ characters → 0 ∉ expected → space ∉ expected →
      startsWord expected (characters ++ [0]) =
        .done (decide (firstWord characters = expected)) := by
  induction expected with
  | nil =>
      intro characters terminated _ _
      cases characters with
      | nil => rfl
      | cons c characters =>
          have nonzero := (List.ne_of_not_mem_cons terminated).symm
          rw [List.cons_append, startsWord, firstWord_cons]
          by_cases isSpace : c = space
          · rw [if_pos isSpace, decide_eq_true (Or.inl isSpace), decide_eq_true rfl]
          · rw [if_neg isSpace, decide_eq_false (not_or.mpr ⟨isSpace, nonzero⟩),
              decide_eq_false (List.cons_ne_nil _ _)]
  | cons e expected ih =>
      intro characters terminated nonzero noSpace
      have isNonzero := List.ne_of_not_mem_cons nonzero
      have isNoSpace := List.ne_of_not_mem_cons noSpace
      cases characters with
      | nil =>
          rw [List.nil_append, startsWord, if_neg isNonzero]
          rfl
      | cons c characters =>
          rw [List.cons_append, startsWord, firstWord_cons]
          by_cases same : c = e
          · subst same
            rw [if_pos rfl, if_neg isNoSpace.symm, ih characters
              (List.not_mem_of_not_mem_cons terminated)
              (List.not_mem_of_not_mem_cons nonzero) (List.not_mem_of_not_mem_cons noSpace)]
            simp
          · rw [if_neg same]
            by_cases isSpace : c = space
            · rw [if_pos isSpace, decide_eq_false (List.cons_ne_nil _ _).symm]
            · rw [if_neg isSpace, decide_eq_false (fun equal => same (List.cons.inj equal).1)]

theorem syscallDispatch_run (ebx : UInt32) (memory : List UInt8) :
    syscallDispatch sysRun ebx memory = (isExec memory >>= fun guarded =>
      if guarded then .done .refused
      else executeCommand memory >>= fun taken => .done (.run taken.2.1 taken.2.2)) := rfl

/-- The guard refuses exactly the lines for which `execute_command` takes the branch of
`exec`, and hands every other line on. -/
theorem run_refuses_exec (line : CString) (ebx : UInt32) :
    ∃ word branch args guarded,
      executeCommand (memoryOf line) = .done (word, branch, args) ∧
      isExec (memoryOf line) = .done guarded ∧
      (guarded = true ↔ word = literal ['e', 'x', 'e', 'c']) ∧
      (guarded = true ↔ branch = .exec) ∧
      syscallDispatch sysRun ebx (memoryOf line) =
        .done (if branch = .exec then .refused else .run branch args) := by
  rcases executeCommand_eq line with ⟨args, isDone⟩
  have isGuard : isExec (memoryOf line) =
      .done (decide (firstWord line.bytes = literal ['e', 'x', 'e', 'c'])) := by
    rw [isExec_eq]
    exact startsWord_eq _ line.bytes line.noNul (by decide) (by decide)
  -- The cut cannot make a longer word equal to one of four characters.
  have uncut : (firstWord line.bytes).take 63 = literal ['e', 'x', 'e', 'c'] ↔
      firstWord line.bytes = literal ['e', 'x', 'e', 'c'] := by
    constructor
    · intro isCut
      have isLength := congrArg List.length isCut
      have four : (literal ['e', 'x', 'e', 'c']).length = 4 := rfl
      rw [List.length_take, four] at isLength
      rwa [List.take_of_length_le (by omega)] at isCut
    · intro isWord
      rw [isWord]
      rfl
  have guardedWord : (decide (firstWord line.bytes = literal ['e', 'x', 'e', 'c'])) = true ↔
      (firstWord line.bytes).take 63 = literal ['e', 'x', 'e', 'c'] := by
    rw [decide_eq_true_iff, uncut]
  have guardedBranch := guardedWord.trans (branchFor_eq_exec_iff _).symm
  refine ⟨_, _, args, _, isDone, isGuard, guardedWord, guardedBranch, ?_⟩
  rw [syscallDispatch_run, isGuard, Checked.done_bind, isDone, Checked.done_bind]
  by_cases isBranch : branchFor ((firstWord line.bytes).take 63) commandWords = .exec
  · rw [if_pos isBranch, if_pos (guardedBranch.mpr isBranch)]
  · rw [if_neg isBranch, if_neg (fun guarded => isBranch (guardedBranch.mp guarded))]

end Katela.Shell
