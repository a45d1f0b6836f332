import Mathlib.Data.List.Basic
import Katela.Shell.Commands

/-! # Scripts

`script_interpreter_entry` of `src/kernel/standart.c`, with the lines that it hands to
`SYS_RUN`. The end of a statement is recognised by the last character in the buffer, so a
statement that fills the buffer hides its end. -/

namespace Katela.Shell

open Katela.Filesystem (CString)

def colon : UInt8 := 58

def newline : UInt8 := 10

def shellLineSize : Nat := 256

/-- What a character does to the characters in the buffer, and the line that is run. -/
def scriptStep (line : List UInt8) (c : UInt8) : List UInt8 × List (List UInt8) :=
  if c = colon ∧ line.getLast? = some space then
    ([], if line.dropLast = [] then [] else [line.dropLast])
  else if c = newline then
    if line ≠ [] ∧ line.getLast? ≠ some space ∧ line.length < shellLineSize - 1 then
      (line ++ [space], [])
    else (line, [])
  else if c = space ∧ line = [] then (line, [])
  else if line.length < shellLineSize - 1 then (line ++ [c], [])
  else (line, [])

/-- The lines that are run for the rest of a script. -/
def scriptLoop : (script line : List UInt8) → List (List UInt8)
  | [], line => if line = [] then [] else [line]
  | c :: script, line => (scriptStep line c).2 ++ scriptLoop script (scriptStep line c).1

def scriptInterpreterEntry (script : CString) : List (List UInt8) :=
  scriptLoop script.bytes []

/-! ## The format of a script -/

structure Statement where
  bytes : List UInt8
  nonempty : bytes ≠ []
  noNul : 0 ∉ bytes
  noNewline : newline ∉ bytes
  start : bytes.head? ≠ some space
  finish : bytes.getLast? ≠ some space
  noEnd : ¬ [space, colon] <:+: bytes

/-- The statements before the last one. -/
def frontText : List Statement → List UInt8
  | [] => []
  | statement :: rest => statement.bytes ++ [space, colon, newline] ++ frontText rest

/-- What can come behind the last statement. -/
def ending (ended finalNewline : Bool) : List UInt8 :=
  (if ended then [space, colon] else []) ++ if finalNewline then [newline] else []

def scriptText (front : List Statement) (last : Statement) (ended finalNewline : Bool) :
    List UInt8 :=
  frontText front ++ (last.bytes ++ ending ended finalNewline)

theorem zero_notMem_scriptText (front : List Statement) (last : Statement)
    (ended finalNewline : Bool) : 0 ∉ scriptText front last ended finalNewline := by
  have inFront : 0 ∉ frontText front := by
    induction front with
    | nil => exact List.not_mem_nil
    | cons statement rest ih =>
        simp only [frontText, List.mem_append, not_or]
        exact ⟨⟨statement.noNul, by decide⟩, ih⟩
  have inEnding : 0 ∉ ending ended finalNewline := by
    cases ended <;> cases finalNewline <;> decide
  simp only [scriptText, List.mem_append, not_or]
  exact ⟨inFront, last.noNul, inEnding⟩

/-- The script of some statements and a last one. -/
def scriptOf (front : List Statement) (last : Statement) (ended finalNewline : Bool) :
    CString where
  bytes := scriptText front last ended finalNewline
  noNul := zero_notMem_scriptText front last ended finalNewline

/-- The line for a statement. -/
def Statement.line (statement : Statement) : List UInt8 :=
  statement.bytes.take (shellLineSize - 1)

/-- Each statement is run once and in order. -/
def RunsEach (front : List Statement) (last : Statement) (ended finalNewline : Bool) : Prop :=
  scriptInterpreterEntry (scriptOf front last ended finalNewline) =
    (front ++ [last]).map Statement.line

/-- What the last statement has to be like. -/
def LastFits (last : Statement) (ended finalNewline : Bool) : Prop :=
  if ended then last.bytes[254]? ≠ some space
  else (finalNewline = false ∨ 255 ≤ last.bytes.length) ∧
    ¬ (last.bytes[254]? = some space ∧ colon ∈ last.bytes.drop 255)

/-- Each statement but the last one leaves room for the space behind it. -/
def FrontFits (front : List Statement) : Prop :=
  ∀ statement ∈ front, statement.bytes.length ≤ 254

/-! ## Steps -/

/-- A character that goes into the buffer. -/
theorem scriptStep_store {line : List UInt8} {c : UInt8} (noNewline : c ≠ newline)
    (noEnd : ¬ (c = colon ∧ line.getLast? = some space)) (noStart : ¬ (c = space ∧ line = []))
    (room : line.length < shellLineSize - 1) : scriptStep line c = (line ++ [c], []) := by
  unfold scriptStep
  rw [if_neg noEnd, if_neg noNewline, if_neg noStart, if_pos room]

/-- The end of a statement. -/
theorem scriptStep_end {line : List UInt8} (nonempty : line ≠ []) :
    scriptStep (line ++ [space]) colon = ([], [line]) := by
  unfold scriptStep
  rw [if_pos ⟨rfl, List.getLast?_concat⟩, List.dropLast_concat, if_neg nonempty]

/-- A full buffer ignores every character that does not end the statement. -/
theorem scriptStep_full {line : List UInt8} {c : UInt8}
    (full : line.length = shellLineSize - 1)
    (noEnd : ¬ (c = colon ∧ line.getLast? = some space)) : scriptStep line c = (line, []) := by
  have nonempty : line ≠ [] := List.ne_nil_of_length_eq_add_one full
  unfold scriptStep
  rw [if_neg noEnd, full]
  by_cases isNewline : c = newline
  · rw [if_pos isNewline, if_neg fun all => Nat.lt_irrefl _ all.2.2]
  · rw [if_neg isNewline, if_neg fun both => nonempty both.2, if_neg (Nat.lt_irrefl _)]

theorem scriptLoop_cons {line after : List UInt8} {c : UInt8} {runs : List (List UInt8)}
    (isStep : scriptStep line c = (after, runs)) (script : List UInt8) :
    scriptLoop (c :: script) line = runs ++ scriptLoop script after := by
  rw [scriptLoop, isStep]

/-! ## Runs -/

/-- The characters of a statement go into the buffer as long as there is room. -/
theorem scriptLoop_store (characters : List UInt8) :
    ∀ {line : List UInt8} (script : List UInt8), newline ∉ characters →
      ¬ [space, colon] <:+: line ++ characters → (line ++ characters).head? ≠ some space →
      line.length + characters.length ≤ shellLineSize - 1 →
      scriptLoop (characters ++ script) line = scriptLoop script (line ++ characters) := by
  induction characters with
  | nil =>
      intro line script _ _ _ _
      rw [List.nil_append, List.append_nil]
  | cons c characters ih =>
      intro line script noNewline noEnd start room
      have isAppend : line ++ c :: characters = line ++ [c] ++ characters :=
        List.append_cons line c characters
      rw [List.length_cons] at room
      have notEnd : ¬ (c = colon ∧ line.getLast? = some space) := by
        rintro ⟨rfl, isSpace⟩
        rcases List.getLast?_eq_some_iff.mp isSpace with ⟨before, rfl⟩
        exact noEnd ⟨before, characters, by simp⟩
      have notStart : ¬ (c = space ∧ line = []) := by
        rintro ⟨rfl, rfl⟩
        exact start rfl
      have stored := scriptStep_store (List.ne_of_not_mem_cons noNewline).symm notEnd
        notStart (by omega)
      rw [List.cons_append, scriptLoop_cons stored, List.nil_append]
      rw [isAppend] at noEnd start ⊢
      refine ih script (List.not_mem_of_not_mem_cons noNewline) noEnd start ?_
      rw [List.length_append, List.length_singleton]
      omega

/-- A full buffer whose last character is no space keeps everything behind it out. -/
theorem scriptLoop_stuck {line : List UInt8} (full : line.length = shellLineSize - 1)
    (noSpace : line.getLast? ≠ some space) (script : List UInt8) :
    scriptLoop script line = [line] := by
  induction script with
  | nil => exact if_neg (List.ne_nil_of_length_eq_add_one full)
  | cons c script ih =>
      rw [scriptLoop_cons (scriptStep_full full fun both => noSpace both.2), ih,
        List.nil_append]

/-- With a space as its last character, it waits for a colon. -/
theorem scriptLoop_waits {line : List UInt8} (full : line.length = shellLineSize - 1)
    (script : List UInt8) :
    (colon ∉ script → scriptLoop script line = [line]) ∧
      (line.getLast? = some space → colon ∈ script →
        (scriptLoop script line).head? = some line.dropLast) := by
  induction script with
  | nil => exact ⟨fun _ => if_neg (List.ne_nil_of_length_eq_add_one full), nofun⟩
  | cons c script ih =>
      by_cases isColon : c = colon
      · subst isColon
        refine ⟨fun noColon => absurd List.mem_cons_self noColon, fun isSpace _ => ?_⟩
        have nonempty : line.dropLast ≠ [] := by
          apply List.ne_nil_of_length_pos
          rw [List.length_dropLast, full]
          decide
        have isStep : scriptStep line colon = ([], [line.dropLast]) := by
          unfold scriptStep
          rw [if_pos ⟨rfl, isSpace⟩, if_neg nonempty]
        rw [scriptLoop_cons isStep]
        rfl
      · have isStep := scriptStep_full full fun both => isColon both.1
        rw [scriptLoop_cons isStep, List.nil_append]
        refine ⟨fun noColon => ih.1 (List.not_mem_of_not_mem_cons noColon), ?_⟩
        intro isSpace member
        rcases List.mem_cons.mp member with isFirst | later
        · exact absurd isFirst.symm isColon
        · exact ih.2 isSpace later

/-! ## Statements -/

section Statements

variable (statement : Statement)

/-- A statement fills the buffer as far as it fits. -/
theorem scriptLoop_fill (script : List UInt8) :
    scriptLoop (statement.bytes ++ script) [] =
      scriptLoop (statement.bytes.drop 255 ++ script) statement.line := by
  have isLine : [] ++ statement.line = statement.line := List.nil_append _
  have starts : statement.line <+: statement.bytes := List.take_prefix _ _
  have split : statement.bytes ++ script =
      statement.line ++ (statement.bytes.drop 255 ++ script) := by
    rw [← List.append_assoc]
    exact congrArg (· ++ script) (List.take_append_drop 255 _).symm
  rw [split, scriptLoop_store statement.line]
  · rw [isLine]
  · exact fun member => statement.noNewline (starts.subset member)
  · rw [isLine]
    exact fun within => statement.noEnd (within.trans starts.isInfix)
  · rw [isLine]
    unfold Statement.line shellLineSize
    rw [List.head?_take, if_neg (by decide)]
    exact statement.start
  · rw [List.length_nil, Nat.zero_add]
    exact List.length_take_le _ _

theorem Statement.line_of_short {statement : Statement}
    (short : statement.bytes.length ≤ 254) : statement.line = statement.bytes :=
  List.take_of_length_le (by simp only [shellLineSize]; omega)

theorem scriptLoop_fill_short (short : statement.bytes.length ≤ 254)
    (script : List UInt8) :
    scriptLoop (statement.bytes ++ script) [] = scriptLoop script statement.bytes := by
  rw [scriptLoop_fill, statement.line_of_short short, List.drop_eq_nil_of_le (by omega),
    List.nil_append]

/-- A statement that leaves room for the space behind it is run. -/
theorem scriptLoop_short (short : statement.bytes.length ≤ 254) (script : List UInt8) :
    scriptLoop (statement.bytes ++ (space :: colon :: script)) [] =
      statement.bytes :: scriptLoop script [] := by
  have isSize : shellLineSize = 256 := rfl
  have stored : scriptStep statement.bytes space = (statement.bytes ++ [space], []) :=
    scriptStep_store (by decide) (fun both => absurd both.1 (by decide))
      (fun both => statement.nonempty both.2) (by omega)
  rw [scriptLoop_fill_short statement short, scriptLoop_cons stored,
    scriptLoop_cons (scriptStep_end statement.nonempty)]
  rfl

end Statements

/-! ## The last statement -/

theorem Statement.length_line {statement : Statement}
    (long : 255 ≤ statement.bytes.length) : statement.line.length = shellLineSize - 1 := by
  unfold Statement.line shellLineSize
  rw [List.length_take]
  omega

theorem Statement.getLast?_line {statement : Statement}
    (long : 255 ≤ statement.bytes.length) :
    statement.line.getLast? = statement.bytes[254]? := by
  rw [List.getLast?_eq_getElem?, statement.length_line long]
  exact List.getElem?_take_of_lt (by decide)

/-- A statement that fills the buffer is run as far as it fits, unless a colon comes
behind a buffer that ends with a space. -/
theorem scriptLoop_long_iff {statement : Statement} (long : 255 ≤ statement.bytes.length)
    (script : List UInt8) :
    scriptLoop (statement.bytes ++ script) [] = [statement.line] ↔
      ¬ (statement.bytes[254]? = some space ∧ colon ∈ statement.bytes.drop 255 ++ script) := by
  have full := statement.length_line long
  rw [scriptLoop_fill statement, ← statement.getLast?_line long]
  constructor
  · rintro isRun ⟨isSpace, member⟩
    have first := (scriptLoop_waits full _).2 isSpace member
    rw [isRun] at first
    have shorter := congrArg List.length (Option.some.inj first)
    rw [List.length_dropLast, full] at shorter
    exact absurd shorter (by decide)
  · intro unseen
    by_cases isSpace : statement.line.getLast? = some space
    · exact (scriptLoop_waits full _).1 fun member => unseen ⟨isSpace, member⟩
    · exact scriptLoop_stuck full isSpace _

theorem colon_mem_ending_iff (ended finalNewline : Bool) :
    colon ∈ ending ended finalNewline ↔ ended = true := by
  cases ended <;> cases finalNewline <;> decide

theorem scriptLoop_last_iff (last : Statement) (ended finalNewline : Bool) :
    scriptLoop (last.bytes ++ ending ended finalNewline) [] = [last.line] ↔
      LastFits last ended finalNewline := by
  unfold LastFits
  by_cases long : 255 ≤ last.bytes.length
  · rw [scriptLoop_long_iff long, List.mem_append, colon_mem_ending_iff]
    cases ended <;> simp [long]
  · have short : last.bytes.length ≤ 254 := by omega
    have unseen : last.bytes[254]? = none := List.getElem?_eq_none short
    rw [last.line_of_short short, unseen]
    cases ended with
    | true =>
        have isEnding : ending true finalNewline =
            space :: colon :: if finalNewline then [newline] else [] := rfl
        rw [isEnding, scriptLoop_short last short]
        cases finalNewline <;> simp [scriptLoop, scriptStep]
    | false =>
        rw [scriptLoop_fill_short last short]
        cases finalNewline with
        | false => simp [ending, scriptLoop, last.nonempty]
        | true =>
            have isSize : shellLineSize = 256 := rfl
            have isStep : scriptStep last.bytes newline = (last.bytes ++ [space], []) := by
              unfold scriptStep
              rw [if_neg fun both => absurd both.1 (by decide), if_pos rfl,
                if_pos ⟨last.nonempty, last.finish, by omega⟩]
            have isRun : scriptLoop [newline] last.bytes = [last.bytes ++ [space]] := by
              rw [scriptLoop_cons isStep, List.nil_append]
              exact if_neg (List.append_ne_nil_of_right_ne_nil _ (List.cons_ne_nil _ _))
            have isEnding : ending false true = [newline] := rfl
            rw [isEnding, isRun]
            simp [long]

/-! ## Scripts -/

/-- A statement that is too long takes the place of all later ones, or is cut shorter
than it has to be. -/
theorem scriptLoop_long_ne {statement : Statement} (long : 255 ≤ statement.bytes.length)
    (script : List UInt8) {lines : List (List UInt8)} (more : lines ≠ []) :
    scriptLoop (statement.bytes ++ (space :: colon :: script)) [] ≠ statement.line :: lines := by
  have full := statement.length_line long
  rw [scriptLoop_fill statement]
  intro isRun
  by_cases isSpace : statement.line.getLast? = some space
  · have member : colon ∈ statement.bytes.drop 255 ++ (space :: colon :: script) := by
      simp
    have first := (scriptLoop_waits full _).2 isSpace member
    rw [isRun] at first
    have shorter := congrArg List.length (Option.some.inj first)
    rw [List.length_dropLast, full] at shorter
    exact absurd shorter (by decide)
  · rw [scriptLoop_stuck full isSpace] at isRun
    exact more (List.cons.inj isRun).2.symm

/-- The statements of a script are run one by one exactly if each but the last one leaves
room for the space behind it and the last one fits. -/
theorem script_runsEach_iff (front : List Statement) (last : Statement)
    (ended finalNewline : Bool) :
    RunsEach front last ended finalNewline ↔
      FrontFits front ∧ LastFits last ended finalNewline := by
  unfold RunsEach scriptInterpreterEntry scriptOf scriptText FrontFits
  dsimp only
  induction front with
  | nil =>
      rw [frontText, List.nil_append, List.nil_append, List.map_singleton,
        scriptLoop_last_iff]
      simp
  | cons statement front ih =>
      have isText : frontText (statement :: front) ++ (last.bytes ++ ending ended finalNewline) =
          statement.bytes ++ (space :: colon :: (newline ::
            (frontText front ++ (last.bytes ++ ending ended finalNewline)))) := by
        simp [frontText]
      rw [isText, List.cons_append, List.map_cons, List.forall_mem_cons]
      by_cases short : statement.bytes.length ≤ 254
      · have isSkipped : scriptStep [] newline = ([], []) := rfl
        rw [scriptLoop_short statement short, scriptLoop_cons isSkipped, List.nil_append,
          statement.line_of_short short, List.cons.injEq, ih]
        simp only [short, true_and]
      · have long : 255 ≤ statement.bytes.length := by omega
        have more : (front ++ [last]).map Statement.line ≠ [] := by simp
        simp only [scriptLoop_long_ne long _ more, short, false_and]

/-- The statement `dt`. -/
def diskTest : Statement where
  bytes := literal ['d', 't']
  nonempty := by decide
  noNul := by decide
  noNewline := by decide
  start := by decide
  finish := by decide
  noEnd := by decide

/-- A final newline becomes a space at the end of the line that is run. -/
theorem final_newline_appended : ¬ RunsEach [] diskTest false true := by
  unfold RunsEach
  decide

end Katela.Shell
