import Katela.Drivers.Keyboard
import Katela.Shell.Rename
import Katela.Shell.Script
import Mathlib.Data.List.OfFn

/-! # Lines and texts that are typed

The line of `kernel_main` and the editor `swiss` in `src/kernel/kernel.c`. What they print is
left out. -/

namespace Katela.Shell

open Katela.Filesystem (CString fsNameMax)

def backspace : UInt8 := 8

def escape : UInt8 := 27

def store (memory : List UInt8) (index : Nat) (byte : UInt8) : Checked Unit (List UInt8) :=
  if index < memory.length then .done (memory.set index byte) else .outside

/-! ## Lines -/

/-- The local variables of `kernel_main`. -/
structure Line where
  buffer : List UInt8
  index : Nat

/-- A key other than the one that ends the line. -/
def lineKey (line : Line) (c : UInt8) : Checked Unit Line :=
  if c = backspace then .done { line with index := line.index - 1 }
  else if line.index < shellLineSize - 1 then do
    let buffer ← store line.buffer line.index c
    .done ⟨buffer, line.index + 1⟩
  else .done line

/-- The loop of `kernel_main` up to the next call of `execute_command`: its buffer, and the
keys that come later. -/
def lineLoop : List UInt8 → Line → Checked Unit (Option (List UInt8 × List UInt8))
  | [], _ => .done none
  | c :: keys, line =>
      if c = newline then do
        let buffer ← store line.buffer line.index 0
        if line.index = 0 then lineLoop keys { line with buffer }
        else .done (some (buffer, keys))
      else do
        let line ← lineKey line c
        lineLoop keys line

/-! ## Texts -/

/-- What `kmalloc` finds in the memory that it gives; without memory it panics. -/
abbrev Heap : Type := (size : Nat) → Option (Fin size → UInt8)

def kmalloc (heap : Heap) (size : Nat) : Checked Unit (List UInt8) :=
  match heap size with
  | none => .failed ()
  | some contents => .done (List.ofFn contents)

def memcpy (dest src : List UInt8) (count : Nat) : Checked Unit (List UInt8) :=
  if count ≤ dest.length ∧ count ≤ src.length then .done (src.take count ++ dest.drop count)
  else .outside

def swissStartSize : Nat := 1024

def swissMaxSize : Nat := 512 * 1024

/-- The local variables of `swiss`. -/
structure Editor where
  buffer : List UInt8
  capacity : Nat
  index : Nat

def swissKey (heap : Heap) (editor : Editor) (c : UInt8) : Checked Unit Editor :=
  if c = backspace then .done { editor with index := editor.index - 1 }
  else if editor.capacity ≤ editor.index + 1 then
    if swissMaxSize ≤ editor.capacity then .done editor
    else do
      let bigger ← kmalloc heap (editor.capacity * 2)
      let bigger ← memcpy bigger editor.buffer editor.index
      let buffer ← store bigger editor.index c
      .done ⟨buffer, editor.capacity * 2, editor.index + 1⟩
  else do
    let buffer ← store editor.buffer editor.index c
    .done { editor with buffer, index := editor.index + 1 }

def swissLoop (heap : Heap) : List UInt8 → Editor → Checked Unit (Option (Editor × List UInt8))
  | [], _ => .done none
  | c :: keys, editor =>
      if c = escape then .done (some (editor, keys))
      else do
        let editor ← swissKey heap editor c
        swissLoop heap keys editor

/-- The loop that copies the name; gives the index behind it. -/
def nameLoop (buffer : List UInt8) : (room i : Nat) → Checked Unit (List UInt8 × Nat)
  | 0, i => do
      let _ ← Checked.get buffer i
      .done ([], i)
  | room + 1, i => do
      let c ← Checked.get buffer i
      if c ≠ 62 ∧ c ≠ newline ∧ c ≠ 0 then do
        let (name, i) ← nameLoop buffer room (i + 1)
        .done (c :: name, i)
      else .done ([], i)

/-- The arguments of `fs_write_all`, where it is called. -/
def swissFile (buffer : List UInt8) (index : Nat) :
    Checked Unit (Option (CString × List UInt8)) := do
  let first ← Checked.get buffer 0
  if first ≠ 63 then .done none
  else do
    let second ← Checked.get buffer 1
    if second ≠ 60 then .done none
    else do
      let (name, i) ← nameLoop buffer fsNameMax 2
      let c ← Checked.get buffer i
      if c = 62 ∧ name ≠ [] then do
        let next ← Checked.get buffer (i + 1)
        let start := if next = newline then i + 2 else i + 1
        let content ← Checked.slice buffer start ((index + 2 ^ 32 - start) % 2 ^ 32)
        .done (some (stringIn (name ++ [0]), content))
      else .done none

/-- `swiss`: the file that it writes, and the keys that come later. -/
def swiss (heap : Heap) (keys : List UInt8) :
    Checked Unit (Option (Option (CString × List UInt8) × List UInt8)) := do
  let buffer ← kmalloc heap swissStartSize
  match ← swissLoop heap keys ⟨buffer, swissStartSize, 0⟩ with
  | none => .done none
  | some (editor, keys) => do
      let buffer ← store editor.buffer editor.index 0
      let file ← swissFile buffer editor.index
      .done (some (file, keys))

/-! ## What is typed -/

/-- A key in a text of at most `limit` characters. -/
def edit (limit : Nat) (text : List UInt8) (c : UInt8) : List UInt8 :=
  if c = backspace then text.dropLast else if text.length < limit then text ++ [c] else text

def edited (limit : Nat) (keys : List UInt8) : List UInt8 := keys.foldl (edit limit) []

/-- The computation stays inside of its memory, and its result is as asked unless it fails. -/
def Returns {α : Type} (computation : Checked Unit α) (holds : α → Prop) : Prop :=
  match computation with
  | .done value => holds value
  | .failed _ => True
  | .outside => False
  | .endless => False

namespace Returns

variable {α β : Type} {computation : Checked Unit α} {next : α → Checked Unit β}
variable {holds : α → Prop} {holds' : β → Prop}

theorem bind (returns : Returns computation holds)
    (rest : ∀ value, holds value → Returns (next value) holds') :
    Returns (computation >>= next) holds' := by
  cases computation with
  | done value => exact rest value returns
  | failed error => trivial
  | outside => exact returns
  | endless => exact returns

theorem mono {more : α → Prop} (returns : Returns computation holds)
    (implies : ∀ value, holds value → more value) : Returns computation more := by
  cases computation with
  | done value => exact implies value returns
  | failed error => trivial
  | outside => exact returns
  | endless => exact returns

theorem ite {condition : Prop} [Decidable condition] {other : Checked Unit α}
    (yes : condition → Returns computation holds) (no : ¬ condition → Returns other holds) :
    Returns (if condition then computation else other) holds := by
  split
  · exact yes ‹_›
  · exact no ‹_›

end Returns

section Typing

variable {heap : Heap} {text memory : List UInt8} {index : Nat} {c : UInt8}

theorem store_returns (inside : index < memory.length) :
    Returns (store memory index c) (· = memory.set index c) := by
  unfold store
  rw [if_pos inside]
  exact rfl

theorem kmalloc_returns (size : Nat) :
    Returns (kmalloc heap size) fun memory => memory.length = size := by
  unfold kmalloc
  cases heap size with
  | none => trivial
  | some contents => exact List.length_ofFn

theorem take_set (isText : memory.take index = text) (inside : index < memory.length) :
    (memory.set index c).take (index + 1) = text ++ [c] := by
  rw [List.take_succ_eq_append_getElem (by rw [List.length_set]; exact inside),
    List.getElem_set_self, List.take_set_of_le (Nat.le_refl _), isText]

theorem take_pred (isText : memory.take index = text) (isIndex : index = text.length) :
    memory.take (index - 1) = text.dropLast := by
  rw [← isText, List.dropLast_eq_take, isText, ← isIndex, ← isText, List.take_take,
    Nat.min_eq_left (Nat.sub_le _ _)]

/-- The buffer of the line holds a text. -/
structure LineHolds (line : Line) (text : List UInt8) : Prop where
  size : line.buffer.length = shellLineSize
  isIndex : line.index = text.length
  isText : line.buffer.take line.index = text
  room : line.index < shellLineSize

theorem lineKey_returns {line : Line} (holds : LineHolds line text) (c : UInt8) :
    Returns (lineKey line c) fun line' =>
      LineHolds line' (edit (shellLineSize - 1) text c) := by
  have room := holds.room
  unfold lineKey edit
  refine .ite (fun isBackspace => ?_) fun other => ?_
  · rw [if_pos isBackspace]
    refine ⟨holds.size, ?_, take_pred holds.isText holds.isIndex, ?_⟩
    · rw [List.length_dropLast, ← holds.isIndex]
    · exact Nat.lt_of_le_of_lt (Nat.sub_le _ _) room
  rw [if_neg other, ← holds.isIndex]
  refine .ite (fun fits => ?_) fun full => ?_
  · have inside : line.index < line.buffer.length := by
      rw [holds.size]
      exact room
    rw [if_pos fits]
    refine (store_returns inside).bind fun buffer isStored => ?_
    subst isStored
    refine ⟨?_, ?_, take_set holds.isText inside, Nat.succ_lt_of_lt_pred fits⟩
    · rw [List.length_set, holds.size]
    · rw [List.length_append, List.length_singleton, holds.isIndex]
  · rw [if_neg full]
    exact holds

/-- The next line that is not empty, and the keys behind it. -/
def nextLine : (text keys : List UInt8) → Option (List UInt8 × List UInt8)
  | _, [] => none
  | text, c :: keys =>
      if c = newline then if text = [] then nextLine [] keys else some (text, keys)
      else nextLine (edit (shellLineSize - 1) text c) keys

theorem lineLoop_returns (keys : List UInt8) {line : Line} (holds : LineHolds line text) :
    Returns (lineLoop keys line) fun result =>
      match result, nextLine text keys with
      | some (buffer, rest), some (typed, rest') =>
          rest = rest' ∧ ∃ more, buffer = typed ++ 0 :: more
      | none, none => True
      | _, _ => False := by
  induction keys generalizing line text with
  | nil => trivial
  | cons c keys ih =>
      unfold lineLoop nextLine
      refine .ite (fun isEnd => ?_) fun other => ?_
      · have inside : line.index < line.buffer.length := by
          rw [holds.size]
          exact holds.room
        rw [if_pos isEnd]
        refine (store_returns inside).bind fun buffer isStored => ?_
        subst isStored
        have isEmpty : text = [] ↔ line.index = 0 := by
          rw [holds.isIndex, List.length_eq_zero_iff]
        refine .ite (fun isZero => ?_) fun notZero => ?_
        · rw [if_pos (isEmpty.mpr isZero)]
          refine ih ⟨?_, isZero, ?_, holds.room⟩
          · rw [List.length_set, holds.size]
          · rw [isZero, List.take_zero]
        · rw [if_neg (mt isEmpty.mp notZero)]
          refine ⟨rfl, line.buffer.drop (line.index + 1), ?_⟩
          rw [List.set_eq_take_append_cons_drop, if_pos inside, holds.isText]
      · rw [if_neg other]
        exact (lineKey_returns holds c).bind fun line' holds' => ih holds'

/-- Keys that end in empty lines. -/
def Blank (keys : List UInt8) : Prop :=
  ∃ lines : List (List UInt8), keys = lines.flatMap (· ++ [newline]) ∧
    ∀ line ∈ lines, newline ∉ line ∧ edited (shellLineSize - 1) line = []

theorem Blank.cons {line keys : List UInt8} (noNewline : newline ∉ line)
    (empty : edited (shellLineSize - 1) line = []) (blank : Blank keys) :
    Blank (line ++ newline :: keys) := by
  rcases blank with ⟨lines, rfl, areEmpty⟩
  refine ⟨line :: lines, ?_, ?_⟩
  · rw [List.flatMap_cons, List.append_assoc]
    rfl
  · intro other member
    rcases List.mem_cons.mp member with rfl | later
    · exact ⟨noNewline, empty⟩
    · exact areEmpty other later

/-- The keys of a line that has been started. -/
theorem nextLine_eq (keys : List UInt8) {started : List UInt8} (noNewline : newline ∉ started) :
    match nextLine (edited (shellLineSize - 1) started) keys with
    | none => ∃ blank last, started ++ keys = blank ++ last ∧ Blank blank ∧ newline ∉ last
    | some (typed, rest) => ∃ blank line, started ++ keys = blank ++ line ++ newline :: rest ∧
        Blank blank ∧ newline ∉ line ∧ typed = edited (shellLineSize - 1) line ∧ typed ≠ [] := by
  induction keys generalizing started with
  | nil =>
      refine ⟨[], started, by rw [List.append_nil, List.nil_append], ⟨[], rfl, nofun⟩, noNewline⟩
  | cons c keys ih =>
      unfold nextLine
      by_cases isEnd : c = newline
      · rw [if_pos isEnd, isEnd]
        by_cases isEmpty : edited (shellLineSize - 1) started = []
        · rw [if_pos isEmpty]
          have later := @ih [] List.not_mem_nil
          have nothing : edited (shellLineSize - 1) [] = [] := rfl
          rw [nothing, List.nil_append] at later
          cases isNext : nextLine [] keys with
          | none =>
              rw [isNext] at later
              rcases later with ⟨blank, last, rfl, isBlank, lastLine⟩
              exact ⟨started ++ newline :: blank, last,
                by rw [List.append_assoc, List.cons_append], isBlank.cons noNewline isEmpty, lastLine⟩
          | some next =>
              rw [isNext] at later
              rcases later with ⟨blank, line, rfl, isBlank, isLine⟩
              exact ⟨started ++ newline :: blank, line,
                by simp only [List.append_assoc, List.cons_append],
                isBlank.cons noNewline isEmpty, isLine⟩
        · rw [if_neg isEmpty]
          exact ⟨[], started, by rw [List.nil_append], ⟨[], rfl, nofun⟩, noNewline, rfl, isEmpty⟩
      · rw [if_neg isEnd]
        have isNext : edit (shellLineSize - 1) (edited (shellLineSize - 1) started) c =
            edited (shellLineSize - 1) (started ++ [c]) := by
          rw [edited, edited, List.foldl_append]
          rfl
        have without : newline ∉ started ++ [c] := by
          rw [List.mem_append, List.mem_singleton, not_or]
          exact ⟨noNewline, fun same => isEnd same.symm⟩
        have later := ih without
        rw [List.append_assoc, List.singleton_append] at later
        rw [isNext]
        exact later

theorem zero_notMem_edited {limit : Nat} {keys : List UInt8} (noNul : 0 ∉ keys) :
    0 ∉ edited limit keys := by
  induction keys using List.reverseRecOn with
  | nil => exact List.not_mem_nil
  | append_singleton keys c ih =>
      rw [List.mem_append, not_or] at noNul
      have before := ih noNul.1
      have isEdit : edited limit (keys ++ [c]) = edit limit (edited limit keys) c := by
        rw [edited, edited, List.foldl_append]
        rfl
      rw [isEdit]
      unfold edit
      split
      · exact fun member => before (List.mem_of_mem_dropLast member)
      · split
        · rw [List.mem_append, not_or]
          exact ⟨before, noNul.2⟩
        · exact before

theorem stringIn_append {word more : List UInt8} (noNul : 0 ∉ word) :
    (stringIn (word ++ 0 :: more)).bytes = word := by
  have ends : (0 :: more).takeWhile (· ≠ 0) = [] := rfl
  change (word ++ 0 :: more).takeWhile (· ≠ 0) = word
  rw [List.takeWhile_append_of_pos, ends, List.append_nil]
  intro c member
  have different : c ≠ 0 := fun isZero => noNul (isZero ▸ member)
  exact decide_eq_true different

theorem LineHolds.start {buffer : List UInt8} (size : buffer.length = shellLineSize) :
    LineHolds ⟨buffer, 0⟩ [] where
  size := size
  isIndex := rfl
  isText := List.take_zero
  room := Nat.succ_pos 255

/-- The buffer of the editor holds a text, and its size is one of those that it grows to. -/
structure EditorHolds (editor : Editor) (text : List UInt8) : Prop where
  size : editor.buffer.length = editor.capacity
  isIndex : editor.index = text.length
  isText : editor.buffer.take editor.index = text
  room : editor.index < editor.capacity
  doubled : ∃ times ≤ 9, editor.capacity = swissStartSize * 2 ^ times

theorem memcpy_returns {dest src : List UInt8} {count : Nat} (inside : count ≤ dest.length)
    (inside' : count ≤ src.length) :
    Returns (memcpy dest src count) (· = src.take count ++ dest.drop count) := by
  unfold memcpy
  rw [if_pos ⟨inside, inside'⟩]
  exact rfl

theorem doubled_small {capacity : Nat}
    (doubled : ∃ times ≤ 9, capacity = swissStartSize * 2 ^ times) :
    capacity = swissMaxSize ∨
      capacity < swissMaxSize ∧ ∃ times ≤ 9, capacity * 2 = swissStartSize * 2 ^ times := by
  rcases doubled with ⟨times, small, rfl⟩
  by_cases isLast : times = 9
  · subst isLast
    exact Or.inl rfl
  · refine Or.inr ⟨?_, times + 1, by omega, by rw [Nat.pow_succ, Nat.mul_assoc]⟩
    have isMax : swissMaxSize = swissStartSize * 2 ^ 9 := rfl
    rw [isMax]
    exact Nat.mul_lt_mul_of_pos_left (Nat.pow_lt_pow_right (by decide) (by omega)) (by decide)

theorem swissKey_returns {editor : Editor} (holds : EditorHolds editor text) (c : UInt8) :
    Returns (swissKey heap editor c) fun editor' =>
      EditorHolds editor' (edit (swissMaxSize - 1) text c) := by
  have room := holds.room
  have inside : editor.index < editor.buffer.length := by
    rw [holds.size]
    exact room
  have isLength : ∀ (buffer : List UInt8) (c : UInt8), (buffer.set editor.index c).length =
      buffer.length := fun _ _ => List.length_set
  have isIndex : editor.index + 1 = (text ++ [c]).length := by
    rw [List.length_append, List.length_singleton, holds.isIndex]
  unfold swissKey edit
  refine .ite (fun isBackspace => ?_) fun other => ?_
  · rw [if_pos isBackspace]
    refine ⟨holds.size, ?_, take_pred holds.isText holds.isIndex, ?_, holds.doubled⟩
    · rw [List.length_dropLast, ← holds.isIndex]
    · exact Nat.lt_of_le_of_lt (Nat.sub_le _ _) room
  rw [if_neg other, ← holds.isIndex]
  rcases doubled_small holds.doubled with isMax | ⟨belowMax, more⟩
  · refine .ite (fun full => ?_) fun fits => ?_
    · rw [if_pos isMax.ge, if_neg (by omega)]
      exact holds
    · have keeps : editor.index < swissMaxSize - 1 := by omega
      rw [if_pos keeps]
      refine (store_returns inside).bind fun buffer isStored => ?_
      subst isStored
      exact ⟨(isLength _ _).trans holds.size, isIndex, take_set holds.isText inside,
        Nat.not_le.mp fits, holds.doubled⟩
  · have keeps : editor.index < swissMaxSize - 1 := by omega
    rw [if_pos keeps]
    refine .ite (fun full => ?_) fun fits => ?_
    · rw [if_neg (Nat.not_le.mpr belowMax)]
      refine (kmalloc_returns _).bind fun bigger isSize => ?_
      have isRoom : editor.index < bigger.length := by omega
      refine (memcpy_returns isRoom.le inside.le).bind fun copied isCopied => ?_
      have isCopy : copied.take editor.index = text := by
        rw [isCopied, List.take_left' (by rw [List.length_take]; omega), holds.isText]
      have copySize : copied.length = editor.capacity * 2 := by
        rw [isCopied, List.length_append, List.length_take, List.length_drop]
        omega
      have isInside : editor.index < copied.length := by omega
      refine (store_returns isInside).bind fun buffer isStored => ?_
      subst isStored
      refine ⟨(isLength _ _).trans copySize, isIndex, take_set isCopy isInside, ?_, more⟩
      change editor.index + 1 < editor.capacity * 2
      omega
    · refine (store_returns inside).bind fun buffer isStored => ?_
      subst isStored
      exact ⟨(isLength _ _).trans holds.size, isIndex, take_set holds.isText inside,
        Nat.not_le.mp fits, holds.doubled⟩

theorem swissLoop_returns (keys : List UInt8) {editor : Editor}
    (holds : EditorHolds editor text) :
    Returns (swissLoop heap keys editor) fun result =>
      match result with
      | none => escape ∉ keys
      | some (editor', rest) => ∃ typed, keys = typed ++ escape :: rest ∧ escape ∉ typed ∧
          EditorHolds editor' (typed.foldl (edit (swissMaxSize - 1)) text) := by
  induction keys generalizing editor text with
  | nil => exact List.not_mem_nil
  | cons c keys ih =>
      unfold swissLoop
      refine .ite (fun isEscape => ?_) fun other => ?_
      · exact ⟨[], by rw [isEscape, List.nil_append], List.not_mem_nil, holds⟩
      · refine (swissKey_returns holds c).bind fun editor' holds' => ?_
        refine (ih holds').mono fun result later => ?_
        have different : escape ≠ c := fun same => other same.symm
        cases result with
        | none => exact fun member => (List.mem_cons.mp member).elim different later
        | some result =>
            rcases later with ⟨typed, isKeys, noEscape, holds⟩
            refine ⟨c :: typed, by rw [isKeys, List.cons_append], ?_, holds⟩
            exact fun member => (List.mem_cons.mp member).elim different noEscape

/-- Characters that the loop over the name goes past. -/
def inName (c : UInt8) : Bool := c ≠ 62 ∧ c ≠ newline ∧ c ≠ 0

theorem nameLoop_eq (room : Nat) :
    ∀ {i : Nat}, 0 ∈ memory.drop i →
      nameLoop memory room i = .done (((memory.drop i).takeWhile inName).take room,
        i + (((memory.drop i).takeWhile inName).take room).length) := by
  induction room with
  | zero =>
      intro i hasNul
      rcases List.exists_cons_of_ne_nil (List.ne_nil_of_mem hasNul) with ⟨c, rest, isDrop⟩
      rw [nameLoop, Checked.get_of_drop isDrop]
      rfl
  | succ room ih =>
      intro i hasNul
      rcases List.exists_cons_of_ne_nil (List.ne_nil_of_mem hasNul) with ⟨c, rest, isDrop⟩
      have isRest := (getElem?_of_drop isDrop).2
      rw [nameLoop, Checked.get_of_drop isDrop, Checked.done_bind, isDrop]
      by_cases goes : c ≠ 62 ∧ c ≠ newline ∧ c ≠ 0
      · have isName : inName c = true := decide_eq_true goes
        have later : 0 ∈ memory.drop (i + 1) := by
          rw [isRest]
          rw [isDrop] at hasNul
          exact (List.mem_cons.mp hasNul).resolve_left fun same => goes.2.2 same.symm
        rw [if_pos goes, ih later, isRest, List.takeWhile_cons_of_pos isName, List.take_succ_cons,
          List.length_cons, Checked.done_bind, Nat.add_right_comm, Nat.add_assoc]
      · have notName : ¬ inName c = true := fun isName => goes (of_decide_eq_true isName)
        rw [if_neg goes, List.takeWhile_cons_of_neg notName]
        rfl

/-- A newline behind the name is not part of the file. -/
def afterNewline : List UInt8 → List UInt8
  | [] => []
  | c :: rest => if c = newline then rest else c :: rest

/-- A text that starts with the name of its file, and the rest of the file. -/
structure Saves (text : List UInt8) (name : CString) (content : List UInt8) : Prop where
  nonempty : name.bytes ≠ []
  short : name.bytes.length ≤ fsNameMax
  noEnd : 62 ∉ name.bytes
  noNewline : newline ∉ name.bytes
  isText : ∃ rest, text = 63 :: 60 :: (name.bytes ++ 62 :: rest) ∧ content = afterNewline rest

def nameIn (rest : List UInt8) : List UInt8 := (rest.takeWhile inName).take fsNameMax

theorem nameIn_isPrefix (rest : List UInt8) : nameIn rest <+: rest :=
  (List.take_prefix _ _).trans (List.takeWhile_prefix _)

/-- The file of a text. -/
def fileOf : List UInt8 → Option (CString × List UInt8)
  | first :: second :: rest =>
      if first = 63 ∧ second = 60 ∧ nameIn rest ≠ [] ∧
          (rest.drop (nameIn rest).length).head? = some 62 then
        some (stringIn (nameIn rest ++ [0]), afterNewline (rest.drop ((nameIn rest).length + 1)))
      else none
  | _ => none

theorem saves_of_fileOf {name : CString} {content : List UInt8}
    (isFile : fileOf text = some (name, content)) : Saves text name content := by
  unfold fileOf at isFile
  split at isFile
  · next first second rest =>
      split at isFile
      · next holds =>
          rcases holds with ⟨rfl, rfl, nonempty, isEnd⟩
          injection isFile with isPair
          injection isPair with isName isContent
          have inside : ∀ c ∈ nameIn rest, c ≠ 62 ∧ c ≠ newline ∧ c ≠ 0 := by
            intro c member
            have isIn : inName c = true := List.mem_takeWhile_imp (List.mem_of_mem_take member)
            exact of_decide_eq_true isIn
          have isBytes : name.bytes = nameIn rest := by
            rw [← isName]
            exact stringIn_bytes fun isNul => (inside 0 isNul).2.2 rfl
          have isPrefix : nameIn rest = rest.take (nameIn rest).length :=
            List.prefix_iff_eq_take.mp (nameIn_isPrefix rest)
          rw [← isBytes] at nonempty isEnd inside isPrefix isContent
          refine ⟨nonempty, ?_, fun member => (inside _ member).1 rfl,
            fun member => (inside _ member).2.1 rfl, rest.drop (name.bytes.length + 1), ?_,
            isContent.symm⟩
          · rw [isBytes]
            exact List.length_take_le _ _
          · have isRest : 62 :: rest.drop (name.bytes.length + 1) =
                rest.drop name.bytes.length := by
              rw [← List.tail_drop]
              exact List.cons_head?_tail isEnd
            rw [isRest]
            congr 2
            conv_lhs => rw [← List.take_append_drop name.bytes.length rest]
            rw [← isPrefix]
      · cases isFile
  · cases isFile

theorem fileOf_of_saves {name : CString} {content : List UInt8}
    (saves : Saves text name content) : fileOf text = some (name, content) := by
  rcases saves with ⟨nonempty, short, noEnd, noNewline, rest, rfl, rfl⟩
  have isName : (name.bytes ++ 62 :: rest).takeWhile inName = name.bytes := by
    rw [List.takeWhile_append_of_pos, List.takeWhile_cons_of_neg, List.append_nil]
    · decide
    · intro c member
      apply decide_eq_true
      refine ⟨?_, ?_, ?_⟩
      · rintro rfl
        exact noEnd member
      · rintro rfl
        exact noNewline member
      · rintro rfl
        exact name.noNul member
  have isString : stringIn (name.bytes ++ [0]) = name :=
    CString.ext (stringIn_bytes name.noNul)
  have isNameIn : nameIn (name.bytes ++ 62 :: rest) = name.bytes := by
    rw [nameIn, isName, List.take_of_length_le short]
  rw [fileOf, isNameIn, List.drop_left, if_pos ⟨rfl, rfl, nonempty, rfl⟩, isString,
    ← List.drop_drop, List.drop_left]
  rfl

theorem fileOf_eq_some_iff {name : CString} {content : List UInt8} :
    fileOf text = some (name, content) ↔ Saves text name content :=
  ⟨saves_of_fileOf, fileOf_of_saves⟩

theorem nameIn_append (rest more : List UInt8) : nameIn (rest ++ 0 :: more) = nameIn rest := by
  have stops : (0 :: more).takeWhile inName = [] := List.takeWhile_cons_of_neg (by decide)
  unfold nameIn
  rw [List.takeWhile_append, stops, List.append_nil]
  split
  · next whole => rw [(List.takeWhile_prefix _).eq_of_length whole]
  · rfl

theorem nameLoop_text {rest more : List UInt8} {i : Nat}
    (isDrop : memory.drop i = rest ++ 0 :: more) :
    nameLoop memory fsNameMax i = .done (nameIn rest, i + (nameIn rest).length) := by
  have hasNul : 0 ∈ memory.drop i := by
    rw [isDrop]
    exact List.mem_append_right _ List.mem_cons_self
  have isName : ((memory.drop i).takeWhile inName).take fsNameMax = nameIn rest := by
    rw [isDrop]
    exact nameIn_append rest more
  rw [nameLoop_eq fsNameMax hasNul, isName]

/-- The text from `start` on, with the length that `swiss` gives to `fs_write_all`. -/
theorem slice_to_end {rest more : List UInt8} {start index : Nat}
    (isDrop : memory.drop start = rest ++ 0 :: more) (isIndex : index = start + rest.length)
    (small : index < 2 ^ 32) :
    (Checked.slice memory start ((index + 2 ^ 32 - start) % 2 ^ 32) : Checked Unit (List UInt8)) =
      .done rest := by
  have size : rest.length = (index + 2 ^ 32 - start) % 2 ^ 32 := by omega
  have inside : start ≤ memory.length := by
    by_contra outside
    rw [List.drop_eq_nil_of_le (by omega)] at isDrop
    exact absurd isDrop.symm (List.append_ne_nil_of_right_ne_nil _ (List.cons_ne_nil _ _))
  exact Checked.slice_of_drop isDrop size inside

/-- The rest of a file, from behind its name on. -/
theorem content_eq {name : CString} {rest more : List UInt8} {i index : Nat}
    (isDrop : memory.drop (i + 1) = rest ++ 0 :: more) (isIndex : index = i + 1 + rest.length)
    (small : index < 2 ^ 32) :
    (do
      let next ← Checked.get memory (i + 1)
      let start := if next = newline then i + 2 else i + 1
      let content ← Checked.slice memory start ((index + 2 ^ 32 - start) % 2 ^ 32)
      .done (some (name, content)) : Checked Unit (Option (CString × List UInt8))) =
      .done (some (name, afterNewline rest)) := by
  have whole := slice_to_end isDrop isIndex small
  cases rest with
  | nil =>
      have notNewline : (0 : UInt8) ≠ newline := by decide
      rw [Checked.get_of_drop isDrop, Checked.done_bind]
      dsimp only
      rw [if_neg notNewline, whole]
      rfl
  | cons c rest =>
      rw [Checked.get_of_drop isDrop, Checked.done_bind, afterNewline]
      dsimp only
      by_cases isNewline : c = newline
      · rw [List.length_cons, Nat.add_comm rest.length, ← Nat.add_assoc] at isIndex
        rw [if_pos isNewline, if_pos isNewline,
          slice_to_end (getElem?_of_drop isDrop).2 isIndex small]
        rfl
      · rw [if_neg isNewline, if_neg isNewline, whole]
        rfl

theorem swissFile_eq (text more : List UInt8) (small : text.length < 2 ^ 32) :
    swissFile (text ++ 0 :: more) text.length = .done (fileOf text) := by
  unfold swissFile
  cases text with
  | nil => rfl
  | cons first text =>
      rw [List.cons_append, Checked.get_eq (List.getElem?_cons_zero), Checked.done_bind]
      by_cases isFirst : first = 63
      swap
      · rw [if_pos isFirst]
        cases text with
        | nil => rfl
        | cons second rest => rw [fileOf, if_neg fun holds => isFirst holds.1]
      rw [if_neg (not_not.mpr isFirst)]
      cases text with
      | nil => rfl
      | cons second rest =>
          have isSecond : (first :: (second :: rest ++ 0 :: more))[1]? = some second := rfl
          rw [Checked.get_eq isSecond, Checked.done_bind]
          by_cases isOpen : second = 60
          swap
          · rw [if_pos isOpen, fileOf, if_neg fun holds => isOpen holds.2.1]
          rw [if_neg (not_not.mpr isOpen)]
          have isDrop : (first :: (second :: rest ++ 0 :: more)).drop 2 = rest ++ 0 :: more := rfl
          have isName := nameLoop_text isDrop
          have isLength := (nameIn_isPrefix rest).length_le
          have behind : (first :: (second :: rest ++ 0 :: more)).drop (2 + (nameIn rest).length) =
              rest.drop (nameIn rest).length ++ 0 :: more := by
            rw [← List.drop_drop, isDrop, List.drop_append_of_le_length isLength]
          rw [isName, Checked.done_bind, fileOf]
          dsimp only
          cases isRest : rest.drop (nameIn rest).length with
          | nil =>
              rw [isRest] at behind
              rw [Checked.get_of_drop behind, Checked.done_bind, if_neg fun holds => by
                exact absurd holds.1 (by decide), if_neg fun holds => by cases holds.2.2.2]
          | cons c after =>
              rw [isRest] at behind
              rw [Checked.get_of_drop behind, Checked.done_bind]
              have later := (getElem?_of_drop behind).2
              have isAfter : rest.drop ((nameIn rest).length + 1) = after :=
                (getElem?_of_drop isRest).2
              by_cases ends : c = 62 ∧ nameIn rest ≠ []
              · rw [if_pos ends, if_pos ⟨isFirst, isOpen, ends.2, congrArg some ends.1⟩, isAfter]
                refine content_eq later ?_ small
                have total := congrArg List.length isRest
                rw [List.length_drop, List.length_cons] at total
                simp only [List.length_cons]
                omega
              · rw [if_neg ends, if_neg]
                rintro ⟨-, -, nonempty, isHead⟩
                exact ends ⟨Option.some.inj isHead, nonempty⟩

end Typing

end Katela.Shell
