import Mathlib.Data.List.Basic
import Mathlib.Data.List.Induction

/-! # The keyboard

`get_key` of `src/drivers/keyboard.c`, for every sequence of answers of the controller. -/

namespace Katela.Drivers.Keyboard

/-- The status, and the byte that is there if it says so. -/
structure Poll where
  status : UInt8
  code : UInt8

/-- The scancodes of the `switch`, with their characters without and with the shift key. -/
def characters : List (UInt8 × UInt8 × UInt8) :=
  [(0x01, 27, 27), (0x02, 49, 33), (0x03, 50, 64), (0x04, 51, 35), (0x05, 52, 36),
    (0x06, 53, 37), (0x07, 54, 94), (0x08, 55, 38), (0x09, 56, 42), (0x0A, 57, 40),
    (0x0B, 48, 41), (0x1E, 97, 65), (0x30, 98, 66), (0x2E, 99, 67), (0x20, 100, 68),
    (0x12, 101, 69), (0x21, 102, 70), (0x22, 103, 71), (0x23, 104, 72), (0x17, 105, 73),
    (0x24, 106, 74), (0x25, 107, 75), (0x26, 108, 76), (0x32, 109, 77), (0x31, 110, 78),
    (0x18, 111, 79), (0x19, 112, 80), (0x10, 113, 81), (0x13, 114, 82), (0x1F, 115, 83),
    (0x14, 116, 84), (0x16, 117, 85), (0x2F, 118, 86), (0x11, 119, 87), (0x2D, 120, 88),
    (0x15, 121, 89), (0x2C, 122, 90), (0x1C, 10, 10), (0x39, 32, 32), (0x0E, 8, 8),
    (0x0F, 9, 9), (0x0D, 61, 43), (0x1A, 91, 123), (0x1B, 93, 125), (0x27, 59, 58),
    (0x28, 39, 34), (0x29, 96, 126), (0x33, 44, 60), (0x34, 46, 62), (0x35, 47, 63),
    (0x0C, 45, 95)]

/-- What a scancode does to the static variable, and the character that it returns. -/
def handle (shift : Bool) (code : UInt8) : Bool × Option UInt8 :=
  if code &&& 0x80 ≠ 0 then (if code = 0xAA ∨ code = 0xB6 then false else shift, none)
  else if code = 0x2A ∨ code = 0x36 then (true, none)
  else
    (shift, (characters.lookup code).map fun entry => if shift then entry.2 else entry.1)

/-- The static variable, and what the controller will show. -/
structure Input where
  shift : Bool
  polls : List Poll

/-- `get_key`; `none` where the controller has nothing more to show, and the call waits. -/
def getKey (shift : Bool) : List Poll → Option (UInt8 × Input)
  | [] => none
  | poll :: polls =>
      if poll.status &&& 1 = 0 then getKey shift polls
      else
        match handle shift poll.code with
        | (shift, none) => getKey shift polls
        | (shift, some c) => some (c, ⟨shift, polls⟩)

theorem getKey_shorter {shift : Bool} {polls : List Poll} {c : UInt8} {later : Input}
    (isKey : getKey shift polls = some (c, later)) : later.polls.length < polls.length := by
  induction polls generalizing shift with
  | nil => cases isKey
  | cons poll polls ih =>
      unfold getKey at isKey
      rw [List.length_cons]
      split at isKey
      · exact Nat.lt_succ_of_lt (ih isKey)
      · split at isKey
        · exact Nat.lt_succ_of_lt (ih isKey)
        · cases isKey
          exact Nat.lt_succ_self _

/-- The characters that calls of `get_key` return, one after another. -/
def keysOf (input : Input) : List UInt8 :=
  match _ : getKey input.shift input.polls with
  | none => []
  | some (c, later) => c :: keysOf later
termination_by input.polls.length
decreasing_by exact getKey_shorter ‹_›

/-! ## The characters of a sequence of scancodes -/

/-- The bytes that the controller shows. -/
def codesOf (polls : List Poll) : List UInt8 :=
  polls.filterMap fun poll => if poll.status &&& 1 = 0 then none else some poll.code

/-- A shift key goes down or up. -/
def IsShift (code : UInt8) : Bool := code = 0x2A || code = 0x36 || code = 0xAA || code = 0xB6

/-- The last shift key that moved went down. -/
def held (codes : List UInt8) : Bool :=
  match (codes.filter IsShift).getLast? with
  | some code => code = 0x2A || code = 0x36
  | none => false

/-- The character of a scancode, which depends on those before it. -/
def typedAt (codes : List UInt8) (i : Nat) : Option UInt8 :=
  match codes[i]? with
  | none => none
  | some code =>
      (characters.lookup code).map fun entry => if held (codes.take i) then entry.2 else entry.1

/-- The characters of a sequence of scancodes. -/
def typed (codes : List UInt8) : List UInt8 :=
  (List.range codes.length).filterMap (typedAt codes)

/-- The scancodes one after another. -/
def handleAll (shift : Bool) : List UInt8 → Bool × List UInt8
  | [] => (shift, [])
  | code :: codes =>
      let (shift, c) := handle shift code
      let (shift, cs) := handleAll shift codes
      (shift, c.toList ++ cs)

section Decoding

variable {shift : Bool} {codes : List UInt8} {code : UInt8}

theorem handleAll_append (shift : Bool) (codes later : List UInt8) :
    handleAll shift (codes ++ later) =
      ((handleAll (handleAll shift codes).1 later).1,
        (handleAll shift codes).2 ++ (handleAll (handleAll shift codes).1 later).2) := by
  induction codes generalizing shift with
  | nil => rfl
  | cons code codes ih =>
      simp only [List.cons_append, handleAll, ih, List.append_assoc]

theorem getKey_handleAll (polls : List Poll) :
    match getKey shift polls with
    | none => (handleAll shift (codesOf polls)).2 = []
    | some (c, later) => (handleAll shift (codesOf polls)).2 =
        c :: (handleAll later.shift (codesOf later.polls)).2 := by
  induction polls generalizing shift with
  | nil => rfl
  | cons poll polls ih =>
      unfold getKey
      by_cases empty : poll.status &&& 1 = 0
      · have same : codesOf (poll :: polls) = codesOf polls :=
          List.filterMap_cons_none (if_pos empty)
        rw [if_pos empty, same]
        exact ih
      · have isCode : codesOf (poll :: polls) = poll.code :: codesOf polls :=
          List.filterMap_cons_some (if_neg empty)
        rw [if_neg empty, isCode]
        simp only [handleAll]
        rcases handle shift poll.code with ⟨shift', _ | c⟩
        · exact ih
        · rfl

theorem keysOf_eq (input : Input) :
    keysOf input = (handleAll input.shift (codesOf input.polls)).2 := by
  fun_induction keysOf input with
  | case1 input isNone =>
      have keys := @getKey_handleAll input.shift input.polls
      rw [isNone] at keys
      exact keys.symm
  | case2 input c later isKey ih =>
      have keys := @getKey_handleAll input.shift input.polls
      rw [isKey] at keys
      rw [ih]
      exact keys.symm

theorem handle_shift (shift : Bool) (code : UInt8) :
    (handle shift code).1 = if IsShift code then (code = 0x2A || code = 0x36) else shift := by
  have all : ∀ (shift : Bool) (byte : Fin 256), (handle shift (.ofFin byte)).1 =
      if IsShift (.ofFin byte) then (UInt8.ofFin byte = 0x2A || UInt8.ofFin byte = 0x36)
      else shift := by
    decide +kernel
  exact all shift code.toFin

theorem held_append (codes : List UInt8) (code : UInt8) :
    held (codes ++ [code]) = (handle (held codes) code).1 := by
  have split : held (codes ++ [code]) =
      if IsShift code then (code = 0x2A || code = 0x36) else held codes := by
    unfold held
    rw [List.filter_append]
    by_cases moves : IsShift code = true
    · rw [if_pos moves, List.filter_cons_of_pos moves, List.filter_nil, List.getLast?_concat]
    · rw [if_neg moves, List.filter_cons_of_neg moves, List.filter_nil, List.append_nil]
  rw [split, handle_shift]

/-- The scancodes of characters are those of neither a release nor a shift key. -/
theorem lookup_high {entry : UInt8 × UInt8} (isEntry : characters.lookup code = some entry) :
    code &&& 0x80 = 0 ∧ code ≠ 0x2A ∧ code ≠ 0x36 ∧ entry.1 ≠ 0 ∧ entry.2 ≠ 0 := by
  have member : (code, entry) ∈ characters := by
    rcases List.lookup_eq_some_iff.mp isEntry with ⟨front, rest, isList, -⟩
    rw [isList]
    exact List.mem_append_right _ List.mem_cons_self
  have all : characters.all (fun row => decide (row.1 &&& 0x80 = 0 ∧ row.1 ≠ 0x2A ∧
      row.1 ≠ 0x36 ∧ row.2.1 ≠ 0 ∧ row.2.2 ≠ 0)) = true := by
    decide
  exact of_decide_eq_true (List.all_eq_true.mp all _ member)

theorem handle_character (shift : Bool) (code : UInt8) :
    (handle shift code).2 =
      (characters.lookup code).map fun entry => if shift then entry.2 else entry.1 := by
  cases isEntry : characters.lookup code with
  | none =>
      unfold handle
      rw [isEntry]
      split
      · rfl
      · split <;> rfl
  | some entry =>
      rcases lookup_high isEntry with ⟨isLow, notLeft, notRight, -, -⟩
      rw [handle, if_neg (not_not.mpr isLow), if_neg (not_or.mpr ⟨notLeft, notRight⟩), isEntry]

theorem typedAt_append (codes : List UInt8) (code : UInt8) {i : Nat} (inside : i < codes.length) :
    typedAt (codes ++ [code]) i = typedAt codes i := by
  unfold typedAt
  rw [List.getElem?_append_left inside, List.take_append_of_le_length (Nat.le_of_lt inside)]

theorem typed_append (codes : List UInt8) (code : UInt8) :
    typed (codes ++ [code]) = typed codes ++ (handle (held codes) code).2.toList := by
  have before : (List.range codes.length).filterMap (typedAt (codes ++ [code])) = typed codes :=
    List.filterMap_congr fun i member => typedAt_append codes code (List.mem_range.mp member)
  have last : typedAt (codes ++ [code]) codes.length = (handle (held codes) code).2 := by
    rw [handle_character, typedAt, List.getElem?_concat_length, List.take_left]
  rw [typed, List.length_append, List.length_singleton, List.range_succ, List.filterMap_append,
    before, List.filterMap_cons, last]
  cases (handle (held codes) code).2 <;> rfl

theorem handleAll_eq (codes : List UInt8) :
    handleAll false codes = (held codes, typed codes) := by
  induction codes using List.reverseRecOn with
  | nil => rfl
  | append_singleton codes code ih =>
      rw [handleAll_append, ih, held_append, typed_append]
      simp only [handleAll, List.append_nil]

theorem getKey_ne_zero {polls : List Poll} {c : UInt8} {later : Input}
    (isKey : getKey shift polls = some (c, later)) : c ≠ 0 := by
  induction polls generalizing shift with
  | nil => cases isKey
  | cons poll polls ih =>
      unfold getKey at isKey
      split at isKey
      · exact ih isKey
      · split at isKey
        · exact ih isKey
        · next isHandled =>
            cases isKey
            have isChar := handle_character shift poll.code
            rw [isHandled] at isChar
            rcases Option.map_eq_some_iff.mp isChar.symm with ⟨entry, isEntry, isZero⟩
            rcases lookup_high isEntry with ⟨-, -, -, plain, shifted⟩
            rw [← isZero]
            split
            · exact shifted
            · exact plain

/-- No key is the end of a string. -/
theorem zero_notMem_keysOf (input : Input) : 0 ∉ keysOf input := by
  fun_induction keysOf input with
  | case1 input isNone => exact List.not_mem_nil
  | case2 input c later isKey ih =>
      rw [List.mem_cons, not_or]
      exact ⟨(getKey_ne_zero isKey).symm, ih⟩

/-- After the start, the keyboard driver gives the characters of the scancodes, in capitals
where the last shift key that moved went down. None of them is the end of a string. -/
theorem keys_typed (polls : List Poll) :
    keysOf ⟨false, polls⟩ = typed (codesOf polls) ∧ 0 ∉ keysOf ⟨false, polls⟩ := by
  refine ⟨?_, zero_notMem_keysOf _⟩
  rw [keysOf_eq, handleAll_eq]

end Decoding

end Katela.Drivers.Keyboard
