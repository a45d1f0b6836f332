import Katela.Filesystem.State

/-! # The text console

A model of `drivers/vga.c`. The cursor is the index in the video buffer where the next cell
goes. Every store to the buffer is kept, whether or not its index lies on the screen. -/

namespace Katela.Drivers.Vga

open Katela.Filesystem (CString)

def width : Nat := 80
def height : Nat := 25

def newline : UInt8 := 10
def tab : UInt8 := 9
def blank : UInt8 := 32

/-- Light grey on black. -/
def lightGrey : UInt8 := 0x07

/-- The static variable `pos`, the memory from the video buffer on, the indices of the stores
to it, the latest first, and the bytes sent to ports, the latest first. -/
structure Console where
  pos : Int
  video : Int → UInt8
  stores : List Int
  ports : List (Nat × UInt8)

/-! ## The driver -/

/-- The assignment `video[index] = byte`. -/
def Console.store (console : Console) (index : Int) (byte : UInt8) : Console :=
  { console with
    video := fun i => if i = index then byte else console.video i
    stores := index :: console.stores }

/-- The assignment `video[pos++] = byte`. -/
def Console.emit (console : Console) (byte : UInt8) : Console :=
  { console.store console.pos byte with pos := console.pos + 1 }

def Console.outb (console : Console) (port : Nat) (byte : UInt8) : Console :=
  { console with ports := (port, byte) :: console.ports }

def updateCursor (console : Console) : Console :=
  let cursor := console.pos.tdiv 2
  let console := console.outb 0x3D4 0x0F
  let console := console.outb 0x3D5 (UInt8.ofInt cursor)
  let console := console.outb 0x3D4 0x0E
  console.outb 0x3D5 (UInt8.ofInt (cursor.shiftRight 8))

/-- The loop of `scroll` that moves the lines up. -/
def copyLoop : (rounds i : Nat) → Console → Console
  | 0, _, console => console
  | rounds + 1, i, console =>
      copyLoop rounds (i + 1) (console.store i (console.video (i + width * 2)))

/-- The loops of `scroll` and `clear` that erase cells. -/
def blankLoop : (rounds i : Nat) → Console → Console
  | 0, _, console => console
  | rounds + 1, i, console =>
      blankLoop rounds (i + 2) ((console.store i blank).store (i + 1) lightGrey)

def scroll (console : Console) : Console :=
  let console := copyLoop ((height - 1) * width * 2) 0 console
  let console := blankLoop width ((height - 1) * width * 2) console
  let pos := console.pos - width * 2
  { console with pos := if pos < 0 then 0 else pos }

def backspace (console : Console) : Console :=
  if console.pos ≤ 0 then console
  else
    let console := { console with pos := console.pos - 2 }
    updateCursor ((console.store console.pos blank).store (console.pos + 1) lightGrey)

/-- The loop of `print` over the cells of a tab. -/
def tabLoop : (rounds : Nat) → Console → Console
  | 0, console => console
  | rounds + 1, console => tabLoop rounds ((console.emit blank).emit lightGrey)

/-- What the loop of `print` does with a character before it looks at the cursor. -/
def putCells (byte : UInt8) (console : Console) : Console :=
  if byte = newline then
    { console with pos := console.pos + (width * 2 - console.pos.tmod (width * 2)) }
  else if byte = tab then tabLoop 5 console
  else (console.emit byte).emit lightGrey

/-- The body of the loop of `print`. -/
def putChar (byte : UInt8) (console : Console) : Console :=
  let console := putCells byte console
  if console.pos ≥ width * height * 2 then scroll console else console

def printLoop : List UInt8 → Console → Console
  | [], console => console
  | byte :: bytes, console => printLoop bytes (putChar byte console)

def print (str : CString) (console : Console) : Console :=
  updateCursor (printLoop str.bytes console)

def clear (console : Console) : Console :=
  let console := blankLoop (width * height) 0 console
  updateCursor { console with pos := 0 }

/-! ## Runs -/

inductive Call where
  | print (str : CString)
  | backspace
  | clear

def perform : Call → Console → Console
  | .print str, console => print str console
  | .backspace, console => backspace console
  | .clear, console => clear console

/-- At boot the screen shows anything. -/
def boot (video : Int → UInt8) : Console where
  pos := 0
  video := video
  stores := []
  ports := []

def run (video : Int → UInt8) (calls : List Call) : Console :=
  calls.foldl (fun console call => perform call console) (boot video)

/-! ## The cursor as a cell

A cursor is one of the cells of the screen. A character moves it by some cells, and where it
would leave the screen all lines move up by one. -/

structure Cursor where
  cell : Nat
  onScreen : cell < width * height

namespace Cursor

def home : Cursor := ⟨0, by decide⟩

/-- The cell where the cursor comes to rest, when it moved by at most a line. -/
def settle (cell : Nat) (close : cell < width * height + width) : Cursor :=
  if onScreen : cell < width * height then ⟨cell, onScreen⟩
  else ⟨cell - width, by
    have isWidth : width = 80 := rfl
    have isHeight : height = 25 := rfl
    rw [isWidth, isHeight] at close ⊢
    omega⟩

/-- The number of cells by which a character moves the cursor. -/
def step (byte : UInt8) (cursor : Cursor) : Nat :=
  if byte = newline then width - cursor.cell % width else if byte = tab then 5 else 1

theorem step_le (byte : UInt8) (cursor : Cursor) : cursor.step byte ≤ width := by
  have isWidth : width = 80 := rfl
  unfold step
  split
  · exact Nat.sub_le _ _
  · split <;> omega

def advance (byte : UInt8) (cursor : Cursor) : Cursor :=
  settle (cursor.cell + cursor.step byte) (by
    have near := cursor.step_le byte
    have onScreen := cursor.onScreen
    omega)

theorem advance_cell (byte : UInt8) (cursor : Cursor) :
    (cursor.advance byte).cell =
      if cursor.cell + cursor.step byte < width * height then cursor.cell + cursor.step byte
      else cursor.cell + cursor.step byte - width := by
  unfold advance settle
  split <;> rfl

def advanceAll : List UInt8 → Cursor → Cursor
  | [], cursor => cursor
  | byte :: bytes, cursor => advanceAll bytes (cursor.advance byte)

def after : Call → Cursor → Cursor
  | .print str, cursor => cursor.advanceAll str.bytes
  | .backspace, cursor => ⟨cursor.cell - 1, by have := cursor.onScreen; omega⟩
  | .clear, _ => home

end Cursor

/-- A tab has its cells before the end of the screen. -/
def FitsText : List UInt8 → Cursor → Prop
  | [], _ => True
  | byte :: bytes, cursor =>
      (byte = tab → cursor.cell + 5 ≤ width * height) ∧ FitsText bytes (cursor.advance byte)

def Fits : List Call → Cursor → Prop
  | [], _ => True
  | .print str :: calls, cursor =>
      FitsText str.bytes cursor ∧ Fits calls (cursor.after (.print str))
  | call :: calls, cursor => Fits calls (cursor.after call)

instance decidableFitsText : (bytes : List UInt8) → (cursor : Cursor) →
    Decidable (FitsText bytes cursor)
  | [], _ => .isTrue trivial
  | byte :: bytes, cursor =>
      have := decidableFitsText bytes (cursor.advance byte)
      inferInstanceAs (Decidable ((byte = tab → cursor.cell + 5 ≤ width * height) ∧
        FitsText bytes (cursor.advance byte)))

/-! ## Where the stores go -/

def OnScreen (index : Int) : Prop := 0 ≤ index ∧ index < width * height * 2

def Confined (console : Console) : Prop := ∀ index ∈ console.stores, OnScreen index

/-- The cursor of the driver stands on a cell. -/
def At (console : Console) (cursor : Cursor) : Prop := console.pos = 2 * cursor.cell

section Stores

variable {console : Console} {cursor : Cursor} {index : Int} {byte : UInt8}

@[simp] theorem store_pos : (console.store index byte).pos = console.pos := rfl

@[simp] theorem emit_pos : (console.emit byte).pos = console.pos + 1 := rfl

@[simp] theorem updateCursor_pos : (updateCursor console).pos = console.pos := rfl

@[simp] theorem updateCursor_confined : Confined (updateCursor console) ↔ Confined console :=
  Iff.rfl

@[simp] theorem move_confined {pos : Int} :
    Confined { console with pos := pos } ↔ Confined console :=
  Iff.rfl

@[simp] theorem store_confined :
    Confined (console.store index byte) ↔ OnScreen index ∧ Confined console := by
  change (∀ other ∈ index :: console.stores, OnScreen other) ↔ _
  exact List.forall_mem_cons

@[simp] theorem emit_confined :
    Confined (console.emit byte) ↔ OnScreen console.pos ∧ Confined console :=
  @store_confined console console.pos byte

theorem copyLoop_pos (rounds i : Nat) (console : Console) :
    (copyLoop rounds i console).pos = console.pos := by
  induction rounds generalizing i console with
  | zero => rfl
  | succ rounds induction =>
      unfold copyLoop
      rw [induction, store_pos]

theorem copyLoop_confined (rounds i : Nat) (console : Console)
    (bound : i + rounds ≤ width * height * 2) :
    Confined (copyLoop rounds i console) ↔ Confined console := by
  induction rounds generalizing i console with
  | zero => rfl
  | succ rounds induction =>
      have onScreen : OnScreen i := ⟨by omega, by omega⟩
      unfold copyLoop
      rw [induction _ _ (by omega), store_confined]
      exact and_iff_right onScreen

theorem blankLoop_pos (rounds i : Nat) (console : Console) :
    (blankLoop rounds i console).pos = console.pos := by
  induction rounds generalizing i console with
  | zero => rfl
  | succ rounds induction =>
      unfold blankLoop
      rw [induction, store_pos, store_pos]

theorem blankLoop_confined (rounds i : Nat) (console : Console)
    (bound : i + 2 * rounds ≤ width * height * 2) :
    Confined (blankLoop rounds i console) ↔ Confined console := by
  induction rounds generalizing i console with
  | zero => rfl
  | succ rounds induction =>
      have first : OnScreen i := ⟨by omega, by omega⟩
      have second : OnScreen (i + 1) := ⟨by omega, by omega⟩
      unfold blankLoop
      rw [induction _ _ (by omega), store_confined, store_confined]
      exact (and_iff_right second).trans (and_iff_right first)

theorem scroll_confined : Confined (scroll console) ↔ Confined console := by
  unfold scroll
  rw [move_confined, blankLoop_confined _ _ _ (by decide), copyLoop_confined _ _ _ (by decide)]

theorem scroll_pos :
    (scroll console).pos = if console.pos - width * 2 < 0 then 0 else console.pos - width * 2 := by
  unfold scroll
  simp only [blankLoop_pos, copyLoop_pos]

theorem tabLoop_pos (rounds : Nat) (console : Console) :
    (tabLoop rounds console).pos = console.pos + 2 * rounds := by
  induction rounds generalizing console with
  | zero => simp [tabLoop]
  | succ rounds induction =>
      unfold tabLoop
      rw [induction, emit_pos, emit_pos]
      omega

/-- The cells of a tab are on the screen if the last one is. -/
theorem tabLoop_confined (rounds : Nat) (console : Console) (positive : 0 ≤ console.pos)
    (even : console.pos % 2 = 0) :
    Confined (tabLoop (rounds + 1) console) ↔
      console.pos + 2 * (rounds + 1) ≤ width * height * 2 ∧ Confined console := by
  have isWidth : width = 80 := rfl
  have isHeight : height = 25 := rfl
  induction rounds generalizing console with
  | zero =>
      simp only [tabLoop, emit_confined, emit_pos, OnScreen, isWidth, isHeight]
      constructor
      · rintro ⟨second, first, confined⟩
        exact ⟨by omega, confined⟩
      · rintro ⟨fits, confined⟩
        exact ⟨by omega, by omega, confined⟩
  | succ rounds induction =>
      have isNext : ((console.emit blank).emit lightGrey).pos = console.pos + 1 + 1 := rfl
      have rest := induction ((console.emit blank).emit lightGrey) (by omega) (by omega)
      rw [isNext] at rest
      refine rest.trans ?_
      simp only [emit_confined, emit_pos, OnScreen, isWidth, isHeight]
      constructor
      · rintro ⟨fits, second, first, confined⟩
        exact ⟨by omega, confined⟩
      · rintro ⟨fits, confined⟩
        exact ⟨by omega, by omega, by omega, confined⟩

end Stores

/-! ## The calls -/

section Calls

variable {console : Console} {cursor : Cursor}

namespace At

theorem positive (stands : At console cursor) : 0 ≤ console.pos := by
  unfold At at stands
  omega

theorem even (stands : At console cursor) : console.pos % 2 = 0 := by
  unfold At at stands
  omega

theorem bound (stands : At console cursor) : console.pos + 2 ≤ width * height * 2 := by
  have onScreen := cursor.onScreen
  unfold At at stands
  omega

theorem onScreen (stands : At console cursor) : OnScreen console.pos := by
  have positive := stands.positive
  have bound := stands.bound
  exact ⟨positive, by omega⟩

theorem onScreen_next (stands : At console cursor) : OnScreen (console.pos + 1) := by
  have positive := stands.positive
  have bound := stands.bound
  exact ⟨by omega, by omega⟩

end At

/-- A character moves the cursor of the driver as it moves a cell. -/
theorem putCells_pos (byte : UInt8) (stands : At console cursor) :
    (putCells byte console).pos = 2 * (cursor.cell + cursor.step byte) := by
  have isWidth : width = 80 := rfl
  have positive := stands.positive
  unfold putCells Cursor.step
  unfold At at stands
  split
  · change console.pos + (width * 2 - console.pos.tmod (width * 2)) = _
    rw [Int.tmod_eq_emod_of_nonneg positive, stands, isWidth]
    omega
  · split
    · rw [tabLoop_pos, stands]
      omega
    · rw [emit_pos, emit_pos, stands]
      omega

theorem putCells_confined (byte : UInt8) (stands : At console cursor) :
    Confined (putCells byte console) ↔
      (byte = tab → cursor.cell + 5 ≤ width * height) ∧ Confined console := by
  unfold putCells
  split
  · next isNewline =>
      have notTab : byte ≠ tab := by
        rw [isNewline]
        decide
      rw [move_confined]
      exact (and_iff_right fun isTab => absurd isTab notTab).symm
  · split
    · next isTab =>
        rw [tabLoop_confined 4 console stands.positive stands.even]
        unfold At at stands
        constructor
        · rintro ⟨fits, confined⟩
          exact ⟨fun _ => by omega, confined⟩
        · rintro ⟨fits, confined⟩
          have fits := fits isTab
          exact ⟨by omega, confined⟩
    · next notTab =>
        rw [emit_confined, emit_confined, emit_pos]
        constructor
        · rintro ⟨_, _, confined⟩
          exact ⟨fun isTab => absurd isTab notTab, confined⟩
        · rintro ⟨_, confined⟩
          exact ⟨stands.onScreen_next, stands.onScreen, confined⟩

/-- The driver scrolls where the cell would leave the screen. -/
theorem putChar_at (byte : UInt8) (stands : At console cursor) :
    At (putChar byte console) (cursor.advance byte) := by
  have isWidth : width = 80 := rfl
  have isHeight : height = 25 := rfl
  have isPos := putCells_pos byte stands
  unfold At
  rw [Cursor.advance_cell]
  unfold putChar
  simp only [isWidth, isHeight] at isPos ⊢
  by_cases stays : cursor.cell + cursor.step byte < 80 * 25
  · rw [if_pos stays, if_neg (by omega), isPos]
    omega
  · rw [if_neg stays, if_pos (by omega), scroll_pos, if_neg (by omega), isPos, isWidth]
    omega

theorem putChar_confined (byte : UInt8) (stands : At console cursor) :
    Confined (putChar byte console) ↔
      (byte = tab → cursor.cell + 5 ≤ width * height) ∧ Confined console := by
  rw [← putCells_confined byte stands]
  unfold putChar
  dsimp only
  split
  · exact scroll_confined
  · rfl

theorem printLoop_spec (bytes : List UInt8) (stands : At console cursor) :
    At (printLoop bytes console) (cursor.advanceAll bytes) ∧
      (Confined (printLoop bytes console) ↔ FitsText bytes cursor ∧ Confined console) := by
  induction bytes generalizing console cursor with
  | nil => exact ⟨stands, (and_iff_right trivial).symm⟩
  | cons byte bytes induction =>
      have rest := induction (putChar_at byte stands)
      refine ⟨rest.1, rest.2.trans ?_⟩
      rw [putChar_confined byte stands]
      change _ ↔ ((byte = tab → _) ∧ FitsText bytes _) ∧ _
      constructor
      · rintro ⟨fitsRest, fits, confined⟩
        exact ⟨⟨fits, fitsRest⟩, confined⟩
      · rintro ⟨⟨fits, fitsRest⟩, confined⟩
        exact ⟨fitsRest, fits, confined⟩

theorem backspace_at (stands : At console cursor) :
    At (backspace console) (cursor.after .backspace) := by
  unfold At at stands
  change (backspace console).pos = 2 * ((cursor.cell - 1 : Nat) : Int)
  unfold backspace
  split
  · omega
  · simp only [updateCursor_pos, store_pos]
    omega

theorem backspace_confined (stands : At console cursor) :
    Confined (backspace console) ↔ Confined console := by
  have bound := stands.bound
  unfold backspace
  split
  · rfl
  · next moves =>
      have even := stands.even
      have first : OnScreen (console.pos - 2) := ⟨by omega, by omega⟩
      have second : OnScreen (console.pos - 2 + 1) := ⟨by omega, by omega⟩
      simp only [updateCursor_confined, store_confined, move_confined]
      exact (and_iff_right second).trans (and_iff_right first)

theorem clear_at : At (clear console) Cursor.home := rfl

theorem clear_confined : Confined (clear console) ↔ Confined console := by
  unfold clear
  rw [updateCursor_confined, move_confined, blankLoop_confined _ _ _ (by decide)]

theorem perform_at (call : Call) (stands : At console cursor) :
    At (perform call console) (cursor.after call) := by
  cases call with
  | print str => exact (printLoop_spec str.bytes stands).1
  | backspace => exact backspace_at stands
  | clear => exact clear_at

/-- What a list of calls does from any cell on. -/
theorem foldl_spec (calls : List Call) (stands : At console cursor) :
    (∃ cursor', At (calls.foldl (fun console call => perform call console) console) cursor') ∧
      (Confined (calls.foldl (fun console call => perform call console) console) ↔
        Fits calls cursor ∧ Confined console) := by
  induction calls generalizing console cursor with
  | nil => exact ⟨⟨cursor, stands⟩, (and_iff_right trivial).symm⟩
  | cons call calls induction =>
      have rest := induction (perform_at call stands)
      refine ⟨rest.1, rest.2.trans ?_⟩
      cases call with
      | print str =>
          change _ ∧ Confined (printLoop str.bytes console) ↔
            (FitsText str.bytes cursor ∧ Fits calls _) ∧ _
          rw [(printLoop_spec str.bytes stands).2]
          constructor
          · rintro ⟨fitsRest, fits, confined⟩
            exact ⟨⟨fits, fitsRest⟩, confined⟩
          · rintro ⟨⟨fits, fitsRest⟩, confined⟩
            exact ⟨fitsRest, fits, confined⟩
      | backspace => exact and_congr_right fun _ => backspace_confined stands
      | clear => exact and_congr_right fun _ => clear_confined

end Calls

theorem boot_at (video : Int → UInt8) : At (boot video) Cursor.home := rfl

theorem boot_confined (video : Int → UInt8) : Confined (boot video) := nofun

/-- Between calls the cursor is a cell of the screen, whatever is printed. -/
theorem run_on_cell (video : Int → UInt8) (calls : List Call) :
    ∃ cursor, At (run video calls) cursor :=
  (foldl_spec calls (boot_at video)).1

/-- All stores are on the screen, and between calls the cursor is on a cell of it, exactly
when no tab is printed with less than its cells left. -/
theorem run_confined_iff (video : Int → UInt8) (calls : List Call) :
    ((∀ index ∈ (run video calls).stores, 0 ≤ index ∧ index < width * height * 2) ∧
      ∀ before, before <+: calls → (run video before).pos % 2 = 0 ∧
        0 ≤ (run video before).pos ∧ (run video before).pos < width * height * 2) ↔
      Fits calls Cursor.home := by
  have confined := (foldl_spec calls (boot_at video)).2
  rw [and_iff_left (boot_confined video)] at confined
  refine Iff.trans (and_iff_left ?_) confined
  intro before _
  obtain ⟨cursor, stands⟩ := run_on_cell video before
  exact ⟨stands.even, stands.onScreen⟩

/-- A tab in the last cell of the screen. -/
def tabAtEnd : Call :=
  .print ⟨List.replicate 24 newline ++ List.replicate 79 blank ++ [tab], by decide⟩

theorem tabAtEnd_leaves_screen :
    ¬ ∀ index ∈ (run (fun _ => 0) [tabAtEnd]).stores,
      0 ≤ index ∧ index < width * height * 2 := by
  intro confined
  have fits := ((foldl_spec [tabAtEnd] (boot_at fun _ => 0)).2.mp confined).1.1
  revert fits
  decide +kernel

end Katela.Drivers.Vga
