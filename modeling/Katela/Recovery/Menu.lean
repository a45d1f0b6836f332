import Katela.Recovery.Install
import Mathlib.Logic.Function.Basic
import Mathlib.Order.Basic

/-! # The recovery menu

`src/kernel/recovery.c`: the screen, the keyboard and the loop of `recovery_main`, for every
sequence of bytes that the keyboard controller shows. -/

namespace Katela.Recovery.Menu

/-! ## The screen -/

def width : Nat := 80

def height : Nat := 25

def menuRow : Nat := 3

def attrNormal : UInt8 := 0x07
def attrSelected : UInt8 := 0x70
def attrTitle : UInt8 := 0x1F
def attrWarning : UInt8 := 0x0E
def attrOk : UInt8 := 0x0A
def attrError : UInt8 := 0x0C

/-- The cells of the video memory, by their numbers. -/
abbrev Screen : Type := Nat → UInt16

def ascii (text : String) : List UInt8 := text.toList.map fun c => UInt8.ofNat c.toNat

def putCell (screen : Screen) (x y : Nat) (c attr : UInt8) : Screen :=
  Function.update screen (y * width + x) (attr.toUInt16 <<< 8 ||| c.toUInt16)

/-- Spaces from one cell of a row to another. -/
def fillCells (y : Nat) (attr : UInt8) : (rounds x : Nat) → Screen → Screen
  | 0, _, screen => screen
  | rounds + 1, x, screen => fillCells y attr rounds (x + 1) (putCell screen x y 32 attr)

def fillRow (screen : Screen) (y : Nat) (attr : UInt8) : Screen :=
  fillCells y attr width 0 screen

def putText (screen : Screen) (x y : Nat) (text : List UInt8) (attr : UInt8) : Screen :=
  match text with
  | [] => screen
  | c :: text =>
      if x < width then putText (putCell screen x y c attr) (x + 1) y text attr else screen

def clearScreen (screen : Screen) : Screen :=
  (List.range height).foldl (fun screen y => fillRow screen y attrNormal) screen

/-- The entries of the menu. -/
inductive Action where
  | reboot
  | factory
  | erase
  | powerOff
  deriving DecidableEq, Repr

def actionCount : Nat := 4

def Action.number : Action → Nat
  | .reboot => 0
  | .factory => 1
  | .erase => 2
  | .powerOff => 3

/-- The entries in the order in which they are drawn. -/
def actions : List Action := [.reboot, .factory, .erase, .powerOff]

def items : Action → List UInt8
  | .reboot => ascii "Reboot system now"
  | .factory => ascii "Reboot bootloader to factory conf"
  | .erase => ascii "Erase Katela filesystem"
  | .powerOff => ascii "Power off"

def drawItem (selected : Nat) (screen : Screen) (item : Action) : Screen :=
  let attr := if item.number = selected then attrSelected else attrNormal
  let screen := fillCells (menuRow + item.number) attr (width - 4) 2 screen
  putText screen 3 (menuRow + item.number) (items item) attr

def drawMenu (screen : Screen) (selected : Nat) : Screen :=
  let screen := clearScreen screen
  let screen := fillRow screen 0 attrTitle
  let screen := putText screen 1 0 (ascii "Kernel recovery mode") attrTitle
  let screen := actions.foldl (drawItem selected) screen
  putText screen 2 (height - 2)
    (ascii "Use the Up and Down keys to select an entry, Enter to run it.") attrNormal

/-- The loop of `number_text`, the last digit first. -/
def digits (value : UInt32) : List UInt8 :=
  let digit := 48 + (value % 10).toUInt8
  if value / 10 = 0 then [digit] else digit :: digits (value / 10)
termination_by value.toNat
decreasing_by
  rename_i more
  rw [UInt32.toNat_div]
  have isTen : (10 : UInt32).toNat = 10 := rfl
  have positive : value.toNat / 10 ≠ 0 := by
    intro isZero
    apply more
    rw [← UInt32.toNat_inj, UInt32.toNat_div, isTen, isZero]
    rfl
  rw [isTen]
  omega

def numberText (value : UInt32) : List UInt8 := (digits value).reverse

/-- One cell after another of the bar. -/
def drawBar (row : Nat) (filled : UInt32) : (rounds i : Nat) → Screen → Screen
  | 0, _, screen => screen
  | rounds + 1, i, screen =>
      drawBar row filled rounds (i + 1)
        (putCell screen (3 + i) row (if i < filled.toNat then 35 else 46) attrNormal)

def drawProgress (row : Nat) (screen : Screen) (report : UInt32 × UInt32) : Screen :=
  let (done, total) := report
  let percent := if total = 0 then 0 else done * 100 / total
  let screen := drawBar row (percent * 50 / 100) 50 0 screen
  putText screen 55 row (numberText percent ++ ascii "% ") attrNormal

/-! ## The keyboard -/

inductive Key where
  | up
  | down
  | enter
  | yes
  | other
  deriving DecidableEq, Repr

/-- The status, and the byte that is there if it says so. -/
structure Poll where
  status : UInt8
  code : UInt8

def keyOf (code : UInt8) : Key :=
  if code = 0x48 then .up
  else if code = 0x50 then .down
  else if code = 0x1C then .enter
  else if code = 0x15 then .yes
  else .other

/-- `read_key`: `none` where the controller has nothing more to show, and no key where it has
no byte. -/
def readKey : List Poll → Option (Option Key × List Poll)
  | [] => none
  | poll :: polls =>
      if poll.status &&& 1 = 0 then some (none, polls)
      else if poll.status &&& 0x20 ≠ 0 ∨ poll.code = 0xE0 ∨ poll.code &&& 0x80 ≠ 0 then
        readKey polls
      else some (some (keyOf poll.code), polls)

theorem readKey_shorter {polls rest : List Poll} {key : Option Key}
    (isRead : readKey polls = some (key, rest)) : rest.length < polls.length := by
  induction polls with
  | nil => cases isRead
  | cons poll polls ih =>
      unfold readKey at isRead
      rw [List.length_cons]
      split at isRead
      · cases isRead
        exact Nat.lt_succ_self _
      · split at isRead
        · exact Nat.lt_succ_of_lt (ih isRead)
        · cases isRead
          exact Nat.lt_succ_self _

/-- The loop of `wait_key`. -/
def nextKey (polls : List Poll) : Option (Key × List Poll) :=
  match _ : readKey polls with
  | none => none
  | some (some key, rest) => some (key, rest)
  | some (none, rest) => nextKey rest
termination_by polls.length
decreasing_by exact readKey_shorter ‹_›

/-! ## The menu -/

/-- The operations on the disk, with what the menu uses of them. The installation reports its
progress. -/
structure Installer (σ : Type) where
  imagePresent : Bool
  install : σ → Except InstallError Unit × List (UInt32 × UInt32) × σ
  erase : σ → Except InstallError Unit × σ

inductive Operation where
  | install
  | erase
  deriving DecidableEq, Repr

def Operation.action : Operation → Action
  | .install => .factory
  | .erase => .erase

/-- The log has each operation with what the screen showed when it began. -/
structure Machine (σ : Type) where
  screen : Screen
  disk : σ
  polls : List Poll
  log : List (Operation × Screen)

/-- How a run ends: it waits for a key, or the machine is restarted or switched off. The loop
is given as many rounds as there are polls. -/
inductive Exit where
  | waiting
  | reboot
  | powerOff
  | endless
  deriving DecidableEq, Repr

abbrev MenuM (σ α : Type) : Type := EStateM Exit (Machine σ) α

def recoveryInstallText : Except InstallError Unit → List UInt8
  | .ok () => ascii "Factory configuration installed and verified."
  | .error .noImage => ascii "Factory image was not loaded by the bootloader."
  | .error .badImage => ascii "Factory image is damaged."
  | .error .noDisk => ascii "No ATA disk found."
  | .error .diskTooSmall => ascii "Disk is too small."
  | .error .writeFailed => ascii "Disk write failed."
  | .error .verifyFailed => ascii "Verification failed."

section Menu

variable {σ : Type}

def draw (change : Screen → Screen) : MenuM σ Unit :=
  modify fun m => { m with screen := change m.screen }

def waitKey : MenuM σ Key := fun m =>
  match nextKey m.polls with
  | none => .error .waiting { m with polls := [] }
  | some (key, polls) => .ok key { m with polls }

/-- `recovery_install` with `draw_progress`. -/
def runInstall (installer : Installer σ) (row : Nat) : MenuM σ (Except InstallError Unit) :=
  fun m =>
    let (result, reports, disk) := installer.install m.disk
    .ok result { m with
      disk
      screen := reports.foldl (drawProgress row) m.screen
      log := m.log ++ [(.install, m.screen)] }

def runErase (installer : Installer σ) : MenuM σ (Except InstallError Unit) := fun m =>
  let (result, disk) := installer.erase m.disk
  .ok result { m with disk, log := m.log ++ [(.erase, m.screen)] }

/-- The row below the menu. -/
def textRow : Nat := menuRow + actionCount + 1

def put (x y : Nat) (text : List UInt8) (attr : UInt8) : MenuM σ Unit :=
  draw fun screen => putText screen x y text attr

def factoryScreen (installer : Installer σ) : MenuM σ Unit := do
  draw fun screen => drawMenu screen Action.factory.number
  if installer.imagePresent = false then do
    put 3 textRow (recoveryInstallText (.error .noImage)) attrError
    put 3 (textRow + 1) (ascii "Press any key to return.") attrNormal
    let _ ← waitKey
  else do
    put 3 textRow (ascii "This writes the bootloader and the kernel to the first disk.")
      attrWarning
    put 3 (textRow + 1) (ascii "Press Y to continue, any other key to cancel.") attrNormal
    let key ← waitKey
    if key = .yes then do
      put 3 (textRow + 3) (ascii "Installing, do not turn the power off...") attrNormal
      let result ← runInstall installer (textRow + 4)
      put 3 (textRow + 6) (recoveryInstallText result)
        (if result.isOk then attrOk else attrError)
      put 3 (textRow + 7) (ascii "Press any key to return.") attrNormal
      let _ ← waitKey

def eraseScreen (installer : Installer σ) : MenuM σ Unit := do
  draw fun screen => drawMenu screen Action.erase.number
  put 3 textRow (ascii "This destroys all files on the Katela filesystem.") attrWarning
  put 3 (textRow + 1) (ascii "The disk is formatted again on the next boot.") attrWarning
  put 3 (textRow + 2) (ascii "Press Y to continue, any other key to cancel.") attrNormal
  let key ← waitKey
  if key = .yes then do
    let result ← runErase installer
    if result.isOk then put 3 (textRow + 4) (ascii "Filesystem erased.") attrOk
    else put 3 (textRow + 4) (recoveryInstallText result) attrError
    put 3 (textRow + 5) (ascii "Press any key to return.") attrNormal
    let _ ← waitKey

/-- The loop of `recovery_main`. -/
def menuLoop (installer : Installer σ) : (rounds selected : Nat) → MenuM σ Unit
  | 0, _ => throw .endless
  | rounds + 1, selected => do
      let key ← waitKey
      match key with
      | .up => do
          let selected := (selected + actionCount - 1) % actionCount
          draw fun screen => drawMenu screen selected
          menuLoop installer rounds selected
      | .down => do
          let selected := (selected + 1) % actionCount
          draw fun screen => drawMenu screen selected
          menuLoop installer rounds selected
      | .enter =>
          if selected = Action.reboot.number then throw .reboot
          else if selected = Action.powerOff.number then throw .powerOff
          else if selected = Action.erase.number then do
            eraseScreen installer
            draw fun screen => drawMenu screen selected
            menuLoop installer rounds selected
          else do
            factoryScreen installer
            draw fun screen => drawMenu screen selected
            menuLoop installer rounds selected
      | _ => menuLoop installer rounds selected

def recoveryMain (installer : Installer σ) : MenuM σ Unit := do
  draw fun screen => drawMenu screen 0
  let m ← get
  menuLoop installer (m.polls.length + 1) 0

end Menu

/-! ## What is drawn -/

/-- Cells that belong to a row. -/
def InRow (y index : Nat) : Prop := y * width ≤ index ∧ index < (y + 1) * width

/-- No cell outside of some has changed. -/
def Draws (Here : Nat → Prop) (screen screen' : Screen) : Prop :=
  ∀ index, ¬ Here index → screen' index = screen index

namespace Draws

variable {Here There : Nat → Prop} {screen screen' screen'' : Screen}

theorem refl (Here : Nat → Prop) (screen : Screen) : Draws Here screen screen := fun _ _ => rfl

theorem trans (first : Draws Here screen screen') (second : Draws Here screen' screen'') :
    Draws Here screen screen'' :=
  fun index outside => (second index outside).trans (first index outside)

theorem mono (draws : Draws Here screen screen') (more : ∀ index, Here index → There index) :
    Draws There screen screen' :=
  fun index outside => draws index fun here => outside (more index here)

end Draws

/-- The colours of a cell. -/
def attrOf (cell : UInt16) : UInt8 := (cell >>> 8).toUInt8

theorem attrOf_cell (attr c : UInt8) : attrOf (attr.toUInt16 <<< 8 ||| c.toUInt16) = attr := by
  apply UInt8.toNat_inj.mp
  have low := c.toNat_lt
  have high := attr.toNat_lt
  have shifted : (attr.toNat <<< 8) % 2 ^ 16 = 2 ^ 8 * attr.toNat := by
    rw [Nat.shiftLeft_eq]
    omega
  simp only [attrOf, UInt16.toNat_toUInt8, UInt16.toNat_shiftRight, UInt16.toNat_or,
    UInt16.toNat_shiftLeft, UInt8.toNat_toUInt16]
  change ((attr.toNat <<< 8) % 2 ^ 16 ||| c.toNat) >>> 8 % 2 ^ 8 = attr.toNat
  rw [shifted, ← Nat.two_pow_add_eq_or_of_lt low, Nat.shiftRight_eq_div_pow]
  omega

section Drawing

variable {screen : Screen} {x y : Nat} {attr : UInt8}

theorem putCell_draws (c : UInt8) (inside : x < width) :
    Draws (InRow y) screen (putCell screen x y c attr) := by
  intro index outside
  unfold putCell
  rw [Function.update_of_ne]
  rintro rfl
  apply outside
  unfold InRow
  rw [Nat.succ_mul]
  exact ⟨Nat.le_add_right .., by omega⟩

/-- A cell that has some colours keeps them where text is put in the same ones. -/
theorem putCell_attr {index : Nat} (c : UInt8) (before : attrOf (screen index) = attr) :
    attrOf (putCell screen x y c attr index) = attr := by
  unfold putCell
  by_cases isCell : index = y * width + x
  · rw [isCell, Function.update_self, attrOf_cell]
  · rw [Function.update_of_ne isCell]
    exact before

theorem putText_draws (text : List UInt8) :
    Draws (InRow y) screen (putText screen x y text attr) := by
  induction text generalizing screen x with
  | nil => exact .refl _ _
  | cons c text ih =>
      unfold putText
      split
      · next inside => exact (putCell_draws c inside).trans ih
      · exact .refl _ _

theorem putText_attr {index : Nat} (text : List UInt8)
    (before : attrOf (screen index) = attr) :
    attrOf (putText screen x y text attr index) = attr := by
  induction text generalizing screen x with
  | nil => exact before
  | cons c text ih =>
      unfold putText
      split
      · exact ih (putCell_attr c before)
      · exact before

theorem fillCells_draws (rounds : Nat) (inside : x + rounds ≤ width) :
    Draws (InRow y) screen (fillCells y attr rounds x screen) := by
  induction rounds generalizing screen x with
  | zero => exact .refl _ _
  | succ rounds ih => exact (putCell_draws 32 (by omega)).trans (ih (by omega))

theorem fillCells_keeps {index : Nat} (rounds : Nat)
    (before : attrOf (screen index) = attr) :
    attrOf (fillCells y attr rounds x screen index) = attr := by
  induction rounds generalizing screen x with
  | zero => exact before
  | succ rounds ih => exact ih (putCell_attr 32 before)

theorem fillCells_attr {column : Nat} (rounds : Nat) (from_x : x ≤ column)
    (upTo : column < x + rounds) :
    attrOf (fillCells y attr rounds x screen (y * width + column)) = attr := by
  induction rounds generalizing screen x with
  | zero => omega
  | succ rounds ih =>
      by_cases isFirst : column = x
      · have drawn : attrOf (putCell screen x y 32 attr (y * width + column)) = attr := by
          unfold putCell
          rw [isFirst, Function.update_self, attrOf_cell]
        exact fillCells_keeps rounds drawn
      · exact ih (by omega) (by omega)

theorem fillRow_draws : Draws (InRow y) screen (fillRow screen y attr) :=
  fillCells_draws width (by omega)

theorem drawBar_draws {filled : UInt32} (rounds : Nat) {i : Nat} (inside : i + rounds ≤ 50) :
    Draws (InRow y) screen (drawBar y filled rounds i screen) := by
  have isWidth : width = 80 := rfl
  induction rounds generalizing screen i with
  | zero => exact .refl _ _
  | succ rounds ih => exact (putCell_draws _ (by omega)).trans (ih (by omega))

theorem drawProgress_draws (report : UInt32 × UInt32) :
    Draws (InRow y) screen (drawProgress y screen report) :=
  (drawBar_draws 50 (Nat.le_refl _)).trans (putText_draws _)

theorem reports_draw (reports : List (UInt32 × UInt32)) :
    Draws (InRow y) screen (reports.foldl (drawProgress y) screen) := by
  induction reports generalizing screen with
  | nil => exact .refl _ _
  | cons report reports ih => exact (drawProgress_draws report).trans ih

end Drawing

/-! ## The menu on the screen -/

/-- Cells of the screen. -/
def OnScreen (index : Nat) : Prop := index < height * width

theorem InRow.onScreen {y index : Nat} (inRow : InRow y index) (inside : y < height) :
    OnScreen index :=
  Nat.lt_of_lt_of_le inRow.2 (Nat.mul_le_mul_right width inside)

/-- Cells below the menu. -/
def Below (index : Nat) : Prop := textRow * width ≤ index ∧ OnScreen index

theorem InRow.below {y index : Nat} (inRow : InRow y index) (under : textRow ≤ y)
    (inside : y < height) : Below index :=
  ⟨(Nat.mul_le_mul_right width under).trans inRow.1, inRow.onScreen inside⟩

/-- A row is the only one of the menu that is highlighted. -/
def Highlights (screen : Screen) (selected : Nat) : Prop :=
  ∀ item : Action, ∀ column, 2 ≤ column → column < width - 2 →
    attrOf (screen ((menuRow + item.number) * width + column)) =
      if item.number = selected then attrSelected else attrNormal

section Highlighting

variable {screen screen' : Screen} {selected : Nat}

theorem Action.number_lt (item : Action) : item.number < actionCount := by
  cases item <;> decide

/-- What is drawn below the menu leaves it as it is. -/
theorem Highlights.draws (highlights : Highlights screen selected)
    (draws : Draws Below screen screen') : Highlights screen' selected := by
  intro item column atLeast inside
  have isWidth : width = 80 := rfl
  have isRow : textRow = 8 := rfl
  have isMenu : menuRow = 3 := rfl
  have isCount : actionCount = 4 := rfl
  have few := item.number_lt
  rw [draws]
  · exact highlights item column atLeast inside
  · rintro ⟨first, -⟩
    rw [isWidth] at first inside
    omega

/-- The rows of two entries have no cell in common. -/
theorem InRow.unique {first second column : Nat} (inside : column < width)
    (inRow : InRow first (second * width + column)) : first = second := by
  rcases inRow with ⟨lower, upper⟩
  have isWidth : width = 80 := rfl
  rw [isWidth] at lower upper inside
  omega

theorem drawItem_draws (item : Action) :
    Draws (InRow (menuRow + item.number)) screen (drawItem selected screen item) :=
  (fillCells_draws (width - 4) (by decide)).trans (putText_draws _)

theorem drawItem_attr (item : Action) {column : Nat} (atLeast : 2 ≤ column)
    (below : column < width - 2) :
    attrOf (drawItem selected screen item ((menuRow + item.number) * width + column)) =
      if item.number = selected then attrSelected else attrNormal := by
  have isWidth : width = 80 := rfl
  apply putText_attr
  exact fillCells_attr (width - 4) atLeast (by omega)

theorem drawItems_draws (items : List Action) :
    Draws (fun index => ∃ item ∈ items, InRow (menuRow + item.number) index) screen
      (items.foldl (drawItem selected) screen) := by
  induction items generalizing screen with
  | nil => exact .refl _ _
  | cons item items ih =>
      refine ((drawItem_draws item).mono ?_).trans (ih.mono ?_)
      · exact fun index inRow => ⟨item, List.mem_cons_self, inRow⟩
      · rintro index ⟨other, member, inRow⟩
        exact ⟨other, List.mem_cons_of_mem _ member, inRow⟩

/-- The last time that an entry is drawn counts, and no other row touches it. -/
theorem drawItems_attr (items : List Action) {item : Action} (member : item ∈ items)
    (distinct : items.Nodup) {column : Nat} (atLeast : 2 ≤ column) (below : column < width - 2) :
    attrOf (items.foldl (drawItem selected) screen
      ((menuRow + item.number) * width + column)) =
      if item.number = selected then attrSelected else attrNormal := by
  have isWidth : width = 80 := rfl
  induction items generalizing screen with
  | nil => cases member
  | cons first items ih =>
      rw [List.nodup_cons] at distinct
      rw [List.foldl_cons]
      rcases List.mem_cons.mp member with rfl | later
      · rw [drawItems_draws items]
        · exact drawItem_attr item atLeast below
        · rintro ⟨other, isOther, inRow⟩
          have same := inRow.unique (by omega)
          have isSame : other = item := by
            revert same
            cases other <;> cases item <;> decide
          rw [isSame] at isOther
          exact distinct.1 isOther
      · exact ih later distinct.2

theorem drawMenu_highlights : Highlights (drawMenu screen selected) selected := by
  intro item column atLeast below
  have isWidth : width = 80 := rfl
  have few := item.number_lt
  have isCount : actionCount = 4 := rfl
  have isMenu : menuRow = 3 := rfl
  have isHeight : height = 25 := rfl
  unfold drawMenu
  rw [putText_draws]
  · exact drawItems_attr actions (by cases item <;> decide) (by decide) atLeast below
  · intro inRow
    have same := inRow.unique (by omega)
    omega

theorem clearScreen_draws : Draws OnScreen screen (clearScreen screen) := by
  have rows : ∀ (ys : List Nat) (screen : Screen), (∀ y ∈ ys, y < height) →
      Draws OnScreen screen (ys.foldl (fun screen y => fillRow screen y attrNormal) screen) := by
    intro ys
    induction ys with
    | nil => exact fun screen _ => .refl _ _
    | cons y ys ih =>
        intro screen inside
        refine (fillRow_draws.mono fun index inRow => ?_).trans
          (ih _ fun other member => inside other (List.mem_cons_of_mem _ member))
        exact inRow.onScreen (inside y List.mem_cons_self)
  exact rows (List.range height) screen fun y member => List.mem_range.mp member

theorem drawMenu_draws : Draws OnScreen screen (drawMenu screen selected) := by
  have isHeight : height = 25 := rfl
  have isMenu : menuRow = 3 := rfl
  have isCount : actionCount = 4 := rfl
  have isTop : 0 < height := by decide
  have isBottom : height - 2 < height := by decide
  have row : ∀ {y : Nat} {screen screen' : Screen}, y < height →
      Draws (InRow y) screen screen' → Draws OnScreen screen screen' :=
    fun inside draws => draws.mono fun index inRow => inRow.onScreen inside
  refine clearScreen_draws.trans ((row isTop fillRow_draws).trans
    ((row isTop (putText_draws _)).trans (((drawItems_draws actions).mono ?_).trans
      (row isBottom (putText_draws _)))))
  rintro index ⟨item, -, inRow⟩
  have few := item.number_lt
  exact inRow.onScreen (by omega)

end Highlighting

/-! ## The keys that are pressed -/

/-- A byte of the keyboard, unless it is one of the mouse, of a key that is released or of a
longer code. -/
def Poll.key (poll : Poll) : Option Key :=
  if poll.status &&& 1 = 0 then none
  else if poll.status &&& 0x20 ≠ 0 ∨ poll.code = 0xE0 ∨ poll.code &&& 0x80 ≠ 0 then none
  else some (keyOf poll.code)

def keysOf (polls : List Poll) : List Key := polls.filterMap Poll.key

theorem readKey_keys (polls : List Poll) :
    match readKey polls with
    | none => keysOf polls = []
    | some (key, rest) => keysOf polls = key.toList ++ keysOf rest := by
  induction polls with
  | nil => rfl
  | cons poll polls ih =>
      unfold readKey
      by_cases empty : poll.status &&& 1 = 0
      · have noKey : poll.key = none := by
          rw [Poll.key, if_pos empty]
        rw [if_pos empty]
        exact List.filterMap_cons_none noKey
      rw [if_neg empty]
      by_cases skipped :
          poll.status &&& 0x20 ≠ 0 ∨ poll.code = 0xE0 ∨ poll.code &&& 0x80 ≠ 0
      · have noKey : poll.key = none := by
          rw [Poll.key, if_neg empty, if_pos skipped]
        have same : keysOf (poll :: polls) = keysOf polls := List.filterMap_cons_none noKey
        rw [if_pos skipped, same]
        exact ih
      · have isKey : poll.key = some (keyOf poll.code) := by
          rw [Poll.key, if_neg empty, if_neg skipped]
        rw [if_neg skipped]
        exact List.filterMap_cons_some isKey

theorem nextKey_keys (polls : List Poll) :
    match nextKey polls with
    | none => keysOf polls = []
    | some (key, rest) => keysOf polls = key :: keysOf rest ∧ rest.length < polls.length := by
  fun_induction nextKey polls with
  | case1 polls isNone =>
      have keys := readKey_keys polls
      rw [isNone] at keys
      exact keys
  | case2 polls key rest isKey =>
      have keys := readKey_keys polls
      rw [isKey] at keys
      exact ⟨keys, readKey_shorter isKey⟩
  | case3 polls rest isEmpty ih =>
      have keys := readKey_keys polls
      have shorter := readKey_shorter isEmpty
      rw [isEmpty] at keys
      have same : keysOf polls = keysOf rest := keys
      rw [same]
      cases isNext : nextKey rest with
      | none =>
          rw [isNext] at ih
          exact ih
      | some next =>
          rw [isNext] at ih
          exact ⟨ih.1, ih.2.trans shorter⟩

/-- How often Enter is followed by Y. -/
def confirmations : List Key → Nat
  | .enter :: .yes :: keys => confirmations keys + 1
  | _ :: keys => confirmations keys
  | [] => 0

theorem confirmations_cons (key : Key) (keys : List Key) :
    confirmations keys ≤ confirmations (key :: keys) := by
  rw [confirmations.eq_def (key :: keys)]
  split
  · next isConfirmed =>
      cases isConfirmed
      exact Nat.le_succ _
  · next isOther =>
      cases isOther
      exact Nat.le_refl _
  · next isNil => cases isNil

/-! ## Runs of the menu -/

/-- The disk that an operation leaves. -/
def Installer.perform {σ : Type} (installer : Installer σ) (disk : σ) : Operation → σ
  | .install => (installer.install disk).2.2
  | .erase => (installer.erase disk).2

/-- An operation began under the entry of its name, and an installation had an image. -/
structure Chosen {σ : Type} (installer : Installer σ) (entry : Operation × Screen) : Prop where
  highlights : Highlights entry.2 entry.1.action.number
  present : entry.1 = .install → installer.imagePresent = true

/-- Nothing but the screen and the keyboard has changed. -/
structure Idle {σ : Type} (m m' : Machine σ) : Prop where
  disk : m'.disk = m.disk
  log : m'.log = m.log
  draws : Draws OnScreen m.screen m'.screen
  shorter : m'.polls.length ≤ m.polls.length

/-- Nothing but what stands below the menu has changed. -/
structure Writes {σ : Type} (m m' : Machine σ) : Prop where
  disk : m'.disk = m.disk
  log : m'.log = m.log
  polls : m'.polls = m.polls
  draws : Draws Below m.screen m'.screen

/-- The disk has gone through the operations that were added to the log, of which there are at
most as many as the keys confirm that were left. -/
structure Run {σ : Type} (installer : Installer σ) (keys : List Key) (m m' : Machine σ) :
    Prop where
  performs : ∃ added : List (Operation × Screen), m'.log = m.log ++ added ∧
    m'.disk = (added.map Prod.fst).foldl installer.perform m.disk ∧
    (∀ entry ∈ added, Chosen installer entry) ∧
    added.length + confirmations (keysOf m'.polls) ≤ confirmations keys
  draws : Draws OnScreen m.screen m'.screen
  shorter : m'.polls.length ≤ m.polls.length

section Runs

variable {σ : Type} {installer : Installer σ} {keys : List Key} {m m' m'' : Machine σ}

theorem Idle.refl (m : Machine σ) : Idle m m := ⟨rfl, rfl, .refl _ _, Nat.le_refl _⟩

theorem Idle.trans (first : Idle m m') (second : Idle m' m'') : Idle m m'' where
  disk := second.disk.trans first.disk
  log := second.log.trans first.log
  draws := first.draws.trans second.draws
  shorter := second.shorter.trans first.shorter

theorem Writes.trans (first : Writes m m') (second : Writes m' m'') : Writes m m'' where
  disk := second.disk.trans first.disk
  log := second.log.trans first.log
  polls := second.polls.trans first.polls
  draws := first.draws.trans second.draws

theorem Writes.idle (writes : Writes m m') : Idle m m' where
  disk := writes.disk
  log := writes.log
  draws := writes.draws.mono fun _ below => below.2
  shorter := (congrArg List.length writes.polls).le

theorem Run.of_idle (idle : Idle m m')
    (kept : confirmations (keysOf m'.polls) ≤ confirmations keys) : Run installer keys m m' where
  performs := by
    refine ⟨[], ?_, idle.disk, ?_, ?_⟩
    · rw [idle.log, List.append_nil]
    · exact fun entry member => nomatch member
    · rw [List.length_nil, Nat.zero_add]
      exact kept
  draws := idle.draws
  shorter := idle.shorter

theorem Run.after (idle : Idle m m') (run : Run installer keys m' m'') :
    Run installer keys m m'' where
  performs := by
    rcases run.performs with ⟨added, isLog, isDisk, chosen, few⟩
    rw [idle.log] at isLog
    rw [idle.disk] at isDisk
    exact ⟨added, isLog, isDisk, chosen, few⟩
  draws := idle.draws.trans run.draws
  shorter := run.shorter.trans idle.shorter

theorem Run.trans (first : Run installer keys m m')
    (second : Run installer (keysOf m'.polls) m' m'') : Run installer keys m m'' where
  performs := by
    rcases first.performs with ⟨added, isLog, isDisk, chosen, few⟩
    rcases second.performs with ⟨more, isLog', isDisk', chosen', few'⟩
    refine ⟨added ++ more, ?_, ?_, ?_, ?_⟩
    · rw [isLog', isLog, List.append_assoc]
    · rw [isDisk', isDisk, List.map_append, List.foldl_append]
    · intro entry member
      rcases List.mem_append.mp member with earlier | later
      · exact chosen entry earlier
      · exact chosen' entry later
    · rw [List.length_append]
      omega
  draws := first.draws.trans second.draws
  shorter := second.shorter.trans first.shorter

theorem waitKey_spec :
    Meets waitKey m
      (fun key m' => m'.screen = m.screen ∧ Idle m m' ∧ m'.polls.length < m.polls.length ∧
        keysOf m.polls = key :: keysOf m'.polls)
      fun exit m' => exit = .waiting ∧ m'.screen = m.screen ∧ Idle m m' ∧ m'.polls = [] := by
  have keys := nextKey_keys m.polls
  unfold Meets waitKey
  cases isNext : nextKey m.polls with
  | none => exact ⟨rfl, rfl, ⟨rfl, rfl, .refl _ _, Nat.zero_le _⟩, rfl⟩
  | some next =>
      rw [isNext] at keys
      exact ⟨rfl, ⟨rfl, rfl, .refl _ _, keys.2.le⟩, keys.2, keys.1⟩

theorem put_spec {x y : Nat} {text : List UInt8} {attr : UInt8}
    {failed : Exit → Machine σ → Prop} (under : textRow ≤ y) (inside : y < height) :
    Meets (put x y text attr) m (fun _ m' => Writes m m') failed :=
  .modify ⟨rfl, rfl, rfl, (putText_draws text).mono fun _ inRow => inRow.below under inside⟩

/-- The program stops only where no key comes any more. -/
def Stopped (installer : Installer σ) (keys : List Key) (m : Machine σ) (exit : Exit)
    (m' : Machine σ) : Prop :=
  exit = .waiting ∧ Run installer keys m m'

theorem runInstall_spec {row : Nat} {failed : Exit → Machine σ → Prop}
    (highlights : Highlights m.screen Action.factory.number)
    (present : installer.imagePresent = true) (inside : row < height) :
    Meets (runInstall installer row) m
      (fun _ m' => Run installer (.enter :: .yes :: keysOf m.polls) m m') failed := by
  refine ⟨⟨[(.install, m.screen)], rfl, rfl, ?_, ?_⟩, ?_, Nat.le_refl _⟩
  · intro entry member
    rw [List.mem_singleton.mp member]
    exact ⟨highlights, fun _ => present⟩
  · exact (Nat.add_comm 1 _).le
  · exact (reports_draw _).mono fun index inRow => inRow.onScreen inside

theorem runErase_spec {failed : Exit → Machine σ → Prop}
    (highlights : Highlights m.screen Action.erase.number) :
    Meets (runErase installer) m
      (fun _ m' => Run installer (.enter :: .yes :: keysOf m.polls) m m') failed := by
  refine ⟨⟨[(.erase, m.screen)], rfl, rfl, ?_, ?_⟩, .refl _ _, Nat.le_refl _⟩
  · intro entry member
    rw [List.mem_singleton.mp member]
    exact ⟨highlights, nofun⟩
  · exact (Nat.add_comm 1 _).le

/-- The last lines of a screen, and its last key. -/
theorem notice_spec {x y : Nat} {text : List UInt8} {attr : UInt8} (under : textRow ≤ y)
    (inside : y < height) (run : Run installer keys m m') :
    Meets (do
        put x y text attr
        let _ ← waitKey) m'
      (fun _ m'' => Run installer keys m m'') (Stopped installer keys m) := by
  refine (put_spec under inside).seq (fun _ m1 writes => ?_) fun _ _ failed => failed
  have kept : ∀ {m2 : Machine σ}, Idle m1 m2 →
      confirmations (keysOf m2.polls) ≤ confirmations (keysOf m1.polls) →
      Run installer keys m m2 := by
    intro m2 idle fewer
    refine run.trans (.of_idle (writes.idle.trans idle) ?_)
    rw [← writes.polls]
    exact fewer
  refine waitKey_spec.seq ?_ ?_
  · rintro key m2 ⟨-, idle, -, isKeys⟩
    refine .pure (kept idle ?_)
    rw [isKeys]
    exact confirmations_cons key _
  · rintro exit m2 ⟨isWaiting, -, idle, isEmpty⟩
    refine ⟨isWaiting, kept idle ?_⟩
    rw [isEmpty]
    exact Nat.zero_le _

theorem drawMenu_spec {selected : Nat} {failed : Exit → Machine σ → Prop} :
    Meets (draw fun screen => drawMenu screen selected) m
      (fun _ m' => Idle m m' ∧ Highlights m'.screen selected ∧ m'.polls = m.polls) failed :=
  .modify ⟨⟨rfl, rfl, drawMenu_draws, Nat.le_refl _⟩, drawMenu_highlights, rfl⟩

/-- What is done where the key after Enter is Y. -/
theorem confirm_spec {performed : MenuM σ Unit} (idle : Idle m m') (same : m'.polls = m.polls)
    (yes : ∀ m'', Idle m' m'' → m''.screen = m'.screen →
      Meets performed m''
        (fun _ last => Run installer (.enter :: .yes :: keysOf m''.polls) m'' last)
        (Stopped installer (.enter :: .yes :: keysOf m''.polls) m'')) :
    Meets (do
        let key ← waitKey
        if key = .yes then performed) m'
      (fun _ last => Run installer (.enter :: keysOf m.polls) m last)
      (Stopped installer (.enter :: keysOf m.polls) m) := by
  refine waitKey_spec.seq ?_ ?_
  · rintro key m'' ⟨isScreen, pressed, -, isKeys⟩
    rw [same] at isKeys
    have reached : Idle m m'' := idle.trans pressed
    refine .ite (fun isYes => ?_) fun _ => .pure (.of_idle reached ?_)
    · have performs := yes m'' pressed isScreen
      rw [← isYes, ← isKeys] at performs
      exact performs.mono (fun _ _ run => run.after reached)
        fun _ _ stopped => ⟨stopped.1, stopped.2.after reached⟩
    · rw [isKeys]
      exact (confirmations_cons _ _).trans (confirmations_cons _ _)
  · rintro exit m'' ⟨isWaiting, -, pressed, isEmpty⟩
    refine ⟨isWaiting, .of_idle (idle.trans pressed) ?_⟩
    rw [isEmpty]
    exact Nat.zero_le _

theorem factoryScreen_spec :
    Meets (factoryScreen installer) m
      (fun _ m' => Run installer (.enter :: keysOf m.polls) m m')
      (Stopped installer (.enter :: keysOf m.polls) m) := by
  unfold factoryScreen
  refine drawMenu_spec.seq ?_ fun _ _ failed => failed
  rintro _ m1 ⟨idle, highlights, isPolls⟩
  refine .ite (fun _ => ?_) fun hasImage => ?_
  · refine (put_spec (by decide) (by decide)).seq (fun _ m2 writes => ?_) fun _ _ failed => failed
    refine notice_spec (by decide) (by decide) (.of_idle (idle.trans writes.idle) ?_)
    rw [writes.polls, isPolls]
    exact confirmations_cons _ _
  refine (put_spec (by decide) (by decide)).seq (fun _ m2 first => ?_) fun _ _ failed => failed
  refine (put_spec (by decide) (by decide)).seq (fun _ m3 second => ?_) fun _ _ failed => failed
  have asked := first.trans second
  refine confirm_spec (idle.trans asked.idle) (asked.polls.trans isPolls) fun m4 _ isScreen => ?_
  refine (put_spec (by decide) (by decide)).seq (fun _ m5 third => ?_) fun _ _ failed => failed
  have shown : Highlights m5.screen Action.factory.number := by
    have before := highlights.draws asked.draws
    rw [← isScreen] at before
    exact before.draws third.draws
  have present : installer.imagePresent = true := by
    cases isPresent : installer.imagePresent with
    | false => exact absurd isPresent hasImage
    | true => rfl
  refine (runInstall_spec shown present (by decide)).seq (fun result m6 run => ?_)
    fun _ _ failed => failed
  rw [third.polls] at run
  have installed := run.after third.idle
  refine (put_spec (by decide) (by decide)).seq (fun _ m7 fourth => ?_) fun _ _ failed => failed
  refine notice_spec (by decide) (by decide) (installed.trans (.of_idle fourth.idle ?_))
  rw [fourth.polls]

theorem eraseScreen_spec :
    Meets (eraseScreen installer) m
      (fun _ m' => Run installer (.enter :: keysOf m.polls) m m')
      (Stopped installer (.enter :: keysOf m.polls) m) := by
  unfold eraseScreen
  refine drawMenu_spec.seq ?_ fun _ _ failed => failed
  rintro _ m1 ⟨idle, highlights, isPolls⟩
  refine (put_spec (by decide) (by decide)).seq (fun _ m2 first => ?_) fun _ _ failed => failed
  refine (put_spec (by decide) (by decide)).seq (fun _ m3 second => ?_) fun _ _ failed => failed
  refine (put_spec (by decide) (by decide)).seq (fun _ m4 third => ?_) fun _ _ failed => failed
  have asked := (first.trans second).trans third
  refine confirm_spec (idle.trans asked.idle) (asked.polls.trans isPolls) fun m5 _ isScreen => ?_
  have shown : Highlights m5.screen Action.erase.number := by
    rw [isScreen]
    exact highlights.draws asked.draws
  refine (runErase_spec shown).seq (fun result m6 run => ?_) fun _ _ failed => failed
  have ending : ∀ {m7 : Machine σ}, Writes m6 m7 →
      Run installer (.enter :: .yes :: keysOf m5.polls) m5 m7 := by
    intro m7 writes
    refine run.trans (.of_idle writes.idle ?_)
    rw [writes.polls]
  refine .ite (fun _ => ?_) fun _ => ?_
  · refine (put_spec (by decide) (by decide)).seq (fun _ m7 last => ?_) fun _ _ failed => failed
    exact notice_spec (by decide) (by decide) (ending last)
  · refine (put_spec (by decide) (by decide)).seq (fun _ m7 last => ?_) fun _ _ failed => failed
    exact notice_spec (by decide) (by decide) (ending last)

/-- What a run of the menu ends with: it waits for a key, or what was highlighted is done. -/
def Finished (installer : Installer σ) (m : Machine σ) (exit : Exit) (m' : Machine σ) : Prop :=
  exit ≠ .endless ∧ Run installer (keysOf m.polls) m m' ∧
    (exit = .reboot → Highlights m'.screen Action.reboot.number) ∧
    (exit = .powerOff → Highlights m'.screen Action.powerOff.number)

theorem Finished.of_stopped {exit : Exit} (stopped : Stopped installer (keysOf m.polls) m exit m') :
    Finished installer m exit m' := by
  rcases stopped with ⟨rfl, run⟩
  exact ⟨nofun, run, nofun, nofun⟩

theorem Finished.after {exit : Exit} (run : Run installer (keysOf m.polls) m m')
    (finished : Finished installer m' exit m'') : Finished installer m exit m'' :=
  ⟨finished.1, run.trans finished.2.1, finished.2.2⟩

/-- One key of the loop, and the rest of the loop from the state that it leaves. -/
theorem menuLoop_spec (installer : Installer σ) (rounds : Nat) {selected : Nat}
    (enough : m.polls.length < rounds) (highlights : Highlights m.screen selected) :
    Meets (menuLoop installer rounds selected) m (fun _ _ => False)
      (Finished installer m) := by
  induction rounds generalizing m selected with
  | zero => omega
  | succ rounds ih =>
      unfold menuLoop
      refine waitKey_spec.seq ?_ ?_
      · rintro key m1 ⟨isScreen, pressed, shorter, isKeys⟩
        have reached : Run installer (keysOf m.polls) m m1 := by
          apply Run.of_idle pressed
          rw [isKeys]
          exact confirmations_cons _ _
        rw [← isScreen] at highlights
        -- The menu is drawn again, and the loop goes on.
        have again : ∀ {m2 : Machine σ} (next : Nat), Run installer (keysOf m.polls) m m2 →
            m2.polls.length ≤ m1.polls.length →
            Meets (do
                draw fun screen => drawMenu screen next
                menuLoop installer rounds next) m2 (fun _ _ => False)
              (Finished installer m) := by
          intro m2 next run fewer
          refine drawMenu_spec.seq ?_ fun _ _ failed => failed
          rintro _ m3 ⟨idle, drawn, isPolls⟩
          have few : m3.polls.length < rounds := by
            rw [isPolls]
            omega
          have redrawn : Run installer (keysOf m.polls) m m3 := by
            refine run.trans (.of_idle idle ?_)
            rw [isPolls]
          exact (ih few drawn).mono (fun _ _ never => never) fun _ _ finished =>
            finished.after redrawn
        have ends : ∀ {exit : Exit}, exit ≠ .endless →
            (exit = .reboot → selected = Action.reboot.number) →
            (exit = .powerOff → selected = Action.powerOff.number) →
            Finished installer m exit m1 := by
          intro exit notEndless isReboot isPowerOff
          refine ⟨notEndless, reached, fun isExit => ?_, fun isExit => ?_⟩
          · rw [← isReboot isExit]
            exact highlights
          · rw [← isPowerOff isExit]
            exact highlights
        have opened : ∀ {screen : MenuM σ Unit} (next : Nat), key = .enter →
            Meets screen m1 (fun _ m2 => Run installer (.enter :: keysOf m1.polls) m1 m2)
              (Stopped installer (.enter :: keysOf m1.polls) m1) →
            Meets (do
                screen
                draw fun screen => drawMenu screen next
                menuLoop installer rounds next) m1 (fun _ _ => False)
              (Finished installer m) := by
          intro screen next isEnter runs
          rw [← isEnter, ← isKeys] at runs
          refine runs.seq (fun _ m2 run => again next (run.after pressed) run.shorter) ?_
          exact fun exit m2 stopped =>
            .of_stopped ⟨stopped.1, stopped.2.after pressed⟩
        cases key with
        | up => exact again _ reached (Nat.le_refl _)
        | down => exact again _ reached (Nat.le_refl _)
        | enter =>
            refine .ite (fun isReboot => ?_) fun _ => ?_
            · exact .throw (ends nofun (fun _ => isReboot) nofun)
            refine .ite (fun isPowerOff => ?_) fun _ => ?_
            · exact .throw (ends nofun nofun fun _ => isPowerOff)
            refine .ite (fun _ => ?_) fun _ => ?_
            · exact opened selected rfl eraseScreen_spec
            · exact opened selected rfl factoryScreen_spec
        | yes =>
            exact (ih (by omega) highlights).mono (fun _ _ never => never)
              fun _ _ finished => finished.after reached
        | other =>
            exact (ih (by omega) highlights).mono (fun _ _ never => never)
              fun _ _ finished => finished.after reached
      · rintro exit m1 ⟨isWaiting, -, pressed, isEmpty⟩
        refine .of_stopped ⟨isWaiting, .of_idle pressed ?_⟩
        rw [isEmpty]
        exact Nat.zero_le _

/-- Whatever the keyboard shows, the menu performs an installation or an erasure only under its
highlighted entry and no more of them than there are confirmations, and nothing else reaches the
disk. -/
theorem operations_confirmed (installer : Installer σ) (screen : Screen) (disk : σ)
    (polls : List Poll) :
    Meets (recoveryMain installer) ⟨screen, disk, polls, []⟩ (fun _ _ => False)
      fun exit m' =>
        exit ≠ .endless ∧
        m'.disk = (m'.log.map Prod.fst).foldl installer.perform disk ∧
        m'.log.length ≤ confirmations (keysOf polls) ∧
        (∀ entry ∈ m'.log, Highlights entry.2 entry.1.action.number ∧
          (entry.1 = .install → installer.imagePresent = true)) ∧
        (exit = .reboot → Highlights m'.screen Action.reboot.number) ∧
        (exit = .powerOff → Highlights m'.screen Action.powerOff.number) ∧
        ∀ index, height * width ≤ index → m'.screen index = screen index := by
  unfold recoveryMain
  refine drawMenu_spec.seq ?_ fun _ _ failed => failed
  rintro _ m1 ⟨idle, drawn, isPolls⟩
  refine .bind (.get ?_)
  refine (menuLoop_spec installer _ (Nat.lt_succ_self _) drawn).mono (fun _ _ never => never) ?_
  rintro exit m2 ⟨notEndless, run, isReboot, isPowerOff⟩
  rcases run.performs with ⟨added, isLog, isDisk, chosen, few⟩
  rw [idle.log, List.nil_append] at isLog
  rw [idle.disk, ← isLog] at isDisk
  rw [isPolls] at few
  refine ⟨notEndless, isDisk, ?_, ?_, isReboot, isPowerOff, ?_⟩
  · rw [isLog]
    exact (Nat.le_add_right _ _).trans few
  · intro entry member
    rw [isLog] at member
    exact ⟨(chosen entry member).highlights, (chosen entry member).present⟩
  · intro index outside
    exact (idle.draws.trans run.draws) index (Nat.not_lt.mpr outside)

end Runs

end Katela.Recovery.Menu
