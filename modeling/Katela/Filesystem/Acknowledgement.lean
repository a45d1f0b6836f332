import Katela.Filesystem.Refinement

/-! # Acknowledged writes

`fs_write` and `fs_truncate` change the handle before they store it in the directory, and
they store it only if it is not what it was when the call began. If a transfer fails in
between, the handle is ahead of the directory, and a later call that leaves the handle
alone does not make up for it. -/

namespace Katela.Filesystem

/-- The slot of an open file, on the disk, says what its handle says. -/
structure Recorded (s : Fs) (file : FileRef) : Prop where
  first : (slotOf s file).first = (s.files file).first
  size : (slotOf s file).size = (s.files file).size

/-- Who opens the file by its name finds what its handle says. -/
def FoundAgain (s : Fs) (file : FileRef) : Prop :=
  ∀ (other : FileRef) (s' : Fs),
    fsOpen (some (storedName (slotOf s file))) other false s = .ok () s' →
      (s'.files other).first = (s.files file).first ∧
        (s'.files other).size = (s.files file).size

/-! ## Runs on one handle -/

namespace Call

/-- The calls that use the given handle. -/
def OnHandle (handle : Nat) : Call → Prop
  | .open _ file _ => file = handle
  | .read file _ _ => file = handle
  | .write file _ _ _ => file = handle
  | .truncate file _ => file = handle
  | _ => False

/-- The handle is as the directory has it, or the call is bound to change it: a write
whose first piece reaches beyond the end of the file, a truncation to another size. A
write of nothing is not acknowledged. -/
def Careful (s : Fs) : Call → Prop
  | .write file offset _ count =>
      Recorded s (.caller file) ∨ writeLimit offset.toNat count.toNat = 0 ∨
        (s.files (.caller file)).size < offset.toNat +
          pieceLength s offset.toNat (writeLimit offset.toNat count.toNat)
  | .truncate file size =>
      Recorded s (.caller file) ∨ size.toNat ≠ (s.files (.caller file)).size
  | _ => True

/-- How many bytes a call reports as written. -/
def stored : Except FsError Reply → Nat
  | .ok (.count stored) => stored
  | _ => 0

/-- A call reported bytes as written, or the file as truncated. -/
def Acknowledged (result : Except FsError Reply) : Call → Prop
  | .write _ _ _ _ => 0 < stored result
  | .truncate _ _ => result.isOk = true
  | _ => False

theorem OnHandle.onFiles {handle : Nat} {call : Call} (onHandle : call.OnHandle handle) :
    call.OnFiles := by
  cases call with
  | «open» => trivial
  | read => trivial
  | write => trivial
  | truncate => trivial
  | _ => exact onHandle.elim

end Call

/-- A run of calls on one handle, the latest first, each allowed in the state before
it. -/
inductive HandleRun (handle : Nat) (Allowed : Fs → Call → Prop) (start : Fs) :
    List (Call × Except FsError Reply) → Fs → (FileRef → Prop) → Prop where
  | start : HandleRun handle Allowed start [] start fun _ => False
  | call {events : List (Call × Except FsError Reply)} {s s' : Fs} {live : FileRef → Prop}
      {call : Call} {result : Except FsError Reply}
      (before : HandleRun handle Allowed start events s live)
      (onHandle : call.OnHandle handle) (usable : call.Usable live)
      (allowed : Allowed s call) (performed : perform call s = (result, s')) :
      HandleRun handle Allowed start ((call, result) :: events) s'
        (call.liveAfter False s result s' live)

section Runs

variable {F : Format} {live : FileRef → Prop} {start s s' : Fs} {own : Ownership}
variable {handle : Nat} {Allowed : Fs → Call → Prop}
variable {events : List (Call × Except FsError Reply)} {file : FileRef}

theorem HandleRun.ready (ready : Ready F (fun _ => False) start own)
    (run : HandleRun handle Allowed start events s live) :
    (∃ own', Ready F live s own') ∧ ¬ live .stack := by
  induction run with
  | start => exact ⟨⟨own, ready⟩, id⟩
  | @call events s s' live call result before onHandle usable allowed performed induction =>
      rcases induction with ⟨⟨own', ready'⟩, notLive⟩
      have answers : Answers F False live s own' call _ _ :=
        perform_answers ready' notLive onHandle.onFiles usable
      rw [performed] at answers
      rcases answers with ⟨own'', _, ready'', _⟩
      exact ⟨⟨own'', ready''⟩, call.not_liveAfter_stack notLive⟩

theorem Inv.recorded_iff (inv : Inv F live s own) (isLive : live file) :
    Recorded s file ↔ Agrees s file := by
  constructor
  · rintro ⟨first, size⟩
    rw [inv.slotOf_eq isLive] at first size
    exact ⟨first, size⟩
  · rintro ⟨first, size⟩
    rw [← inv.slotOf_eq isLive] at first size
    exact ⟨first, size⟩

/-- A handle and a slot that stayed as they were. -/
theorem Agrees.kept (agrees : Agrees s file)
    (location : (s'.files file).location = (s.files file).location)
    (first : (s'.files file).first = (s.files file).first)
    (size : (s'.files file).size = (s.files file).size)
    (entry : entryOf s'.image (s.files file).location =
      entryOf s.image (s.files file).location) : Agrees s' file := by
  constructor
  · rw [location, entry, first]
    exact agrees.first
  · rw [location, entry, size]
    exact agrees.size

/-- The file with a recorded handle is found again by its name. -/
theorem Recorded.foundAgain (ready : Ready F live s own) (isLive : live file)
    (recorded : Recorded s file) : FoundAgain s file := by
  have inv := ready.between.inv
  have agrees := (inv.recorded_iff isLive).mp recorded
  intro other s' opens
  have spec := finish_spec (openImpl_spec ready.between
    (some (storedName (slotOf s file))) other false) (by
      rintro _ s' ⟨given, location, s1, own1, _, isValid, found, rfl⟩
      rcases found.opened ready.between isValid with ⟨own', opened⟩
      exact opened.between.safe) (by
      rintro error s' ⟨own', refused⟩
      exact refused.between.safe)
  rcases spec.ok_of_run opens with
    ⟨_, ⟨given, location, s1, own1, isGiven, _, found, rfl⟩, moved, _⟩
  injection isGiven with isGiven
  rcases found.how with ⟨image, rfl⟩ | ⟨impossible, _⟩
  · have held := found.holds
    have named := found.named
    rw [image] at held named
    rw [← isGiven, inv.slotOf_eq isLive] at named
    have same : location = (s.files file).location := inv.directory.distinct _ _ held
      (inv.handles.opened file isLive).holds named
    rw [moved.files, Fs.setFile_files_self, image, same]
    exact ⟨agrees.first, agrees.size⟩
  · cases impossible

/-! ## Acknowledged calls -/

theorem write_recorded {file : Nat} {offset count : UInt32} {buffer : Nat → UInt8}
    {result : Except FsError Reply} (ready : Ready F live s own)
    (isLive : live (.caller file))
    (careful : Call.Careful s (.write file offset buffer count))
    (performed : perform (.write file offset buffer count) s = (result, s'))
    (acknowledged : Call.Acknowledged result (.write file offset buffer count)) :
    Recorded s' (.caller file) := by
  have inv := ready.between.inv
  have recorded : Call.Acknowledged
      (perform (.write file offset buffer count) s).1 (.write file offset buffer count) →
      Recorded (perform (.write file offset buffer count) s).2 (.caller file) := by
    refine @perform_of_meets _ _ _ _ s
      (fun result s' => Call.Acknowledged result (.write file offset buffer count) →
        Recorded s' (.caller file)) rfl ((fsWrite_handled ready isLive).mono ?_ ?_)
    · rintro stored s1 ⟨_, own1, handled, written, _, most, _, piece, _⟩ some
      have positive : 0 < stored := some
      have grown := written.size
      have inv1 := handled.advanced.between.inv
      rw [inv1.recorded_iff isLive]
      rcases written.settled with agrees | ⟨first, size, entry⟩
      · exact agrees
      · rcases careful with before | nothing | beyond
        · rw [inv.recorded_iff isLive] at before
          exact before.kept handled.advanced.location first size entry
        · omega
        · -- The first piece is stored as a whole, so the size differs.
          omega
    · exact fun error s1 _ impossible => absurd impossible (Nat.lt_irrefl 0)
  rw [performed] at recorded
  exact recorded acknowledged

theorem truncate_recorded {file : Nat} {size : UInt32} {result : Except FsError Reply}
    (ready : Ready F live s own) (isLive : live (.caller file))
    (careful : Call.Careful s (.truncate file size))
    (performed : perform (.truncate file size) s = (result, s'))
    (acknowledged : Call.Acknowledged result (.truncate file size)) :
    Recorded s' (.caller file) := by
  have inv := ready.between.inv
  have recorded : Call.Acknowledged (perform (.truncate file size) s).1
      (.truncate file size) →
      Recorded (perform (.truncate file size) s).2 (.caller file) := by
    refine @perform_of_meets _ _ _ _ s
      (fun result s' => Call.Acknowledged result (.truncate file size) →
        Recorded s' (.caller file)) rfl ((fsTruncate_handled ready isLive).mono ?_ ?_)
    · rintro _ s1 ⟨_, own1, handled, truncated⟩ _
      have inv1 := handled.advanced.between.inv
      rw [inv1.recorded_iff isLive]
      rcases truncated.settled with agrees | ⟨first, same, entry⟩
      · exact agrees
      · rcases careful with before | different
        · rw [inv.recorded_iff isLive] at before
          exact before.kept handled.advanced.location first (truncated.size.trans same) entry
        · exact absurd same different
    · exact fun error s1 _ impossible => Bool.noConfusion impossible
  rw [performed] at recorded
  exact recorded acknowledged

/-- In every run of careful calls on a handle, whichever transfers fail, a call that is
acknowledged leaves the handle on the disk. -/
theorem acknowledged_survives {call : Call} {result : Except FsError Reply}
    (ready : Ready F (fun _ => False) start own)
    (run : HandleRun handle Call.Careful start ((call, result) :: events) s live)
    (acknowledged : call.Acknowledged result) :
    Recorded s (.caller handle) ∧ FoundAgain s (.caller handle) := by
  rcases (run.ready ready).1 with ⟨own', ready'⟩
  rcases run with _ | ⟨before, onHandle, usable, careful, performed⟩
  rcases (before.ready ready).1 with ⟨own'', ready''⟩
  cases call with
  | write file offset buffer count =>
      cases onHandle
      have recorded := write_recorded ready'' usable careful performed acknowledged
      exact ⟨recorded, recorded.foundAgain ready' usable⟩
  | truncate file size =>
      cases onHandle
      have recorded := truncate_recorded ready'' usable careful performed acknowledged
      exact ⟨recorded, recorded.foundAgain ready' usable⟩
  | _ => exact acknowledged.elim

end Runs

/-! ## A transfer that fails -/

/-- The smallest disk, formatted; the transfer with the number 12 fails. -/
def faultyDisk : Fs :=
  { Fs.blank minDiskSectors with fails := fun number => number == 12 }

/-- The disk after `fs_format`, with the record of what was written to it empty. -/
def faultyStart : Fs :=
  { (perform .format faultyDisk).2 with history := [], accesses := [] }

/-- A disk on which `fs_format` succeeds. -/
theorem formatted_of_isOk {disk : Fs} (small : disk.total ≤ 0x0FFFFFFF)
    (device : disk.diskSectors = 0) (isOk : (perform .format disk).1.isOk = true) :
    Formatted { (perform .format disk).2 with history := [], accesses := [] } := by
  refine @perform_of_meets _ _ _ _ disk (fun result after => result.isOk = true →
    Formatted { after with history := [], accesses := [] }) rfl ?_ isOk
  unfold Meets
  cases formats : fsFormat disk with
  | ok value after => exact fun _ => ⟨disk, after, small, Or.inl device, formats, rfl⟩
  | error error after => exact fun impossible => Bool.noConfusion impossible

theorem faultyStart_formatted : Formatted faultyStart :=
  formatted_of_isOk (by decide) rfl (by decide +kernel)

/-- Creates a file and opens it. -/
def opensNew : Call :=
  .open (some (boundedString (fun _ => 97) 1)) 0 true

/-- Writes one byte. -/
def writesByte (offset : UInt32) : Call :=
  .write 0 offset (fun _ => 98) 1

/-- The state before the byte is written. -/
def faultyOpened : Fs :=
  (perform opensNew faultyStart).2

/-- The state after the first attempt to write the byte. -/
def faultyAttempted : Fs :=
  (perform (writesByte 0) faultyOpened).2

/-- A file that is opened is open. -/
theorem opensNew_live {s s' : Fs} {live : FileRef → Prop}
    (isOk : (perform opensNew s).1.isOk = true) :
    opensNew.liveAfter False s (perform opensNew s).1 s' live (.caller 0) := by
  cases performed : (perform opensNew s).1 with
  | ok reply => exact Or.inl rfl
  | error error =>
      rw [performed] at isOk
      cases isOk

theorem faultyOpened_live : opensNew.liveAfter False faultyStart
    (perform opensNew faultyStart).1 faultyOpened (fun _ => False) (.caller 0) :=
  opensNew_live (by decide +kernel)

/-- The run to the failed attempt and then the same or another byte. -/
theorem faulty_run {Allowed : Fs → Call → Prop} (offset : UInt32)
    (opens : Allowed faultyStart opensNew) (writes : Allowed faultyOpened (writesByte 0))
    (writesAgain : Allowed faultyAttempted (writesByte offset)) :
    ∃ events live, HandleRun 0 Allowed faultyStart
      ((writesByte offset, (perform (writesByte offset) faultyAttempted).1) :: events)
      (perform (writesByte offset) faultyAttempted).2 live := by
  have opened := @HandleRun.call 0 Allowed faultyStart _ _ _ _ opensNew _ .start rfl trivial
    opens rfl
  have attempted := @HandleRun.call 0 Allowed faultyStart _ _ _ _ (writesByte 0) _ opened rfl
    faultyOpened_live writes rfl
  exact ⟨_, _, @HandleRun.call 0 Allowed faultyStart _ _ _ _ (writesByte offset) _ attempted
    rfl faultyOpened_live writesAgain rfl⟩

/-- The second attempt reports the byte as written, but the file in the directory stays
empty. -/
theorem acknowledged_lost :
    ∃ F own events s live call result, Ready F (fun _ => False) faultyStart own ∧
      HandleRun 0 (fun _ _ => True) faultyStart ((call, result) :: events) s live ∧
      call.Acknowledged result ∧ ¬ Recorded s (.caller 0) := by
  rcases faultyStart_formatted.ready with ⟨F, _, _, _, ready, _⟩
  rcases @faulty_run (fun _ _ => True) 0 trivial trivial trivial with ⟨events, live, run⟩
  refine ⟨F, freshOwn, events, _, live, _, _, ready, run, ?_, ?_⟩
  · change 0 < Call.stored (perform (writesByte 0) faultyAttempted).1
    decide +kernel
  · rintro ⟨_, size⟩
    revert size
    decide +kernel

/-- A byte that is added to the file after the failed attempt is found. -/
theorem acknowledged_survives_fault :
    ∃ events s live, HandleRun 0 Call.Careful faultyStart events s live ∧
      Recorded s (.caller 0) ∧ FoundAgain s (.caller 0) := by
  rcases faultyStart_formatted.ready with ⟨F, _, _, _, ready, _⟩
  have writes : Call.Careful faultyOpened (writesByte 0) :=
    Or.inr (Or.inr (by decide +kernel))
  have appends : Call.Careful faultyAttempted (writesByte 1) :=
    Or.inr (Or.inr (by decide +kernel))
  rcases faulty_run 1 trivial writes appends with ⟨events, live, run⟩
  have acknowledged : (writesByte 1).Acknowledged
      (perform (writesByte 1) faultyAttempted).1 := by
    change 0 < Call.stored (perform (writesByte 1) faultyAttempted).1
    decide +kernel
  exact ⟨_, _, live, run, acknowledged_survives ready run acknowledged⟩

end Katela.Filesystem
