import Katela.Foundation.Program

/-! # The ATA driver

A model of the transfers of `drivers/ata.c`. The drive answers each wait of the driver as
it likes, and what it stores or supplies can be wrong. The polls of one wait are a single
answer. -/

namespace Katela.Drivers.Ata

abbrev Contents : Type := Fin 512 → UInt8

/-- What happens at the drive and at the caller. -/
inductive Event where
  | sent (lba : Nat) (contents : Contents)
  | received (lba : Nat) (contents : Contents)
  | returned (lba : Nat) (contents : Contents)
  | progress (done total : Nat)

/-- The answers of a drive, and the events so far, the latest first. -/
structure Drive where
  totalSectors : Nat
  responds : Nat → Bool
  supplies : Nat → Contents
  waits : Nat
  log : List Event

abbrev AtaM (α : Type) : Type := EStateM Unit Drive α

def Drive.note (drive : Drive) (event : Event) : Drive :=
  { drive with log := event :: drive.log }

/-- A wait for the drive. -/
def await : AtaM Unit := fun drive =>
  let later := { drive with waits := drive.waits + 1 }
  if drive.responds drive.waits then .ok () later else .error () later

/-- A sector of a buffer. -/
def sectorAt (buffer : Nat → UInt8) (i : Nat) : Contents :=
  fun j => buffer (i * 512 + j.val)

/-- The loop of `ata_write_once`. -/
def sendLoop (lba : Nat) (buffer : Nat → UInt8) : (rounds i : Nat) → AtaM Unit
  | 0, _ => pure ()
  | rounds + 1, i => do
      await
      modify fun drive => drive.note (.sent (lba + i) (sectorAt buffer i))
      sendLoop lba buffer rounds (i + 1)

/-- The loop of `ata_read_once`; gives the buffer. -/
def receiveLoop (lba : Nat) : (rounds i : Nat) → (Nat → UInt8) → AtaM (Nat → UInt8)
  | 0, _, buffer => pure buffer
  | rounds + 1, i, buffer => do
      await
      let drive ← get
      let contents := drive.supplies drive.waits
      modify fun drive => drive.note (.received (lba + i) contents)
      receiveLoop lba rounds (i + 1) fun index =>
        if inside : i * 512 ≤ index ∧ index < i * 512 + 512 then
          contents ⟨index - i * 512, by omega⟩
        else buffer index

/-- The sector number as `ata_select` and `ata_setup` write it to the drive. -/
def addressed (lba : Nat) : Nat := lba % 2 ^ 28

/-- `ata_prepare` and `ata_finish` are one wait each. -/
def ataReadOnce (lba count : Nat) (buffer : Nat → UInt8) : AtaM (Nat → UInt8) := do
  await
  let buffer ← receiveLoop (addressed lba) count 0 buffer
  await
  return buffer

def ataWriteOnce (lba count : Nat) (buffer : Nat → UInt8) : AtaM Unit := do
  await
  sendLoop (addressed lba) buffer count 0
  await
  await

def ataRetries : Nat := 3

/-- The loop of `ata_read_sectors` and `ata_write_sectors`. -/
def retry {α : Type} (once : AtaM α) : (attempts : Nat) → AtaM α
  | 0 => throw ()
  | attempts + 1 => do
      match ← attempt once with
      | .ok value => return value
      | .error _ => retry once attempts

def ataReadSectors (lba count : Nat) (buffer : Nat → UInt8) : AtaM (Nat → UInt8) :=
  if count = 0 ∨ count > 255 then throw () else retry (ataReadOnce lba count buffer) ataRetries

def ataWriteSectors (lba count : Nat) (buffer : Nat → UInt8) : AtaM Unit :=
  if count = 0 ∨ count > 255 then throw ()
  else retry (ataWriteOnce lba count buffer) ataRetries

def ataReadSector (lba : Nat) (buffer : Nat → UInt8) : AtaM (Nat → UInt8) := do
  let buffer ← ataReadSectors lba 1 buffer
  modify fun drive => drive.note (.returned lba (sectorAt buffer 0))
  return buffer

/-! ## What is added to the log -/

/-- All new events are allowed ones, and all required ones are among them. -/
def Adds (allowed required : Event → Prop) (drive drive' : Drive) : Prop :=
  ∃ new, drive'.log = new ++ drive.log ∧ (∀ event ∈ new, allowed event) ∧
    ∀ event, required event → event ∈ new

def Nothing (_ : Event) : Prop := False

namespace Adds

variable {allowed allowed' required required' : Event → Prop} {drive drive' drive'' : Drive}

theorem of_log_eq (same : drive'.log = drive.log) : Adds allowed Nothing drive drive' :=
  ⟨[], same, nofun, nofun⟩

theorem note {event : Event} (isAllowed : allowed event) :
    Adds allowed (· = event) drive (drive.note event) := by
  refine ⟨[event], rfl, ?_, ?_⟩
  · intro other member
    rw [List.mem_singleton.mp member]
    exact isAllowed
  · intro other same
    exact List.mem_singleton.mpr same

theorem mono (adds : Adds allowed required drive drive')
    (more : ∀ event, allowed event → allowed' event)
    (fewer : ∀ event, required' event → required event) :
    Adds allowed' required' drive drive' := by
  rcases adds with ⟨new, isLog, areAllowed, areThere⟩
  exact ⟨new, isLog, fun event member => more event (areAllowed event member),
    fun event needed => areThere event (fewer event needed)⟩

theorem trans (first : Adds allowed required drive drive')
    (second : Adds allowed required' drive' drive'') :
    Adds allowed (fun event => required event ∨ required' event) drive drive'' := by
  rcases first with ⟨new, isLog, areAllowed, areThere⟩
  rcases second with ⟨new', isLog', areAllowed', areThere'⟩
  refine ⟨new' ++ new, ?_, ?_, ?_⟩
  · rw [isLog', isLog, List.append_assoc]
  · intro event member
    rcases List.mem_append.mp member with inNew' | inNew
    · exact areAllowed' event inNew'
    · exact areAllowed event inNew
  · rintro event (needed | needed)
    · exact List.mem_append_right _ (areThere event needed)
    · exact List.mem_append_left _ (areThere' event needed)

theorem weaken (adds : Adds allowed required drive drive') :
    Adds allowed Nothing drive drive' :=
  adds.mono (fun _ => id) fun _ => False.elim

end Adds

/-- Every outcome adds allowed events only, and a return also adds what is required of the
value that is returned. -/
def Logs {ε α : Type} (allowed : Event → Prop) (required : α → Event → Prop)
    (program : EStateM ε Drive α) : Prop :=
  ∀ drive, Meets program drive (fun value drive' => Adds allowed (required value) drive drive')
    fun _ drive' => Adds allowed Nothing drive drive'

namespace Logs

variable {ε α β : Type} {allowed allowed' : Event → Prop}
variable {required required' : α → Event → Prop} {required'' : β → Event → Prop}
variable {program : EStateM ε Drive α} {next : α → EStateM ε Drive β}

theorem pure (value : α) :
    Logs allowed (fun _ => Nothing) (Pure.pure value : EStateM ε Drive α) :=
  fun _ => .of_log_eq rfl

/-- A program that does not return meets every requirement. -/
theorem throw (error : ε) : Logs allowed required (throw error : EStateM ε Drive α) :=
  fun _ => .of_log_eq rfl

theorem get : Logs allowed (fun _ => Nothing) (MonadState.get : EStateM ε Drive Drive) :=
  fun _ => .of_log_eq rfl

theorem note {event : Event} (isAllowed : allowed event) :
    Logs allowed (fun _ => (· = event))
      (modify fun drive => drive.note event : EStateM ε Drive Unit) :=
  fun _ => .note isAllowed

theorem mono (logs : Logs allowed required program)
    (more : ∀ event, allowed event → allowed' event)
    (fewer : ∀ value event, required' value event → required value event) :
    Logs allowed' required' program :=
  fun drive => (logs drive).mono (fun value _ adds => adds.mono more (fewer value))
    fun _ _ adds => adds.mono more fun _ => id

theorem bind (first : Logs allowed required program)
    {required' : α → β → Event → Prop} (rest : ∀ value, Logs allowed (required' value) (next value))
    (covered : ∀ value result event, required'' result event →
      required value event ∨ required' value result event) :
    Logs allowed required'' (program >>= next) := by
  intro drive
  refine (first drive).seq ?_ fun _ _ adds => adds
  intro value drive' adds
  refine (rest value drive').mono ?_ ?_
  · intro result drive'' adds'
    exact (adds.trans adds').mono (fun _ => id) (covered value result)
  · intro _ drive'' adds'
    exact (adds.trans adds').weaken

/-- A first part of which nothing is required. -/
theorem after {required : α → Event → Prop} (first : Logs allowed required program)
    (rest : ∀ value, Logs allowed required'' (next value)) :
    Logs allowed required'' (program >>= next) :=
  first.bind rest fun _ _ _ needed => Or.inr needed

end Logs

/-! ## Transfers -/

section Transfers

variable {α : Type} {allowed : Event → Prop} {required : α → Event → Prop}

theorem await_logs : Logs allowed (fun _ => Nothing) await := by
  intro drive
  unfold Meets await
  cases isReady : drive.responds drive.waits with
  | true => exact .of_log_eq rfl
  | false => exact .of_log_eq rfl

theorem retry_logs {once : AtaM α} (logs : Logs allowed required once) (attempts : Nat) :
    Logs allowed required (retry once attempts) := by
  induction attempts with
  | zero => exact .throw ()
  | succ attempts ih =>
      intro drive
      unfold retry
      refine .bind (.attempt ((logs drive).mono ?_ ?_))
      · intro value drive' adds
        exact .pure adds
      · intro _ drive' adds
        refine (ih drive').mono ?_ ?_
        · intro value drive'' adds'
          exact (adds.trans adds').mono (fun _ => id) fun _ => Or.inr
        · intro _ drive'' adds'
          exact (adds.trans adds').weaken

/-- A sector of the buffer was sent to its place. -/
def SentFrom (lba : Nat) (buffer : Nat → UInt8) (first last : Nat) (event : Event) : Prop :=
  ∃ i, first ≤ i ∧ i < last ∧ event = .sent (lba + i) (sectorAt buffer i)

theorem sendLoop_logs {lba : Nat} {buffer : Nat → UInt8} {rounds : Nat} :
    ∀ {i : Nat}, (∀ event, SentFrom lba buffer i (i + rounds) event → allowed event) →
      Logs allowed (fun _ => SentFrom lba buffer i (i + rounds))
        (sendLoop lba buffer rounds i) := by
  induction rounds with
  | zero =>
      intro i _
      refine (Logs.pure ()).mono (fun _ => id) ?_
      rintro _ event ⟨k, atLeast, below, _⟩
      omega
  | succ rounds ih =>
      intro i areAllowed
      have isAllowed : allowed (.sent (lba + i) (sectorAt buffer i)) :=
        areAllowed _ ⟨i, Nat.le_refl i, by omega, rfl⟩
      have later := @ih (i + 1) fun event sent => areAllowed event (by
        rcases sent with ⟨k, atLeast, below, isEvent⟩
        exact ⟨k, by omega, by omega, isEvent⟩)
      refine await_logs.after fun _ => (Logs.note isAllowed).bind (fun _ => later) ?_
      rintro _ _ event ⟨k, atLeast, below, isEvent⟩
      by_cases isFirst : k = i
      · subst isFirst
        exact Or.inl isEvent
      · exact Or.inr ⟨k, by omega, by omega, isEvent⟩

/-- The sectors of a buffer are sent to their places, at most, and all of them if the call
succeeds. -/
theorem ataWriteSectors_logs {lba count : Nat} {buffer : Nat → UInt8}
    (small : lba < 2 ^ 28) (areAllowed : ∀ event, SentFrom lba buffer 0 count event →
      allowed event) :
    Logs allowed (fun _ => SentFrom lba buffer 0 count) (ataWriteSectors lba count buffer) := by
  have isAddress : addressed lba = lba := Nat.mod_eq_of_lt small
  have sends : Logs allowed (fun _ => SentFrom lba buffer 0 count)
      (sendLoop lba buffer count 0) := by
    have loop := @sendLoop_logs allowed lba buffer count 0
    rw [Nat.zero_add] at loop
    exact loop areAllowed
  have once : Logs allowed (fun _ => SentFrom lba buffer 0 count)
      (ataWriteOnce lba count buffer) := by
    unfold ataWriteOnce
    rw [isAddress]
    refine await_logs.after fun _ => sends.bind (fun _ => await_logs.after fun _ => await_logs) ?_
    exact fun _ _ _ needed => Or.inl needed
  unfold ataWriteSectors
  split
  · exact .throw ()
  · exact retry_logs once ataRetries

/-- A sector was received, by an attempt that may have failed. -/
def Received (event : Event) : Prop := ∃ lba contents, event = .received lba contents

/-- A read receives sectors, and the result of a successful one is on record. -/
theorem ataReadSector_spec (lba : Nat) (buffer : Nat → UInt8) (drive : Drive) :
    Meets (ataReadSector lba buffer) drive
      (fun result drive' => ∃ later, Adds Received Nothing drive later ∧
        drive' = later.note (.returned lba (sectorAt result 0)))
      fun _ drive' => Adds Received Nothing drive drive' := by
  have loop : ∀ rounds i buffer, Logs Received (fun _ => Nothing)
      (receiveLoop (addressed lba) rounds i buffer) := by
    intro rounds
    induction rounds with
    | zero => exact fun i buffer => .pure buffer
    | succ rounds ih =>
        intro i buffer
        refine await_logs.after fun _ => Logs.get.after fun drive => ?_
        exact (Logs.note ⟨_, _, rfl⟩).after fun _ => ih _ _
  have once : Logs Received (fun _ => Nothing) (ataReadOnce lba 1 buffer) :=
    await_logs.after fun _ => (loop 1 0 buffer).after fun result =>
      await_logs.after fun _ => .pure result
  have sectors : Logs Received (fun _ => Nothing) (ataReadSectors lba 1 buffer) := by
    unfold ataReadSectors
    split
    · exact .throw ()
    · exact retry_logs once ataRetries
  refine (sectors drive).seq ?_ fun _ _ adds => adds
  intro result later adds
  exact .bind (.modify (.pure ⟨later, adds, rfl⟩))

end Transfers

end Katela.Drivers.Ata
