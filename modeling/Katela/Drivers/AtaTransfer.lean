import Katela.Drivers.AtaPorts
import Katela.Foundation.Words

/-! # Transfers through the ports

A write that the driver reports as done is on the medium, a read that it reports as done
gives what the drive has, and no other sector changes either way. -/

namespace Katela.Drivers.AtaPorts

open Katela.Drivers.Ata (Contents sectorAt)

variable {s s' : Bus} {drive : Drive}

/-! ## Polling -/

/-- What reads of the status change. -/
structure Polled (s s' : Bus) : Prop where
  rest : s'.drive =
    { s.drive with busy := s'.drive.busy, phase := s'.drive.phase, media := s'.drive.media }
  phase : s'.drive.phase = s.drive.phase ∧ s'.drive.media = s.drive.media ∨
    s.drive.phase = .flushing ∧ s'.drive.phase = .idle ∧ s'.drive.media = s.drive.cached
  buffer : s'.buffer = s.buffer

theorem Polled.refl (s : Bus) : Polled s s := ⟨rfl, Or.inl ⟨rfl, rfl⟩, rfl⟩

theorem Polled.trans {s'' : Bus} (first : Polled s s') (second : Polled s' s'') :
    Polled s s'' := by
  refine ⟨?_, ?_, second.buffer.trans first.buffer⟩
  · rw [second.rest, first.rest]
  · rcases second.phase with ⟨phase, media⟩ | ⟨flushing, phase, media⟩
    · rw [phase, media]
      exact first.phase
    · rcases first.phase with ⟨same, _⟩ | ⟨_, isIdle, _⟩
      · refine Or.inr ⟨same ▸ flushing, phase, ?_⟩
        rw [media, first.rest]
      · rw [isIdle] at flushing
        cases flushing

/-- A status of a drive that is not busy. -/
structure Shows (value : UInt8) (drive : Drive) : Prop where
  busy : drive.busy = 0
  phase : drive.phase = .idle ∧ value = 0x50 ∨ drive.phase = .failed ∧ value = 0x51 ∨
    drive.phase.offers = true ∧ value = 0x58

theorem status_spec (s : Bus) :
    Polled s { s with drive := s.drive.status.2 } ∧
      (s.drive.status.1 &&& 0x80 = 0 → Shows s.drive.status.1 s.drive.status.2) := by
  unfold Drive.status
  by_cases isBusy : 0 < s.drive.busy
  · rw [if_pos isBusy]
    exact ⟨⟨rfl, Or.inl ⟨rfl, rfl⟩, rfl⟩,
      fun ready => absurd (show (0x80 : UInt8) &&& 0x80 = 0 from ready) (by decide)⟩
  · rw [if_neg isBusy]
    have notBusy : s.drive.busy = 0 := Nat.eq_zero_of_not_pos isBusy
    cases isPhase : s.drive.phase with
    | idle => exact ⟨.refl s, fun _ => ⟨notBusy, Or.inl ⟨isPhase, rfl⟩⟩⟩
    | failed => exact ⟨.refl s, fun _ => ⟨notBusy, Or.inr (Or.inl ⟨isPhase, rfl⟩)⟩⟩
    | flushing =>
        exact ⟨⟨rfl, Or.inr ⟨isPhase, rfl, rfl⟩, rfl⟩, fun _ => ⟨notBusy, Or.inl ⟨rfl, rfl⟩⟩⟩
    | _ => exact ⟨.refl s, fun _ => ⟨notBusy, Or.inr (Or.inr ⟨by rw [isPhase]; rfl, rfl⟩)⟩⟩

/-- A loop that polls the status until it can tell. -/
theorem poll_spec (loop : Nat → PortM Unit) (Stops : UInt8 → Prop)
    (verdict : UInt8 → PortM Unit → PortM Unit) (zero : loop 0 = throw ())
    (succ : ∀ rounds, loop (rounds + 1) = do
      let status ← inb ataStatus
      verdict status (loop rounds))
    (verdicts : ∀ status rest, verdict status rest = rest ∨ verdict status rest = throw () ∨
      verdict status rest = pure () ∧ Stops status)
    (ready : ∀ status, Stops status → status &&& 0x80 = 0) (rounds : Nat) :
    Meets (loop rounds) s
      (fun _ s' => Polled s s' ∧ ∃ value, Stops value ∧ Shows value s'.drive)
      fun _ s' => Polled s s' := by
  induction rounds generalizing s with
  | zero =>
      rw [zero]
      exact .throw (.refl s)
  | succ rounds ih =>
      rw [succ]
      rcases status_spec s with ⟨polled, shows⟩
      have read : inb ataStatus s = .ok s.drive.status.1 { s with drive := s.drive.status.2 } :=
        rfl
      refine .bind (.of_ok read ?_)
      rcases verdicts s.drive.status.1 (loop rounds) with again | gives | ⟨stops, isStop⟩
      · rw [again]
        exact ih.mono (fun _ s'' later => ⟨polled.trans later.1, later.2⟩)
          fun _ s'' later => polled.trans later
      · rw [gives]
        exact .throw polled
      · rw [stops]
        exact .pure ⟨polled, _, isStop, shows (ready _ isStop)⟩

theorem ataWaitBsy_spec (s : Bus) :
    Meets ataWaitBsy s (fun _ s' => Polled s s' ∧ s'.drive.busy = 0) fun _ s' => Polled s s' := by
  refine (poll_spec waitBsyLoop (fun status => status &&& ataSrBsy = 0)
    (fun status rest => if status &&& ataSrBsy = 0 then pure () else rest) rfl
    (fun _ => rfl) ?_ (fun _ stops => stops) ataTimeout).mono ?_ fun _ _ polled => polled
  · intro status rest
    split
    · exact Or.inr (Or.inr ⟨rfl, ‹_›⟩)
    · exact Or.inl rfl
  · rintro _ s' ⟨polled, value, -, shows⟩
    exact ⟨polled, shows.busy⟩

theorem ataWaitDrq_spec (s : Bus) :
    Meets ataWaitDrq s (fun _ s' => Polled s s' ∧ s'.drive.phase.offers = true)
      fun _ s' => Polled s s' := by
  refine (poll_spec waitDrqLoop
    (fun status => status &&& ataSrBsy = 0 ∧ status &&& ataSrDrq ≠ 0)
    (fun status rest =>
      if status &&& ataSrBsy ≠ 0 then rest
      else if status &&& (ataSrErr ||| ataSrDf) ≠ 0 then throw ()
      else if status &&& ataSrDrq ≠ 0 then pure ()
      else rest) rfl
    (fun _ => rfl) ?_ (fun _ stops => stops.1) ataTimeout).mono ?_ fun _ _ polled => polled
  · intro status rest
    split
    · exact Or.inl rfl
    · rename_i ready
      split
      · exact Or.inr (Or.inl rfl)
      · split
        · exact Or.inr (Or.inr ⟨rfl, not_not.mp ready, ‹_›⟩)
        · exact Or.inl rfl
  · rintro _ s' ⟨polled, value, stops, shows⟩
    refine ⟨polled, ?_⟩
    rcases shows.phase with ⟨-, rfl⟩ | ⟨-, rfl⟩ | ⟨offers, -⟩
    · exact absurd rfl stops.2
    · exact absurd rfl stops.2
    · exact offers

theorem ataFinish_spec (s : Bus) :
    Meets ataFinish s (fun _ s' => Polled s s' ∧ s'.drive.busy = 0 ∧ s'.drive.phase = .idle)
      fun _ s' => Polled s s' := by
  refine .bind (.of_ok (pause_run 4 s) ?_)
  refine (poll_spec finishLoop
    (fun status => status &&& ataSrBsy = 0 ∧
      status &&& (ataSrErr ||| ataSrDf ||| ataSrDrq) = 0)
    (fun status rest =>
      if status &&& ataSrBsy ≠ 0 then rest
      else if status &&& (ataSrErr ||| ataSrDf ||| ataSrDrq) ≠ 0 then throw ()
      else pure ()) rfl
    (fun _ => rfl) ?_ (fun _ stops => stops.1) ataTimeout).mono ?_ fun _ _ polled => polled
  · intro status rest
    split
    · exact Or.inl rfl
    · rename_i ready
      split
      · exact Or.inr (Or.inl rfl)
      · exact Or.inr (Or.inr ⟨rfl, not_not.mp ready, not_not.mp ‹_›⟩)
  · rintro _ s' ⟨polled, value, stops, shows⟩
    refine ⟨polled, shows.busy, ?_⟩
    rcases shows.phase with ⟨idle, -⟩ | ⟨-, rfl⟩ | ⟨-, rfl⟩
    · exact idle
    · exact absurd stops.2 (by decide)
    · exact absurd stops.2 (by decide)

/-- A read of the status that ends a flush shows that. -/
theorem status_media (drive : Drive) :
    drive.status.2.media = drive.media ∨ drive.status.1 = 0x50 := by
  unfold Drive.status
  split
  · exact Or.inl rfl
  · split
    · exact Or.inl rfl
    · exact Or.inl rfl
    · exact Or.inr rfl
    · exact Or.inl rfl

/-- A wait that fails has not seen the end of a flush. -/
theorem ataFinish_media (s : Bus) :
    Meets ataFinish s (fun _ _ => True) fun _ s' => s'.drive.media = s.drive.media := by
  refine .bind (.of_ok (pause_run 4 s) ?_)
  generalize ataTimeout = rounds
  induction rounds generalizing s with
  | zero => exact .throw rfl
  | succ rounds ih =>
      have read : inb ataStatus s = .ok s.drive.status.1 { s with drive := s.drive.status.2 } :=
        rfl
      refine .bind (.of_ok read ?_)
      rcases status_media s.drive with same | ended
      · refine .ite (fun _ => ?_) fun _ => .ite (fun _ => .throw same) fun _ => .pure trivial
        exact (ih _).mono (fun _ _ _ => trivial) fun _ _ later => later.trans same
      · rw [ended, if_neg (by decide), if_neg (by decide)]
        exact .pure trivial

/-! ## Commands -/

/-- The drive has nothing to do. -/
def Quiet (drive : Drive) : Prop := drive.phase = .idle ∨ drive.phase = .failed

/-- The sectors are the same, and so is the buffer. -/
structure Intact (s s' : Bus) : Prop where
  cached : s'.drive.cached = s.drive.cached
  media : s'.drive.media = s.drive.media
  buffer : s'.buffer = s.buffer

theorem Intact.refl (s : Bus) : Intact s s := ⟨rfl, rfl, rfl⟩

theorem Intact.trans {s'' : Bus} (first : Intact s s') (second : Intact s' s'') :
    Intact s s'' :=
  ⟨second.cached.trans first.cached, second.media.trans first.media,
    second.buffer.trans first.buffer⟩

/-- Polling changes nothing else of a drive that does not flush. -/
theorem Polled.of_not_flushing (polled : Polled s s') (other : s.drive.phase ≠ .flushing) :
    s' = { s with drive := { s.drive with busy := s'.drive.busy } } := by
  have rest := polled.rest
  rcases polled.phase with ⟨phase, media⟩ | ⟨flushing, -⟩
  · rw [phase, media] at rest
    exact congrArg₂ Bus.mk rest polled.buffer
  · exact absurd flushing other

theorem Polled.intact (polled : Polled s s') (other : s.drive.phase ≠ .flushing) :
    Intact s s' := by
  have same := polled.of_not_flushing other
  exact ⟨(congrArg (fun s => s.drive.cached) same :), (congrArg (fun s => s.drive.media) same :),
    polled.buffer⟩

theorem Quiet.ne_flushing (quiet : Quiet drive) : drive.phase ≠ .flushing := by
  intro flushing
  rw [Quiet, flushing] at quiet
  rcases quiet with impossible | impossible <;> cases impossible

theorem Quiet.offers (quiet : Quiet drive) : drive.phase.offers = false := by
  rcases quiet with phase | phase <;> rw [phase] <;> rfl

/-- The drive has failed or is in the given phase. -/
def InPhase (phase : Phase) (drive : Drive) : Prop :=
  drive.phase = .failed ∨ drive.phase = phase

theorem begin_inPhase (drive : Drive) (phase : Phase) : InPhase phase (drive.begin phase) := by
  unfold InPhase Drive.begin
  dsimp only
  split
  · exact Or.inl rfl
  · exact Or.inr rfl

/-- The value that `ata_select` writes. -/
def headOf (lba : UInt32) : UInt8 := (0xE0 : UInt8) ||| ((lba >>> 24) &&& 0x0F).toUInt8

theorem ataSelect_run (lba : UInt32) (ready : s.drive.busy = 0) :
    ataSelect lba s = .ok () { s with drive := { s.drive with head := headOf lba } } := by
  have isOutput : s.drive.output ataDriveHead (headOf lba) =
      { s.drive with head := headOf lba } := by
    simp [Drive.output, ready, ataControl, ataSeccount, ataLbaLow, ataLbaMid, ataLbaHigh,
      ataDriveHead]
  have selects : outb ataDriveHead (headOf lba) s =
      .ok () { s with drive := { s.drive with head := headOf lba } } := by
    rw [← isOutput]
    rfl
  change EStateM.bind (outb ataDriveHead (headOf lba)) (fun _ => ataDelay) s = _
  unfold EStateM.bind
  rw [selects]
  exact pause_run 4 _

/-- From a drive with nothing to do, `ata_prepare` selects the sector's last bits. -/
theorem ataPrepare_spec (lba : UInt32) (quiet : Quiet s.drive) :
    Meets (ataPrepare lba) s
      (fun _ s' => s' = { s with drive := { s.drive with busy := 0, head := headOf lba } })
      fun _ s' => Intact s s' := by
  refine (ataWaitBsy_spec s).seq ?_ fun _ s' polled => polled.intact quiet.ne_flushing
  rintro _ s1 ⟨polled, ready⟩
  have isFirst := polled.of_not_flushing quiet.ne_flushing
  rw [ready] at isFirst
  refine .bind (.of_ok (ataSelect_run lba ready) ?_)
  subst isFirst
  refine (ataWaitBsy_spec _).seq ?_ fun _ s' polled => ?_
  · rintro _ s2 ⟨polled, ready⟩
    have isSecond := polled.of_not_flushing quiet.ne_flushing
    rw [ready] at isSecond
    have isPhase : s2.drive.phase = s.drive.phase := by rw [isSecond]
    have status : s2.drive.status.1 &&& ataSrDrq = 0 ∧ s2.drive.status.2 = s2.drive := by
      unfold Drive.status
      rw [if_neg (by rw [ready]; decide), isPhase]
      rcases quiet with phase | phase
      · rw [phase]
        exact ⟨show (0x50 : UInt8) &&& ataSrDrq = 0 by decide, rfl⟩
      · rw [phase]
        exact ⟨show (0x51 : UInt8) &&& ataSrDrq = 0 by decide, rfl⟩
    have read : inb ataStatus s2 = .ok s2.drive.status.1 s2 := by
      change EStateM.Result.ok s2.drive.status.1 { s2 with drive := s2.drive.status.2 } = _
      rw [status.2]
    refine .bind (.of_ok read ?_)
    rw [if_neg (not_not.mpr status.1)]
    exact .pure isSecond
  · rcases polled.intact quiet.ne_flushing with ⟨cached, media, buffer⟩
    exact ⟨cached, media, buffer⟩

/-- The registers that `ata_setup` writes. -/
def Drive.numbered (drive : Drive) (lba count : UInt32) : Drive :=
  { drive with
    count := count.toUInt8
    low := (lba &&& 0xFF).toUInt8
    mid := ((lba >>> 8) &&& 0xFF).toUInt8
    high := ((lba >>> 16) &&& 0xFF).toUInt8 }

theorem ataSetup_run (lba count : UInt32) (command : UInt8) (ready : s.drive.busy = 0) :
    ataSetup lba count command s =
      .ok () { s with drive := (s.drive.numbered lba count).command command } := by
  have outputs : ((((s.drive.output ataSeccount count.toUInt8).output ataLbaLow
      (lba &&& 0xFF).toUInt8).output ataLbaMid ((lba >>> 8) &&& 0xFF).toUInt8).output ataLbaHigh
      ((lba >>> 16) &&& 0xFF).toUInt8).output ataCommand command =
        (s.drive.numbered lba count).command command := by
    simp [Drive.output, Drive.numbered, ready, ataControl, ataSeccount, ataLbaLow, ataLbaMid,
      ataLbaHigh, ataDriveHead, ataCommand]
  rw [← outputs]
  exact pause_run 4 _

theorem headOf_eq (lba : UInt32) :
    headOf lba = 0xE0 ||| UInt8.ofNat (lba.toNat / 2 ^ 24 % 16) := by
  have last : ((lba >>> 24) &&& 0x0F).toNat = lba.toNat / 2 ^ 24 % 2 ^ 4 :=
    toNat_field (by decide) rfl
  have isByte : ((lba >>> 24) &&& 0x0F).toUInt8 = UInt8.ofNat (lba.toNat / 2 ^ 24 % 16) := by
    rw [← UInt8.toNat_inj, UInt32.toNat_toUInt8, last]
    rfl
  rw [headOf, isByte]

/-- The sector number in the four registers. -/
theorem address_numbered {lba count : UInt32} (head : drive.head = headOf lba) :
    (drive.numbered lba count).address = lba.toNat % 2 ^ 28 := by
  have bound := lba.toNat_lt
  have nibble : ∀ n < 16, ((0xE0 ||| UInt8.ofNat n) &&& 0x0F).toNat = n := by decide
  have low : (lba &&& 0xFF).toUInt8.toNat = lba.toNat % 2 ^ 8 := by
    rw [UInt32.toNat_toUInt8, UInt32.toNat_and, show (0xFF : UInt32).toNat = 2 ^ 8 - 1 from rfl,
      Nat.and_two_pow_sub_one_eq_mod, Nat.mod_mod]
  have field : ∀ shift : UInt32, shift.toNat < 32 → ((lba >>> shift) &&& 0xFF).toUInt8.toNat =
      lba.toNat / 2 ^ shift.toNat % 2 ^ 8 := by
    intro shift small
    rw [UInt32.toNat_toUInt8, toNat_field small (show (0xFF : UInt32).toNat = 2 ^ 8 - 1 from rfl),
      Nat.mod_mod]
  have isHead : (headOf lba &&& 0x0F).toNat = lba.toNat / 2 ^ 24 % 16 := by
    rw [headOf_eq]
    exact nibble _ (Nat.mod_lt _ (by decide))
  unfold Drive.address Drive.numbered
  dsimp only
  rw [head, isHead, low, field 8 (by decide), field 16 (by decide)]
  change _ * 2 ^ 24 + lba.toNat / 2 ^ 16 % 2 ^ 8 * 2 ^ 16 + lba.toNat / 2 ^ 8 % 2 ^ 8 * 2 ^ 8 +
    lba.toNat % 2 ^ 8 = _
  omega

/-- The bit that names sectors by their numbers. -/
theorem headOf_lba (lba : UInt32) : headOf lba &&& 0x40 ≠ 0 := by
  have nibble : ∀ n < 16, ((0xE0 : UInt8) ||| UInt8.ofNat n) &&& 0x40 ≠ 0 := by decide
  rw [headOf_eq]
  exact nibble _ (Nat.mod_lt _ (by decide))

theorem sectors_numbered {lba count : UInt32} (positive : count ≠ 0) (small : count.toNat ≤ 255) :
    (drive.numbered lba count).sectors = count.toNat := by
  have isByte : count.toUInt8.toNat = count.toNat := by
    rw [UInt32.toNat_toUInt8]
    omega
  unfold Drive.sectors Drive.numbered
  dsimp only
  rw [if_neg, isByte]
  intro isZero
  rw [isZero] at isByte
  exact positive (UInt32.toNat_inj.mp isByte.symm)

/-- The drive after `ata_prepare` and `ata_setup`. -/
def Drive.commanded (drive : Drive) (lba count : UInt32) : Drive :=
  { drive with busy := 0, head := headOf lba }.numbered lba count

theorem commanded_command {lba count : UInt32} {byte : UInt8} {phase : Phase}
    (quiet : Quiet drive) (positive : count ≠ 0) (small : count.toNat ≤ 255)
    (isTransfer : byte = ataCmdRead ∧ phase = .reading (lba.toNat % 2 ^ 28) count.toNat 0 ∨
      byte = ataCmdWrite ∧ phase = .writing (lba.toNat % 2 ^ 28) count.toNat []) :
    (drive.commanded lba count).command byte = (drive.commanded lba count).begin phase := by
  have address : (drive.commanded lba count).address = lba.toNat % 2 ^ 28 :=
    address_numbered rfl
  have sectors : (drive.commanded lba count).sectors = count.toNat :=
    sectors_numbered positive small
  have ready : ¬(0 < (drive.commanded lba count).busy ∨
      (drive.commanded lba count).phase.offers = true) := by
    rintro (busy | offers)
    · exact Nat.lt_irrefl 0 busy
    · rw [show (drive.commanded lba count).phase = drive.phase from rfl, quiet.offers] at offers
      cases offers
  have isLba : ¬(drive.commanded lba count).head &&& 0x40 = 0 := headOf_lba lba
  unfold Drive.command
  rw [if_neg ready]
  rcases isTransfer with ⟨rfl, rfl⟩ | ⟨rfl, rfl⟩
  · rw [if_neg (by decide), if_neg (by decide), if_neg isLba, if_pos (by decide), address,
      sectors]
  · rw [if_neg (by decide), if_neg (by decide), if_neg isLba, if_neg (by decide),
      if_pos (by decide), address, sectors]

/-- The start of a transfer. -/
theorem start_spec {lba count : UInt32} {byte : UInt8} {phase : Phase} {α : Type}
    {next : PortM α} {returned : α → Bus → Prop} {failed : Unit → Bus → Prop}
    (quiet : Quiet s.drive) (positive : count ≠ 0) (small : count.toNat ≤ 255)
    (isTransfer : byte = ataCmdRead ∧ phase = .reading (lba.toNat % 2 ^ 28) count.toNat 0 ∨
      byte = ataCmdWrite ∧ phase = .writing (lba.toNat % 2 ^ 28) count.toNat [])
    (rest : ∀ s', Intact s s' → InPhase phase s'.drive → Meets next s' returned failed)
    (onError : ∀ s', Intact s s' → failed () s') :
    Meets (do
      ataPrepare lba
      ataSetup lba count byte
      next) s returned failed := by
  refine (ataPrepare_spec lba quiet).seq ?_ fun _ s' => onError s'
  rintro _ s1 rfl
  refine .bind (.of_ok (ataSetup_run lba count byte rfl) ?_)
  have begins := commanded_command quiet positive small isTransfer
  change Meets next { s with drive := (s.drive.commanded lba count).command byte } _ _
  rw [begins]
  exact rest _ ⟨rfl, rfl, rfl⟩ (begin_inPhase _ _)

/-! ## Words -/

theorem word_bytes (low high : UInt8) :
    (low.toUInt16 ||| high.toUInt16 <<< 8).toNat = low.toNat + 256 * high.toNat := by
  have isLow := low.toNat_lt
  have isHigh := high.toNat_lt
  have shifted : (high.toUInt16 <<< (8 : UInt16)).toNat = high.toNat <<< 8 := by
    rw [UInt16.toNat_shiftLeft, UInt8.toNat_toUInt16]
    change high.toNat <<< 8 % 2 ^ 16 = _
    rw [Nat.shiftLeft_eq]
    omega
  rw [UInt16.toNat_or, shifted, UInt8.toNat_toUInt16, Nat.or_comm,
    ← Nat.shiftLeft_add_eq_or_of_lt isLow, Nat.shiftLeft_eq]
  omega

theorem low_byte {word : UInt16} {low high : UInt8}
    (isWord : word.toNat = low.toNat + 256 * high.toNat) : word.toUInt8 = low := by
  rw [← UInt8.toNat_inj, UInt16.toNat_toUInt8, isWord]
  have isLow := low.toNat_lt
  omega

theorem high_byte {word : UInt16} {low high : UInt8}
    (isWord : word.toNat = low.toNat + 256 * high.toNat) : (word >>> 8).toUInt8 = high := by
  rw [← UInt8.toNat_inj, UInt16.toNat_toUInt8, UInt16.toNat_shiftRight, isWord]
  change (low.toNat + 256 * high.toNat) >>> 8 % 2 ^ 8 = _
  rw [Nat.shiftRight_eq_div_pow]
  have isLow := low.toNat_lt
  have isHigh := high.toNat_lt
  omega

theorem mask_byte (word : UInt16) : (word &&& 0xFF).toUInt8 = word.toUInt8 := by
  rw [← UInt8.toNat_inj, UInt16.toNat_toUInt8, UInt16.toNat_toUInt8, UInt16.toNat_and,
    show (0xFF : UInt16).toNat = 2 ^ 8 - 1 from rfl, Nat.and_two_pow_sub_one_eq_mod, Nat.mod_mod]

/-- The words of a sector of the buffer are the bytes of the sector. -/
theorem contentsOf_words (buffer : Nat → UInt8) (i : Nat) :
    Drive.contentsOf ((List.range 256).map (wordAt buffer i)) = sectorAt buffer i := by
  funext k
  have small : k.val / 2 < 256 := by omega
  have isWord : ((List.range 256).map (wordAt buffer i)).getD (k.val / 2) 0 =
      wordAt buffer i (k.val / 2) := by
    rw [List.getD_eq_getElem?_getD, List.getElem?_map, List.getElem?_range small]
    rfl
  generalize (List.range 256).map (wordAt buffer i) = words at *
  have bytes := word_bytes (buffer (i * 512 + k.val / 2 * 2)) (buffer (i * 512 + k.val / 2 * 2 + 1))
  unfold Drive.contentsOf sectorAt
  dsimp only
  rw [isWord, wordAt]
  split
  · rw [low_byte bytes]
    exact congrArg buffer (by omega)
  · rw [high_byte bytes]
    exact congrArg buffer (by omega)

/-- The words of a sector are sent. -/
theorem sendWords_run {lba left i : Nat} {buffer : Nat → UInt8} :
    ∀ {rounds j : Nat} {s : Bus}, 0 < rounds → j + rounds = 256 →
      s.drive.phase = .writing lba left ((List.range j).map (wordAt buffer i)) →
      sendWords buffer i rounds j s =
        .ok () { s with
          drive := s.drive.store lba left ((List.range 256).map (wordAt buffer i)) } := by
  intro rounds
  induction rounds with
  | zero => exact fun impossible => absurd impossible (Nat.lt_irrefl 0)
  | succ rounds ih =>
      intro j s _ isTotal phase
      have next : (List.range j).map (wordAt buffer i) ++ [wordAt buffer i j] =
          (List.range (j + 1)).map (wordAt buffer i) := by
        rw [List.range_succ, List.map_append]
        rfl
      have length : ((List.range (j + 1)).map (wordAt buffer i)).length = j + 1 := by
        rw [List.length_map, List.length_range]
      change sendWords buffer i rounds (j + 1)
        { s with drive := s.drive.give (wordAt buffer i j) } = _
      have gives : s.drive.give (wordAt buffer i j) =
          if j + 1 < 256 then
            { s.drive with
              phase := .writing lba left ((List.range (j + 1)).map (wordAt buffer i)) }
          else s.drive.store lba left ((List.range (j + 1)).map (wordAt buffer i)) := by
        unfold Drive.give
        rw [phase]
        dsimp only
        rw [next, length]
      rw [gives]
      by_cases isLast : rounds = 0
      · subst isLast
        rw [if_neg (by omega), isTotal]
        rfl
      · rw [if_pos (by omega), ih (by omega) (by omega) rfl]
        unfold Drive.store Drive.begin
        split <;> rfl

theorem sendSector_run {lba left i : Nat} {buffer : Nat → UInt8}
    (phase : s.drive.phase = .writing lba left []) :
    sendWords buffer i 256 0 s = .ok () { s with
      drive := s.drive.store lba left ((List.range 256).map (wordAt buffer i)) } :=
  sendWords_run (by decide) (by decide) phase

/-! ## Writing -/

/-- The sectors with those of a buffer from `first` to `last` in their places. -/
def written (buffer : Nat → UInt8) (lba first last : Nat) (cached : Nat → Contents) :
    Nat → Contents := fun sector =>
  if lba + first ≤ sector ∧ sector < lba + last then sectorAt buffer (sector - lba)
  else cached sector

/-- A part of a write: every sector is as before, or is that of the buffer. -/
structure Partly (buffer : Nat → UInt8) (lba count : Nat) (s s' : Bus) : Prop where
  cached : ∀ sector, s'.drive.cached sector = s.drive.cached sector ∨
    s'.drive.cached sector = written buffer lba 0 count s.drive.cached sector
  media : s'.drive.media = s.drive.media
  buffer : s'.buffer = s.buffer

theorem Intact.partly {buffer : Nat → UInt8} {lba count : Nat} (intact : Intact s s') :
    Partly buffer lba count s s' :=
  ⟨fun sector => Or.inl (congrFun intact.cached sector), intact.media, intact.buffer⟩

/-- A write over a part of itself. -/
theorem written_partly {buffer : Nat → UInt8} {lba count : Nat} {cached cached' : Nat → Contents}
    (partly : ∀ sector, cached' sector = cached sector ∨
      cached' sector = written buffer lba 0 count cached sector) :
    written buffer lba 0 count cached' = written buffer lba 0 count cached := by
  funext sector
  unfold written at *
  by_cases inside : lba + 0 ≤ sector ∧ sector < lba + count
  · rw [if_pos inside, if_pos inside]
  · have same := partly sector
    rw [if_neg inside, or_self] at same
    rw [if_neg inside, if_neg inside, same]

theorem Partly.trans {buffer : Nat → UInt8} {lba count : Nat} {s'' : Bus}
    (first : Partly buffer lba count s s') (second : Partly buffer lba count s' s'') :
    Partly buffer lba count s s'' := by
  refine ⟨fun sector => ?_, second.media.trans first.media, second.buffer.trans first.buffer⟩
  rcases second.cached sector with same | new
  · rw [same]
    exact first.cached sector
  · right
    rw [new, written_partly first.cached]

/-- The phase in which a sector of a write is awaited. -/
def awaiting (lba : Nat) : (rounds : Nat) → Phase
  | 0 => .idle
  | rounds + 1 => .writing lba (rounds + 1) []

theorem awaiting_ne (lba rounds : Nat) : awaiting lba rounds ≠ .flushing := by
  cases rounds <;> nofun

theorem InPhase.ne_flushing {phase : Phase} (inPhase : InPhase phase drive)
    (other : phase ≠ .flushing) : drive.phase ≠ .flushing := by
  intro flushing
  rw [InPhase, flushing] at inPhase
  rcases inPhase with impossible | same
  · cases impossible
  · exact other same.symm

/-- The sectors that a loop of a write has sent when it ends. -/
structure Sent (buffer : Nat → UInt8) (lba first last : Nat) (s s' : Bus) : Prop where
  cached : s'.drive.cached = written buffer lba first last s.drive.cached
  media : s'.drive.media = s.drive.media
  buffer : s'.buffer = s.buffer

theorem store_inPhase (drive : Drive) (lba rounds : Nat) (words : List UInt16) :
    InPhase (awaiting (lba + 1) rounds) (drive.store lba (rounds + 1) words) := by
  unfold Drive.store
  dsimp only
  cases rounds with
  | zero => exact begin_inPhase _ _
  | succ rounds =>
      rw [if_pos (by omega)]
      exact begin_inPhase _ _

theorem store_sectors (drive : Drive) (lba left : Nat) (words : List UInt16) :
    (drive.store lba left words).cached =
        Function.update drive.cached lba (Drive.contentsOf words) ∧
      (drive.store lba left words).media = drive.media := by
  unfold Drive.store
  dsimp only
  split
  · exact ⟨rfl, rfl⟩
  · exact ⟨rfl, rfl⟩

theorem written_last {buffer : Nat → UInt8} {lba i : Nat} {cached : Nat → Contents} :
    Function.update (written buffer lba 0 i cached) (lba + i) (sectorAt buffer i) =
      written buffer lba 0 (i + 1) cached := by
  funext sector
  unfold written
  by_cases isLast : sector = lba + i
  · subst isLast
    rw [Function.update_self, if_pos (by omega), Nat.add_sub_cancel_left]
  · rw [Function.update_of_ne isLast]
    by_cases inside : lba + 0 ≤ sector ∧ sector < lba + i
    · rw [if_pos inside, if_pos (by omega)]
    · rw [if_neg inside, if_neg (by omega)]

theorem sendLoop_spec {buffer : Nat → UInt8} {lba last : Nat} {start : Bus} :
    ∀ {rounds i : Nat} {s : Bus}, i + rounds = last →
      InPhase (awaiting (lba + i) rounds) s.drive → Sent buffer lba 0 i start s →
      Meets (sendLoop buffer rounds i) s
        (fun _ s' => InPhase .idle s'.drive ∧ Sent buffer lba 0 last start s')
        fun _ s' => Partly buffer lba last start s' := by
  intro rounds
  induction rounds with
  | zero =>
      rintro i s rfl inPhase sent
      exact .pure ⟨inPhase, sent⟩
  | succ rounds ih =>
      intro i s isTotal inPhase sent
      have partly : Partly buffer lba last start s := by
        refine ⟨fun sector => ?_, sent.media, sent.buffer⟩
        rw [sent.cached]
        unfold written
        by_cases inside : lba + 0 ≤ sector ∧ sector < lba + i
        · rw [if_pos inside, if_pos (by omega)]
          exact Or.inr rfl
        · rw [if_neg inside]
          exact Or.inl rfl
      refine (ataWaitDrq_spec s).seq ?_ fun _ s1 polled =>
        partly.trans (polled.intact (inPhase.ne_flushing (awaiting_ne _ _))).partly
      · intro _ s1 waited
        have polled := waited.1
        have offers := waited.2
        have notFlushing := inPhase.ne_flushing (awaiting_ne _ _)
        have same := polled.of_not_flushing notFlushing
        have phase : s1.drive.phase = .writing (lba + i) (rounds + 1) [] := by
          rw [same] at offers ⊢
          change s.drive.phase.offers = true at offers
          change s.drive.phase = _
          rcases inPhase with failed | phase
          · rw [failed] at offers
            cases offers
          · exact phase
        have intact := polled.intact notFlushing
        have sends := @sendSector_run _ _ _ i buffer phase
        have contents := contentsOf_words buffer i
        generalize (List.range 256).map (wordAt buffer i) = words at sends contents
        have stored := store_sectors s1.drive (lba + i) (rounds + 1) words
        have next := store_inPhase s1.drive (lba + i) rounds words
        refine Meets.bind ?_
        unfold Meets
        rw [sends]
        refine Meets.bind (Meets.of_ok (pause_run 4 _) ?_)
        refine ih (by omega) next ⟨?_, ?_, ?_⟩
        · rw [stored.1, contents, intact.cached, sent.cached]
          exact written_last
        · rw [stored.2, intact.media, sent.media]
        · exact intact.buffer.trans sent.buffer

/-- A write is done: it is in the cache and on the medium. -/
structure Done (buffer : Nat → UInt8) (lba count : Nat) (s s' : Bus) : Prop where
  cached : s'.drive.cached = written buffer lba 0 count s.drive.cached
  media : s'.drive.media = s'.drive.cached
  buffer : s'.buffer = s.buffer
  quiet : Quiet s'.drive

theorem Sent.partly {buffer : Nat → UInt8} {lba count : Nat}
    (sent : Sent buffer lba 0 count s s') : Partly buffer lba count s s' :=
  ⟨fun sector => Or.inr (congrFun sent.cached sector), sent.media, sent.buffer⟩

/-- The command that makes the drive write its cache to the medium. -/
theorem flush_run (ready : s.drive.busy = 0) (idle : s.drive.phase = .idle) :
    outb ataCommand ataCmdFlush s = .ok () { s with drive := s.drive.begin .flushing } := by
  have isOutput : s.drive.output ataCommand ataCmdFlush = s.drive.begin .flushing := by
    simp [Drive.output, Drive.command, ready, idle, Phase.offers, ataControl, ataSeccount,
      ataLbaLow, ataLbaMid, ataLbaHigh, ataDriveHead, ataCommand, ataCmdFlush]
  rw [← isOutput]
  rfl

/-- The end of a flush. -/
theorem Polled.flushed (polled : Polled s s') (inPhase : InPhase .flushing s.drive)
    (idle : s'.drive.phase = .idle) :
    s'.drive.media = s.drive.cached ∧ s'.drive.cached = s.drive.cached := by
  constructor
  · rcases polled.phase with ⟨phase, -⟩ | ⟨-, -, media⟩
    · rw [idle] at phase
      rcases inPhase with failed | flushing
      · rw [failed] at phase
        cases phase
      · rw [flushing] at phase
        cases phase
    · exact media
  · rw [polled.rest]

theorem ataWriteOnce_spec {lba count : UInt32} {buffer : Nat → UInt8} (quiet : Quiet s.drive)
    (positive : count ≠ 0) (small : count.toNat ≤ 255) :
    Meets (ataWriteOnce lba count buffer) s
      (fun _ s' => Done buffer (lba.toNat % 2 ^ 28) count.toNat s s')
      fun _ s' => Partly buffer (lba.toNat % 2 ^ 28) count.toNat s s' := by
  have rounds : count.toNat ≠ 0 := fun isZero => positive (UInt32.toNat_inj.mp isZero)
  refine start_spec quiet positive small (Or.inr ⟨rfl, rfl⟩) ?_ fun s' intact => intact.partly
  intro s1 intact inPhase
  rw [← Nat.succ_pred_eq_of_ne_zero rounds] at inPhase
  have sent : Sent buffer (lba.toNat % 2 ^ 28) 0 0 s s1 := by
    refine ⟨?_, intact.media, intact.buffer⟩
    rw [intact.cached]
    funext sector
    unfold written
    rw [if_neg (by omega)]
  refine (sendLoop_spec (Nat.zero_add count.toNat) ?_ sent).seq ?_ fun _ s' partly => partly
  · rw [Nat.add_zero, ← Nat.succ_pred_eq_of_ne_zero rounds]
    exact inPhase
  rintro _ s2 ⟨inPhase, sent⟩
  have notFlushing := inPhase.ne_flushing nofun
  refine (ataFinish_spec s2).seq ?_ fun _ s3 polled =>
    sent.partly.trans (polled.intact notFlushing).partly
  rintro _ s3 ⟨polled, ready, idle⟩
  have same := polled.intact notFlushing
  have partly := sent.partly.trans same.partly
  refine .bind (.of_ok (flush_run ready idle) (.bind (.of_ok (pause_run 4 _) ?_)))
  have begun := begin_inPhase s3.drive .flushing
  refine ((ataFinish_spec _).and (ataFinish_media _)).mono ?_ ?_
  · rintro _ s4 ⟨⟨polled, -, idle⟩, -⟩
    rcases polled.flushed begun idle with ⟨media, cached⟩
    refine ⟨?_, ?_, ?_, Or.inl idle⟩
    · rw [cached]
      exact same.cached.trans sent.cached
    · rw [media, cached]
    · exact polled.buffer.trans (same.buffer.trans sent.buffer)
  · rintro _ s4 ⟨polled, media⟩
    refine partly.trans ⟨fun sector => Or.inl ?_, media, polled.buffer⟩
    rw [polled.rest]
    rfl

/-! ## Retries -/

/-- A reset ends what the drive does. -/
theorem ataReset_spec (s : Bus) :
    Meets ataReset s (fun _ s' => Intact s s' ∧ Quiet s'.drive) fun _ _ => False := by
  have resets : outb ataControl ataCtrlSrst s =
      .ok () { s with drive := s.drive.control ataCtrlSrst } := rfl
  have ends : outb ataControl 0 { s with drive := s.drive.control ataCtrlSrst } =
      .ok () { s with drive := s.drive.control ataCtrlSrst } := rfl
  refine .bind (.of_ok resets (.bind (.of_ok (pause_run 64 _) ?_)))
  refine .bind (.of_ok ends (.bind (.of_ok (pause_run 10000 _) ?_)))
  have quiet : Quiet (s.drive.control ataCtrlSrst) := Or.inl rfl
  have intact : ∀ s', Polled { s with drive := s.drive.control ataCtrlSrst } s' →
      Intact s s' ∧ Quiet s'.drive := by
    intro s' polled
    rcases polled.intact quiet.ne_flushing with ⟨cached, media, buffer⟩
    refine ⟨⟨cached, media, buffer⟩, ?_⟩
    rw [polled.of_not_flushing quiet.ne_flushing]
    exact quiet
  refine .bind (.attempt ((ataWaitBsy_spec _).mono ?_ ?_))
  · exact fun _ s' waited => .pure (intact s' waited.1)
  · exact fun _ s' polled => .pure (intact s' polled)

theorem retry_spec {once : PortM Unit} (Good Bad : Bus → Bus → Prop)
    (run : ∀ s, Quiet s.drive → Meets once s (fun _ s' => Good s s') fun _ s' => Bad s s')
    (reset : ∀ {s s' s''}, Bad s s' → Intact s' s'' → Bad s s'')
    (good : ∀ {s s' s''}, Bad s s' → Good s' s'' → Good s s'')
    (bad : ∀ {s s' s''}, Bad s s' → Bad s' s'' → Bad s s'')
    (refl : ∀ s, Bad s s) (attempts : Nat) (quiet : Quiet s.drive) :
    Meets (retry once attempts) s (fun _ s' => Good s s')
      fun _ s' => Bad s s' ∧ Quiet s'.drive := by
  induction attempts generalizing s with
  | zero => exact .throw ⟨refl s, quiet⟩
  | succ attempts ih =>
      refine .bind (.attempt ((run s quiet).mono ?_ ?_))
      · exact fun _ s' works => .pure works
      · intro _ s1 fails
        refine (ataReset_spec s1).seq ?_ fun _ _ impossible => absurd impossible id
        rintro _ s2 ⟨intact, quiet⟩
        have before := reset fails intact
        exact (ih quiet).mono (fun _ s3 works => good before works)
          fun _ s3 later => ⟨bad before later.1, later.2⟩

/-- When `ata_write_sectors` returns success, the sectors of the buffer are in their places, also
on the medium, and no other sector has changed. When it fails, every sector is as before or
has the data of the buffer, and the medium is as before. -/
theorem ataWriteSectors_spec (lba count : UInt32) (buffer : Nat → UInt8)
    (quiet : Quiet s.drive) :
    Meets (ataWriteSectors lba count buffer) s
      (fun _ s' => Done buffer (lba.toNat % 2 ^ 28) count.toNat s s')
      fun _ s' => Partly buffer (lba.toNat % 2 ^ 28) count.toNat s s' ∧ Quiet s'.drive := by
  refine .ite (fun _ => .throw ⟨(Intact.refl s).partly, quiet⟩) fun inside => ?_
  simp only [not_or, UInt32.not_lt] at inside
  have small : count.toNat ≤ 255 := UInt32.le_iff_toNat_le.mp inside.2
  refine retry_spec (Done buffer (lba.toNat % 2 ^ 28) count.toNat)
    (Partly buffer (lba.toNat % 2 ^ 28) count.toNat)
    (fun s quiet => ataWriteOnce_spec quiet inside.1 small)
    (fun fails intact => fails.trans intact.partly) ?_ Partly.trans
    (fun s => (Intact.refl s).partly) ataRetries quiet
  intro s s' s'' fails works
  exact ⟨works.cached.trans (written_partly fails.cached), works.media,
    works.buffer.trans fails.buffer, works.quiet⟩

/-! ## Reading -/

/-- The buffer with the bytes of a sector from the word `j` on. -/
def received (contents : Contents) (i j : Nat) (buffer : Nat → UInt8) : Nat → UInt8 :=
  fun index =>
    if inside : i * 512 + j * 2 ≤ index ∧ index < i * 512 + 512 then
      contents ⟨index - i * 512, by omega⟩
    else buffer index

theorem wordOf_bytes {contents : Contents} {j : Nat} (small : j < 256) :
    (Drive.wordOf contents j).toNat = (contents ⟨2 * j, by omega⟩).toNat +
      256 * (contents ⟨2 * j + 1, by omega⟩).toNat := by
  unfold Drive.wordOf
  rw [dif_pos (by omega), UInt16.toNat_ofNat_of_lt']
  have low := (contents ⟨2 * j, by omega⟩).toNat_lt
  have high := (contents ⟨2 * j + 1, by omega⟩).toNat_lt
  change _ < 65536
  omega

/-- The two bytes of a word in the buffer. -/
theorem received_word {contents : Contents} {i j : Nat} {buffer : Nat → UInt8} (small : j < 256) :
    received contents i (j + 1)
      (Function.update
        (Function.update buffer (i * 512 + j * 2) (Drive.wordOf contents j &&& 0xFF).toUInt8)
        (i * 512 + j * 2 + 1) ((Drive.wordOf contents j >>> 8) &&& 0xFF).toUInt8) =
      received contents i j buffer := by
  have bytes := @wordOf_bytes contents _ small
  rw [mask_byte, mask_byte, low_byte bytes, high_byte bytes]
  funext index
  unfold received
  by_cases isLow : index = i * 512 + j * 2
  · subst isLow
    rw [dif_neg (by omega), Function.update_of_ne (by omega), Function.update_self,
      dif_pos (by omega)]
    exact congrArg contents (Fin.ext (by simp only; omega))
  · by_cases isHigh : index = i * 512 + j * 2 + 1
    · subst isHigh
      rw [dif_neg (by omega), Function.update_self, dif_pos (by omega)]
      exact congrArg contents (Fin.ext (by simp only; omega))
    · rw [Function.update_of_ne isHigh, Function.update_of_ne isLow]
      by_cases inside : i * 512 + j * 2 ≤ index ∧ index < i * 512 + 512
      · rw [dif_pos (by omega), dif_pos inside]
      · rw [dif_neg (by omega), dif_neg inside]

theorem received_all {contents : Contents} {i : Nat} {buffer : Nat → UInt8} :
    received contents i 256 buffer = buffer := by
  funext index
  exact dif_neg (by omega)

/-- The words of a sector are taken. -/
theorem receiveWords_run {lba left i : Nat} :
    ∀ {rounds j : Nat} {s : Bus}, 0 < rounds → j + rounds = 256 →
      s.drive.phase = .reading lba left j →
      receiveWords i rounds j s = .ok ()
        { drive := s.drive.offerNext lba left
          buffer := received (s.drive.cached lba) i j s.buffer } := by
  intro rounds
  induction rounds with
  | zero => exact fun impossible => absurd impossible (Nat.lt_irrefl 0)
  | succ rounds ih =>
      intro j s _ isTotal phase
      have taken : s.drive.take = (Drive.wordOf (s.drive.cached lba) j,
          if j + 1 < 256 then { s.drive with phase := .reading lba left (j + 1) }
          else s.drive.offerNext lba left) := by
        unfold Drive.take
        rw [phase]
      change receiveWords i rounds (j + 1)
        { drive := s.drive.take.2
          buffer := Function.update
            (Function.update s.buffer (i * 512 + j * 2) (s.drive.take.1 &&& 0xFF).toUInt8)
            (i * 512 + j * 2 + 1) ((s.drive.take.1 >>> 8) &&& 0xFF).toUInt8 } = _
      rw [taken, ← received_word (by omega)]
      by_cases isLast : rounds = 0
      · subst isLast
        have isEnd : j + 1 = 256 := isTotal
        rw [if_neg (by omega), isEnd, received_all]
        rfl
      · rw [if_pos (by omega), ih (by omega) (by omega) rfl]
        unfold Drive.offerNext Drive.begin
        split <;> rfl

theorem receiveSector_run {lba left i : Nat} (phase : s.drive.phase = .reading lba left 0) :
    receiveWords i 256 0 s = .ok ()
      { drive := s.drive.offerNext lba left
        buffer := received (s.drive.cached lba) i 0 s.buffer } :=
  receiveWords_run (by decide) (by decide) phase

/-- The phase in which a sector of a read is offered. -/
def offering (lba : Nat) : (rounds : Nat) → Phase
  | 0 => .idle
  | rounds + 1 => .reading lba (rounds + 1) 0

theorem offering_ne (lba rounds : Nat) : offering lba rounds ≠ .flushing := by
  cases rounds <;> nofun

theorem offerNext_inPhase (drive : Drive) (lba rounds : Nat) :
    InPhase (offering (lba + 1) rounds) (drive.offerNext lba (rounds + 1)) := by
  unfold Drive.offerNext
  cases rounds with
  | zero => exact begin_inPhase _ _
  | succ rounds =>
      rw [if_pos (by omega)]
      exact begin_inPhase _ _

theorem offerNext_sectors (drive : Drive) (lba left : Nat) :
    (drive.offerNext lba left).cached = drive.cached ∧
      (drive.offerNext lba left).media = drive.media := by
  unfold Drive.offerNext
  split
  · exact ⟨rfl, rfl⟩
  · exact ⟨rfl, rfl⟩

/-- The buffer with some of the sectors of the drive. -/
def readInto (cached : Nat → Contents) (lba count : Nat) (buffer : Nat → UInt8) : Nat → UInt8 :=
  fun index =>
    if index < count * 512 then
      cached (lba + index / 512) ⟨index % 512, Nat.mod_lt _ (by decide)⟩
    else buffer index

theorem received_readInto {cached : Nat → Contents} {lba i : Nat} {buffer : Nat → UInt8} :
    received (cached (lba + i)) i 0 (readInto cached lba i buffer) =
      readInto cached lba (i + 1) buffer := by
  funext index
  unfold received readInto
  by_cases inside : i * 512 + 0 * 2 ≤ index ∧ index < i * 512 + 512
  · have isSector : index / 512 = i := by omega
    rw [dif_pos inside, if_pos (by omega), isSector]
    exact congrArg (cached (lba + i)) (Fin.ext (by simp only; omega))
  · rw [dif_neg inside]
    have same : index < (i + 1) * 512 ↔ index < i * 512 := by omega
    simp only [same]

/-- The sectors of the drive up to `count` are in the buffer. -/
structure Got (lba count : Nat) (s s' : Bus) : Prop where
  cached : s'.drive.cached = s.drive.cached
  media : s'.drive.media = s.drive.media
  buffer : s'.buffer = readInto s.drive.cached lba count s.buffer

/-- At most the front of the buffer has changed. -/
structure Scratched (count : Nat) (s s' : Bus) : Prop where
  cached : s'.drive.cached = s.drive.cached
  media : s'.drive.media = s.drive.media
  buffer : ∀ index, count * 512 ≤ index → s'.buffer index = s.buffer index

theorem Intact.scratched {count : Nat} (intact : Intact s s') : Scratched count s s' :=
  ⟨intact.cached, intact.media, fun index _ => congrFun intact.buffer index⟩

theorem Scratched.trans {count : Nat} {s'' : Bus} (first : Scratched count s s')
    (second : Scratched count s' s'') : Scratched count s s'' :=
  ⟨second.cached.trans first.cached, second.media.trans first.media,
    fun index outside => (second.buffer index outside).trans (first.buffer index outside)⟩

theorem Got.scratched {lba i count : Nat} (got : Got lba i s s') (less : i ≤ count) :
    Scratched count s s' := by
  refine ⟨got.cached, got.media, fun index outside => ?_⟩
  rw [got.buffer]
  exact if_neg (by omega)

theorem receiveLoop_spec {lba last : Nat} {start : Bus} :
    ∀ {rounds i : Nat} {s : Bus}, i + rounds = last →
      InPhase (offering (lba + i) rounds) s.drive → Got lba i start s →
      Meets (receiveLoop rounds i) s
        (fun _ s' => InPhase .idle s'.drive ∧ Got lba last start s')
        fun _ s' => Scratched last start s' := by
  intro rounds
  induction rounds with
  | zero =>
      rintro i s rfl inPhase got
      exact .pure ⟨inPhase, got⟩
  | succ rounds ih =>
      intro i s isTotal inPhase got
      refine (ataWaitDrq_spec s).seq ?_ fun _ s1 polled =>
        (got.scratched (by omega)).trans
          (polled.intact (inPhase.ne_flushing (offering_ne _ _))).scratched
      intro _ s1 waited
      have polled := waited.1
      have offers := waited.2
      have notFlushing := inPhase.ne_flushing (offering_ne _ _)
      have same := polled.of_not_flushing notFlushing
      have phase : s1.drive.phase = .reading (lba + i) (rounds + 1) 0 := by
        rw [same] at offers ⊢
        change s.drive.phase.offers = true at offers
        change s.drive.phase = _
        rcases inPhase with failed | phase
        · rw [failed] at offers
          cases offers
        · exact phase
      have intact := polled.intact notFlushing
      have receives := receiveSector_run (i := i) phase
      have sectors := offerNext_sectors s1.drive (lba + i) (rounds + 1)
      have next := offerNext_inPhase s1.drive (lba + i) rounds
      refine Meets.bind ?_
      unfold Meets
      rw [receives]
      refine Meets.bind (Meets.of_ok (pause_run 4 _) ?_)
      refine ih (by omega) next ⟨?_, ?_, ?_⟩
      · rw [sectors.1, intact.cached, got.cached]
      · rw [sectors.2, intact.media, got.media]
      · rw [intact.cached, intact.buffer, got.cached, got.buffer]
        exact received_readInto

theorem ataReadOnce_spec {lba count : UInt32} (quiet : Quiet s.drive) (positive : count ≠ 0)
    (small : count.toNat ≤ 255) :
    Meets (ataReadOnce lba count) s
      (fun _ s' => Got (lba.toNat % 2 ^ 28) count.toNat s s' ∧ Quiet s'.drive)
      fun _ s' => Scratched count.toNat s s' := by
  have rounds : count.toNat ≠ 0 := fun isZero => positive (UInt32.toNat_inj.mp isZero)
  refine start_spec quiet positive small (Or.inl ⟨rfl, rfl⟩) ?_ fun s' intact =>
    intact.scratched
  intro s1 intact inPhase
  rw [← Nat.succ_pred_eq_of_ne_zero rounds] at inPhase
  have got : Got (lba.toNat % 2 ^ 28) 0 s s1 := by
    refine ⟨intact.cached, intact.media, ?_⟩
    rw [intact.buffer]
    funext index
    exact (if_neg (by omega)).symm
  refine (receiveLoop_spec (Nat.zero_add count.toNat) ?_ got).seq ?_ fun _ s' scratched =>
    scratched
  · rw [Nat.add_zero, ← Nat.succ_pred_eq_of_ne_zero rounds]
    exact inPhase
  rintro _ s2 ⟨inPhase, got⟩
  have notFlushing := inPhase.ne_flushing nofun
  refine (ataFinish_spec s2).mono ?_ fun _ s3 polled =>
    (got.scratched (Nat.le_refl _)).trans (polled.intact notFlushing).scratched
  rintro _ s3 ⟨polled, -, idle⟩
  have same := polled.intact notFlushing
  exact ⟨⟨same.cached.trans got.cached, same.media.trans got.media,
    same.buffer.trans got.buffer⟩, Or.inl idle⟩

/-- When `ata_read_sectors` returns success, the front of the buffer is what the drive has in
the sectors. Neither a sector nor the rest of the buffer changes either way. -/
theorem ataReadSectors_spec (lba count : UInt32) (quiet : Quiet s.drive) :
    Meets (ataReadSectors lba count) s
      (fun _ s' => Got (lba.toNat % 2 ^ 28) count.toNat s s' ∧ Quiet s'.drive)
      fun _ s' => Scratched count.toNat s s' ∧ Quiet s'.drive := by
  refine .ite (fun _ => .throw ⟨(Intact.refl s).scratched, quiet⟩) fun inside => ?_
  simp only [not_or, UInt32.not_lt] at inside
  have small : count.toNat ≤ 255 := UInt32.le_iff_toNat_le.mp inside.2
  refine retry_spec (fun s s' => Got (lba.toNat % 2 ^ 28) count.toNat s s' ∧ Quiet s'.drive)
    (Scratched count.toNat) (fun s quiet => ataReadOnce_spec quiet inside.1 small)
    (fun fails intact => fails.trans intact.scratched) ?_ Scratched.trans
    (fun s => (Intact.refl s).scratched) ataRetries quiet
  rintro s s' s'' fails ⟨got, quiet⟩
  refine ⟨⟨got.cached.trans fails.cached, got.media.trans fails.media, ?_⟩, quiet⟩
  rw [got.buffer, fails.cached]
  funext index
  unfold readInto
  split
  · rfl
  · exact fails.buffer index (by omega)

/-! ## Identification -/

theorem pause_status (rounds : Nat) (s : Bus) :
    Meets (pause ataStatus rounds) s (fun _ s' => Polled s s') fun _ _ => False := by
  induction rounds generalizing s with
  | zero =>
      rw [pause_zero]
      exact .pure (.refl s)
  | succ rounds ih =>
      have read : inb ataStatus s = .ok s.drive.status.1 { s with drive := s.drive.status.2 } :=
        rfl
      rw [pause_succ]
      refine .bind (.of_ok read ?_)
      exact (ih _).mono (fun _ _ later => (status_spec s).1.trans later) fun _ _ => id

/-- The drive has nothing to do, or is about to identify itself. -/
def Calm (drive : Drive) : Prop := Quiet drive ∨ drive.phase = .identifying 0

theorem Calm.ne_flushing (calm : Calm drive) : drive.phase ≠ .flushing := by
  rcases calm with quiet | identifying
  · exact quiet.ne_flushing
  · rw [identifying]
    nofun

/-- Waiting keeps a calm drive so. -/
theorem Polled.calm (polled : Polled s s') (calm : Calm s.drive) :
    Intact s s' ∧ Calm s'.drive := by
  refine ⟨polled.intact calm.ne_flushing, ?_⟩
  rw [polled.of_not_flushing calm.ne_flushing]
  exact calm

/-- A register that names no command. -/
theorem outb_calm {port : Nat} (byte : UInt8) (notControl : port ≠ ataControl)
    (isCommand : port = ataCommand → byte = ataCmdIdentify) (quiet : Quiet s.drive) :
    Meets (outb port byte) s
      (fun _ s' => Intact s s' ∧ Calm s'.drive ∧ (port ≠ ataCommand → Quiet s'.drive))
      fun _ _ => False := by
  refine .modify ?_
  unfold Drive.output
  rw [if_neg notControl]
  have same : ∀ drive : Drive, drive.cached = s.drive.cached → drive.media = s.drive.media →
      drive.phase = s.drive.phase → Intact s { s with drive } ∧ Calm drive ∧
        (port ≠ ataCommand → Quiet drive) := by
    intro drive cached media phase
    have stays : Quiet drive := by
      unfold Quiet
      rw [phase]
      exact quiet
    exact ⟨⟨cached, media, rfl⟩, Or.inl stays, fun _ => stays⟩
  split
  · exact same _ rfl rfl rfl
  split
  · exact same _ rfl rfl rfl
  split
  · exact same _ rfl rfl rfl
  split
  · exact same _ rfl rfl rfl
  split
  · exact same _ rfl rfl rfl
  split
  · exact same _ rfl rfl rfl
  split
  · next notBusy _ _ _ _ _ isPort =>
      rw [isCommand isPort]
      have begins : s.drive.command ataCmdIdentify = s.drive.begin (.identifying 0) := by
        simp [Drive.command, notBusy, quiet.offers, ataCmdIdentify]
      rw [begins]
      refine ⟨⟨rfl, rfl, rfl⟩, ?_, fun other => absurd isPort other⟩
      rcases begin_inPhase s.drive (.identifying 0) with failed | phase
      · exact Or.inl (Or.inr failed)
      · exact Or.inr phase
  · exact same _ rfl rfl rfl

theorem identifyWords_spec {rounds j : Nat} (words : List UInt16) (isTotal : j + rounds = 256)
    (phase : rounds ≠ 0 → s.drive.phase = .identifying j) (done : rounds = 0 → Quiet s.drive) :
    Meets (identifyWords rounds words) s (fun _ s' => Intact s s' ∧ Quiet s'.drive)
      fun _ _ => False := by
  induction rounds generalizing s j words with
  | zero =>
      rw [identifyWords_zero]
      exact .pure ⟨.refl s, done rfl⟩
  | succ rounds ih =>
      rw [identifyWords_succ]
      have isPhase := phase (Nat.succ_ne_zero rounds)
      have read : inwData s = .ok s.drive.take.1 { s with drive := s.drive.take.2 } := rfl
      refine .bind (.of_ok read ?_)
      have next : s.drive.take.2 = if j + 1 < 256 then
          { s.drive with phase := .identifying (j + 1) } else s.drive.begin .idle := by
        unfold Drive.take
        rw [isPhase]
      rw [next]
      split
      · refine (ih (j := j + 1) _ (by omega) (fun _ => rfl) (by omega)).mono ?_ fun _ _ => id
        exact fun _ _ later => ⟨⟨later.1.cached, later.1.media, later.1.buffer⟩, later.2⟩
      · have quiet : Quiet (s.drive.begin .idle) :=
          (begin_inPhase s.drive .idle).elim Or.inr Or.inl
        refine (ih (j := j + 1) _ (by omega) (by omega) fun _ => quiet).mono ?_ fun _ _ => id
        exact fun _ _ later => ⟨⟨later.1.cached, later.1.media, later.1.buffer⟩, later.2⟩

/-- Asking for the size changes no sector, and a drive that gives one has nothing left to do. -/
theorem ataTotalSectors_spec (quiet : Quiet s.drive) :
    Meets ataTotalSectors s
      (fun sectors s' => Intact s s' ∧ (sectors ≠ 0 → Quiet s'.drive)) fun _ _ => False := by
  have register : ∀ {s1 : Bus} {port : Nat} (byte : UInt8) {α : Type} {next : Unit → PortM α}
      {returned : α → Bus → Prop}, port ≠ ataControl → port ≠ ataCommand →
      Intact s s1 → Quiet s1.drive →
      (∀ s2, Intact s s2 → Quiet s2.drive → Meets (next ()) s2 returned fun _ _ => False) →
      Meets (outb port byte >>= next) s1 returned fun _ _ => False := by
    intro s1 port byte α next returned notControl notCommand intact quiet rest
    refine (outb_calm byte notControl (fun isPort => absurd isPort notCommand) quiet).seq ?_
      fun _ _ => id
    rintro _ s2 ⟨same, -, stays⟩
    exact rest s2 (intact.trans same) (stays notCommand)
  have none : ∀ {s1 : Bus}, Intact s s1 → Meets (pure 0 : PortM UInt32) s1
      (fun sectors s' => Intact s s' ∧ (sectors ≠ 0 → Quiet s'.drive)) fun _ _ => False :=
    fun intact => .pure ⟨intact, fun nonzero => absurd rfl nonzero⟩
  refine register 0xA0 (by decide) (by decide) (.refl s) quiet fun s1 intact quiet => ?_
  refine (pause_status 4 s1).seq ?_ fun _ _ => id
  intro _ s2 polled
  have quiet2 : Quiet s2.drive := by
    rw [polled.of_not_flushing quiet.ne_flushing]
    exact quiet
  have intact := intact.trans (polled.intact quiet.ne_flushing)
  refine register 0 (by decide) (by decide) intact quiet2 fun s3 intact quiet => ?_
  refine register 0 (by decide) (by decide) intact quiet fun s4 intact quiet => ?_
  refine register 0 (by decide) (by decide) intact quiet fun s5 intact quiet => ?_
  refine register 0 (by decide) (by decide) intact quiet fun s6 intact quiet => ?_
  refine (outb_calm ataCmdIdentify (by decide) (fun _ => rfl) quiet).seq ?_ fun _ _ => id
  rintro _ s7 ⟨same, calm, -⟩
  have intact := intact.trans same
  -- Every read of a register from here on is a poll or changes nothing.
  have read : inb ataStatus s7 = .ok s7.drive.status.1 { s7 with drive := s7.drive.status.2 } :=
    rfl
  refine .bind (.of_ok read ?_)
  have first := (status_spec s7).1.calm calm
  have intact := intact.trans first.1
  generalize { s7 with drive := s7.drive.status.2 } = s8 at first intact
  refine .ite (fun _ => none intact) fun _ => ?_
  refine .bind (.attempt ((ataWaitBsy_spec s8).mono ?_ ?_))
  · rintro _ s9 ⟨polled, -⟩
    have waited := polled.calm first.2
    have intact := intact.trans waited.1
    have readMid : inb ataLbaMid s9 = .ok s9.drive.mid s9 := rfl
    refine .bind (.of_ok readMid (.ite (fun _ => none intact) fun _ => ?_))
    have readHigh : inb ataLbaHigh s9 = .ok s9.drive.high s9 := rfl
    refine .bind (.of_ok readHigh (.ite (fun _ => none intact) fun _ => ?_))
    refine .bind (.attempt ((ataWaitDrq_spec s9).mono ?_ ?_))
    · rintro _ s10 ⟨polled, offers⟩
      have asked := polled.calm waited.2
      have intact := intact.trans asked.1
      have phase : s10.drive.phase = .identifying 0 := by
        rcases asked.2 with quiet | phase
        · rw [quiet.offers] at offers
          cases offers
        · exact phase
      have reads := @identifyWords_spec s10 256 0 [] rfl (fun _ => phase) (by omega)
      refine reads.seq ?_ fun _ _ => id
      rintro identify s11 ⟨same, quiet⟩
      exact .ite (fun _ => none (intact.trans same)) fun _ =>
        .pure ⟨intact.trans same, fun _ => quiet⟩
    · intro _ s10 polled
      exact none (intact.trans (polled.calm waited.2).1)
  · intro _ s9 polled
    exact none (intact.trans (polled.calm first.2).1)

/-! ## After a loss of power -/

/-- The drive after its power was cut: what had not reached the medium is gone. -/
def Drive.powerCycled (drive : Drive) : Drive :=
  { drive with phase := .idle, busy := 0, cached := drive.media }

def steadyDrive : Drive where
  count := 0
  low := 0
  mid := 0
  high := 0
  head := 0
  phase := .idle
  busy := 0
  begun := 0
  delays _ := 0
  fails _ := false
  identity _ := 0
  cached _ _ := 1
  media _ _ := 2

end Katela.Drivers.AtaPorts
