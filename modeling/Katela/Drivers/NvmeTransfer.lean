import Katela.Drivers.Nvme

/-! # Transfers of sectors

The proof that `transfer` reads and writes exactly the sectors it is asked for, whatever
the size of the blocks of the namespace. -/

namespace Katela.Drivers

/-- What `controller_init` sets for a namespace of `nsze` blocks. -/
structure Configured (nvme : Nvme) (nsze : Nat) : Prop where
  shift : 9 ≤ nvme.lbaShift ∧ nvme.lbaShift ≤ 12
  limit : nvme.maxTransfer = 8192 ∨ nvme.maxTransfer = 16384 ∨
    nvme.maxTransfer = 32768 ∨ nvme.maxTransfer = 65536
  total : nvme.totalSectors =
    if nsze > maxSectors >>> (nvme.lbaShift - 9) then maxSectors
    else nsze <<< (nvme.lbaShift - 9)

/-! ## Rounds -/

/-- What a round of the loop relies on. -/
structure RoundFits (lbaShift nsze lba count : Nat) (round : Round) : Prop where
  blocks : 1 ≤ round.blocks
  span : 1 ≤ round.span ∧ round.span ≤ count
  start : round.block <<< lbaShift + round.offset <<< 9 = lba * sectorSize
  inside : round.offset <<< 9 + round.span <<< 9 ≤ round.blocks <<< lbaShift
  bounce : round.blocks <<< lbaShift ≤ bounceSize
  inNamespace : round.block + round.blocks ≤ nsze
  whole : round.isPartial = false →
    round.offset = 0 ∧ round.span <<< 9 = round.blocks <<< lbaShift

theorem planRound_eq (lbaShift maxTransfer lba count : Nat) :
    planRound lbaShift maxTransfer lba count =
      let perBlock := 2 ^ (lbaShift - 9)
      let blocks := min ((lba % perBlock + count + perBlock - 1) / perBlock)
        (maxTransfer / 2 ^ lbaShift)
      let span := min (blocks * perBlock - lba % perBlock) count
      ⟨lba / perBlock, lba % perBlock, blocks, span,
        lba % perBlock ≠ 0 ∨ span ≠ blocks * perBlock⟩ := by
  have limited : ∀ value most : Nat,
      (if value > most then most else value) = min value most := by
    intro value most
    split
    · omega
    · omega
  unfold planRound
  simp only [Nat.shiftLeft_eq, Nat.shiftRight_eq_div_pow, Nat.one_mul,
    Nat.and_two_pow_sub_one_eq_mod, limited]

/-- A transfer has at least one block, and fits the bounce buffer. -/
theorem Configured.maxBlocks {nvme : Nvme} {nsze : Nat}
    (configured : Configured nvme nsze) :
    1 ≤ nvme.maxTransfer / 2 ^ nvme.lbaShift ∧
      nvme.maxTransfer / 2 ^ nvme.lbaShift * 2 ^ nvme.lbaShift ≤ 65536 := by
  have most := Nat.div_mul_le_self nvme.maxTransfer (2 ^ nvme.lbaShift)
  have power : 2 ^ nvme.lbaShift ≤ 2 ^ 12 :=
    Nat.pow_le_pow_right (by decide) configured.shift.2
  have positive : 0 < 2 ^ nvme.lbaShift := Nat.two_pow_pos _
  have limit := configured.limit
  refine ⟨(Nat.one_le_div_iff positive).mpr (by omega), by omega⟩

theorem planRound_fits {nvme : Nvme} {nsze lba count : Nat}
    (configured : Configured nvme nsze) (positive : 0 < count)
    (inside : lba + count ≤ nvme.totalSectors) :
    RoundFits nvme.lbaShift nsze lba count
      (planRound nvme.lbaShift nvme.maxTransfer lba count) := by
  have maxBlocks := configured.maxBlocks
  have isShift := configured.shift
  have isMax : maxSectors = 0x0FFFFFFF := rfl
  have isSector : sectorSize = 512 := rfl
  have isBounce : bounceSize = 65536 := rfl
  rw [configured.total] at inside
  rw [planRound_eq]
  generalize nvme.maxTransfer / 2 ^ nvme.lbaShift = most at maxBlocks ⊢
  generalize nvme.lbaShift = lbaShift at isShift inside maxBlocks ⊢
  -- The number of sectors in a block is one of four constants.
  have shifts : lbaShift = 9 ∨ lbaShift = 10 ∨ lbaShift = 11 ∨ lbaShift = 12 := by omega
  rcases shifts with rfl | rfl | rfl | rfl
  all_goals
    simp only [Nat.shiftRight_eq_div_pow, Nat.shiftLeft_eq, isMax, Nat.reduceSub,
      Nat.reducePow] at inside maxBlocks ⊢
    constructor
    · dsimp only
      omega
    · dsimp only
      omega
    · simp only [Nat.shiftLeft_eq, isSector]
      omega
    · simp only [Nat.shiftLeft_eq]
      omega
    · simp only [Nat.shiftLeft_eq, isBounce]
      omega
    · dsimp only
      split at inside
      · omega
      · omega
    · intro isWhole
      simp only [decide_eq_false_iff_not, not_or, ne_eq, Classical.not_not] at isWhole
      simp only [Nat.shiftLeft_eq]
      omega

/-! ## Copies -/

section Copies

variable (target source : Memory) (offset start first second : Nat)

/-- Two copies after one another. -/
theorem copyBytes_append :
    copyBytes (copyBytes target offset source start first) (offset + first) source
        (start + first) second =
      copyBytes target offset source start (first + second) := by
  funext index
  unfold copyBytes
  by_cases isSecond : offset + first ≤ index ∧ index < offset + first + second
  · rw [if_pos isSecond, if_pos (by omega)]
    congr 1
    omega
  · rw [if_neg isSecond]
    by_cases isFirst : offset ≤ index ∧ index < offset + first
    · rw [if_pos isFirst, if_pos (by omega)]
    · rw [if_neg isFirst, if_neg (by omega)]

theorem copyBytes_zero : copyBytes target offset source start 0 = target := by
  funext index
  unfold copyBytes
  rw [if_neg (by omega)]

/-- A copy out of a part of what was copied before. -/
theorem copyBytes_inside (middle : Memory) {total : Nat} (inside : start + first ≤ total)
    (base : Nat) :
    copyBytes target offset (copyBytes middle 0 source base total) start first =
      copyBytes target offset source (base + start) first := by
  funext index
  unfold copyBytes
  by_cases isCopied : offset ≤ index ∧ index < offset + first
  · rw [if_pos isCopied, if_pos isCopied, if_pos (by omega), Nat.sub_zero, Nat.add_assoc]
  · rw [if_neg isCopied, if_neg isCopied]

end Copies

/-- A range that is read, changed in a part and written back is changed in that part
only. -/
theorem copyBytes_readModifyWrite (disk bounce buffer : Memory)
    {base offset position size total : Nat} (inside : offset + size ≤ total) :
    copyBytes disk base
        (copyBytes (copyBytes bounce 0 disk base total) offset buffer position size) 0
        total =
      copyBytes disk (base + offset) buffer position size := by
  funext index
  unfold copyBytes
  by_cases isRange : base ≤ index ∧ index < base + total
  · rw [if_pos isRange]
    by_cases isPart : base + offset ≤ index ∧ index < base + offset + size
    · rw [if_pos isPart, if_pos (by omega)]
      congr 1
      omega
    · rw [if_neg isPart, if_neg (by omega), if_pos (by omega)]
      congr 1
      omega
  · rw [if_neg isRange, if_neg (by omega)]

/-- A range that is written as a whole. -/
theorem copyBytes_overwrite (disk bounce buffer : Memory) {base position size : Nat} :
    copyBytes disk base (copyBytes bounce 0 buffer position size) 0 size =
      copyBytes disk base buffer position size := by
  have same := copyBytes_inside disk buffer base 0 size bounce (Nat.le_of_eq (Nat.zero_add size))
    position
  rw [Nat.add_zero] at same
  exact same

/-! ## Commands -/

/-- A command that stays within the bounce buffer and the namespace. -/
def CommandFits (lbaShift nsze : Nat) : Submission → Prop
  | .io _ block blocks => 1 ≤ blocks ∧ blocks <<< lbaShift ≤ bounceSize ∧
      block + blocks ≤ nsze
  | _ => False

/-- What is set by `controller_init` is the same. -/
structure SameSettings (nvme other : Nvme) : Prop where
  lbaShift : nvme.lbaShift = other.lbaShift
  maxTransfer : nvme.maxTransfer = other.maxTransfer
  totalSectors : nvme.totalSectors = other.totalSectors

/-- The commands that were submitted in between all fit. -/
def SubmitsFitting (nsze : Nat) (before after : Nvme) : Prop :=
  ∃ commands, after.submitted = before.submitted ++ commands ∧
    ∀ command ∈ commands, CommandFits before.lbaShift nsze command

section Commands

variable {controller : Controller} {nvme : Nvme} {nsze : Nat} {command : Submission}

/-- A command changes none of the settings. -/
theorem execute_settings : SameSettings (execute controller nvme command).2 nvme := by
  unfold execute
  dsimp only
  split
  · cases command with
    | identify cns nsid => exact ⟨rfl, rfl, rfl⟩
    | createCq => exact ⟨rfl, rfl, rfl⟩
    | createSq => exact ⟨rfl, rfl, rfl⟩
    | io opcode block blocks =>
        cases opcode with
        | read => exact ⟨rfl, rfl, rfl⟩
        | write => exact ⟨rfl, rfl, rfl⟩
    | flush => exact ⟨rfl, rfl, rfl⟩
  · exact ⟨rfl, rfl, rfl⟩
  · exact ⟨rfl, rfl, rfl⟩

theorem execute_submitted :
    (execute controller nvme command).2.submitted = nvme.submitted ++ [command] := by
  unfold execute
  dsimp only
  split
  · cases command with
    | identify cns nsid => rfl
    | createCq => rfl
    | createSq => rfl
    | io opcode block blocks =>
        cases opcode with
        | read => rfl
        | write => rfl
    | flush => rfl
  · rfl
  · rfl

theorem execute_success (done : (execute controller nvme command).1 = true) :
    (execute controller nvme command).2 =
      perform controller { nvme with submitted := nvme.submitted ++ [command] } command := by
  unfold execute at done ⊢
  dsimp only at done ⊢
  split at done
  · rfl
  · cases done
  · cases done

theorem SameSettings.trans {first second third : Nvme} (left : SameSettings first second)
    (right : SameSettings second third) : SameSettings first third :=
  ⟨left.lbaShift.trans right.lbaShift, left.maxTransfer.trans right.maxTransfer,
    left.totalSectors.trans right.totalSectors⟩

theorem Configured.of_same {other : Nvme} (configured : Configured nvme nsze)
    (same : SameSettings other nvme) : Configured other nsze := by
  constructor
  · rw [same.lbaShift]
    exact configured.shift
  · rw [same.maxTransfer]
    exact configured.limit
  · rw [same.lbaShift, same.totalSectors]
    exact configured.total

theorem SubmitsFitting.refl : SubmitsFitting nsze nvme nvme :=
  ⟨[], (List.append_nil _).symm, fun _ impossible => absurd impossible List.not_mem_nil⟩

theorem SubmitsFitting.trans {middle after : Nvme}
    (first : SubmitsFitting nsze nvme middle) (second : SubmitsFitting nsze middle after)
    (same : SameSettings middle nvme) : SubmitsFitting nsze nvme after := by
  rcases first with ⟨front, isFront, frontFits⟩
  rcases second with ⟨back, isBack, backFits⟩
  refine ⟨front ++ back, by rw [isBack, isFront, List.append_assoc], ?_⟩
  intro command member
  rcases List.mem_append.mp member with inFront | inBack
  · exact frontFits command inFront
  · rw [← same.lbaShift]
    exact backFits command inBack

theorem SubmitsFitting.execute (fits : CommandFits nvme.lbaShift nsze command) :
    SubmitsFitting nsze nvme (execute controller nvme command).2 := by
  refine ⟨[command], execute_submitted, ?_⟩
  intro other member
  rw [List.mem_singleton.mp member]
  exact fits

end Commands

/-! ## The loop -/

section Loop

variable {controller : Controller} {nvme : Nvme} {nsze lba count position : Nat}
variable {round : Round} {buffer : Memory}

theorem RoundFits.command (fits : RoundFits nvme.lbaShift nsze lba count round)
    (opcode : IoOpcode) :
    CommandFits nvme.lbaShift nsze (.io opcode round.block round.blocks) :=
  ⟨fits.blocks, fits.bounce, fits.inNamespace⟩

/-- A round that reads. -/
theorem readRound_copies (fits : RoundFits nvme.lbaShift nsze lba count round)
    (done : (runIo controller nvme .read round.block round.blocks).1 = true) :
    (runIo controller nvme .read round.block round.blocks).2.disk = nvme.disk ∧
      copyBytes buffer position
          (runIo controller nvme .read round.block round.blocks).2.bounce
          (round.offset <<< 9) (round.span <<< 9) =
        copyBytes buffer position nvme.disk (lba * sectorSize) (round.span <<< 9) := by
  unfold runIo at done ⊢
  rw [execute_success done]
  refine ⟨rfl, ?_⟩
  simp only [perform]
  rw [copyBytes_inside _ _ _ _ _ _ fits.inside, fits.start]

/-- What a round that writes leaves. -/
structure WritesRound (nsze lba : Nat) (round : Round) (buffer : Memory) (position : Nat)
    (nvme : Nvme) (result : Bool × Nvme) : Prop where
  same : SameSettings result.2 nvme
  submits : SubmitsFitting nsze nvme result.2
  writes : result.1 = true → result.2.disk =
    copyBytes nvme.disk (lba * sectorSize) buffer position (round.span <<< 9)

/-- The second half of a round that writes, when the bounce buffer is right. -/
theorem writeRound_fill (fits : RoundFits nvme.lbaShift nsze lba count round)
    {middle : Nvme} (same : SameSettings middle nvme)
    (submits : SubmitsFitting nsze nvme middle)
    (isRange : copyBytes middle.disk (round.block <<< nvme.lbaShift)
        (copyBytes middle.bounce (round.offset <<< 9) buffer position (round.span <<< 9)) 0
        (round.blocks <<< nvme.lbaShift) =
      copyBytes nvme.disk (lba * sectorSize) buffer position (round.span <<< 9)) :
    WritesRound nsze lba round buffer position nvme
      (runIo controller { middle with
        bounce := copyBytes middle.bounce (round.offset <<< 9) buffer position
          (round.span <<< 9) } .write round.block round.blocks) := by
  have fitsMiddle : CommandFits middle.lbaShift nsze
      (.io .write round.block round.blocks) := by
    rw [same.lbaShift]
    exact fits.command .write
  let filled : Nvme := { middle with
    bounce := copyBytes middle.bounce (round.offset <<< 9) buffer position
      (round.span <<< 9) }
  have filledSame : SameSettings filled middle := ⟨rfl, rfl, rfl⟩
  have writeSame : SameSettings
      (runIo controller filled .write round.block round.blocks).2 filled :=
    execute_settings
  have writeSubmits : SubmitsFitting nsze middle
      (runIo controller filled .write round.block round.blocks).2 :=
    ⟨[.io .write round.block round.blocks], execute_submitted, fun other member => by
      rw [List.mem_singleton.mp member]
      exact fitsMiddle⟩
  refine ⟨(writeSame.trans filledSame).trans same, submits.trans writeSubmits same, ?_⟩
  intro done
  unfold runIo at done ⊢
  rw [execute_success done]
  simp only [perform]
  rw [same.lbaShift]
  exact isRange

theorem writeRound_writes (fits : RoundFits nvme.lbaShift nsze lba count round) :
    WritesRound nsze lba round buffer position nvme
      (writeRound controller nvme round buffer position) := by
  unfold writeRound
  by_cases isPartial : round.isPartial = true
  · rw [if_pos isPartial]
    dsimp only
    have readSame : SameSettings
        (runIo controller nvme .read round.block round.blocks).2 nvme := execute_settings
    have readSubmits : SubmitsFitting nsze nvme
        (runIo controller nvme .read round.block round.blocks).2 :=
      SubmitsFitting.execute (fits.command .read)
    by_cases readDone : (runIo controller nvme .read round.block round.blocks).1 = true
    · rw [if_pos readDone]
      apply writeRound_fill fits readSame readSubmits
      unfold runIo at readDone ⊢
      rw [execute_success readDone]
      simp only [perform]
      rw [copyBytes_readModifyWrite _ _ _ fits.inside, fits.start]
    · rw [if_neg readDone]
      exact ⟨readSame, readSubmits, fun impossible => by cases impossible⟩
  · rw [if_neg isPartial]
    dsimp only
    rw [if_pos rfl]
    apply writeRound_fill fits ⟨rfl, rfl, rfl⟩ SubmitsFitting.refl
    have isWhole := fits.whole (Bool.eq_false_iff.mpr isPartial)
    have isStart := fits.start
    rw [isWhole.1, Nat.zero_shiftLeft, Nat.add_zero] at isStart
    rw [isWhole.1, isWhole.2, Nat.zero_shiftLeft, copyBytes_overwrite, isStart]

/-- What a transfer leaves: it ends, its commands fit, and if it succeeds, exactly the
sectors of the range were copied. -/
structure TransfersExactly (write : Bool) (nsze lba count : Nat) (buffer : Memory)
    (position : Nat) (nvme : Nvme) (result : Transferred) : Prop where
  ends : result.outcome ≠ .endless
  submits : SubmitsFitting nsze nvme result.nvme
  reads : result.outcome = .ok → write = false → result.nvme.disk = nvme.disk ∧
    result.buffer =
      copyBytes buffer position nvme.disk (lba * sectorSize) (count * sectorSize)
  writes : result.outcome = .ok → write = true → result.buffer = buffer ∧
    result.nvme.disk =
      copyBytes nvme.disk (lba * sectorSize) buffer position (count * sectorSize)

theorem transferLoop_exact (write : Bool) (rounds : Nat) :
    ∀ (nvme : Nvme) (lba count : Nat) (buffer : Memory) (position : Nat),
      Configured nvme nsze → lba + count ≤ nvme.totalSectors → count < rounds →
      TransfersExactly write nsze lba count buffer position nvme
        (transferLoop controller write rounds nvme lba count buffer position) := by
  induction rounds with
  | zero =>
      intro nvme lba count buffer position _ _ less
      omega
  | succ rounds ih =>
      intro nvme lba count buffer position configured inside less
      unfold transferLoop
      by_cases positive : count > 0
      · rw [if_pos positive]
        have fits := planRound_fits configured positive inside
        generalize planRound nvme.lbaShift nvme.maxTransfer lba count = round at fits ⊢
        have isSector : sectorSize = 512 := rfl
        have isSpan : round.span <<< 9 = round.span * sectorSize := Nat.shiftLeft_eq _ _
        have spanned : round.span * sectorSize + (count - round.span) * sectorSize =
            count * sectorSize := by
          rw [← Nat.add_mul, Nat.add_sub_cancel' fits.span.2]
        have nextStart : (lba + round.span) * sectorSize =
            lba * sectorSize + round.span * sectorSize := Nat.add_mul _ _ _
        have span := fits.span
        cases write with
        | true =>
            dsimp only
            rw [if_pos rfl]
            have writesRound := @writeRound_writes controller nvme nsze lba count position
              round buffer fits
            generalize writeRound controller nvme round buffer position = written
              at writesRound ⊢
            by_cases done : written.1 = true
            · rw [if_pos done]
              have same := writesRound.same
              have rest := ih written.2 (lba + round.span) (count - round.span) buffer
                (position + round.span <<< 9) (configured.of_same same)
                (by rw [same.totalSectors]; omega) (by omega)
              refine ⟨rest.ends, writesRound.submits.trans rest.submits same,
                fun _ impossible => (by cases impossible), fun isOk _ => ?_⟩
              have wrote := rest.writes isOk rfl
              refine ⟨wrote.1, ?_⟩
              rw [wrote.2, writesRound.writes done, isSpan, nextStart, copyBytes_append,
                spanned]
            · rw [if_neg done]
              exact ⟨fun impossible => (by cases impossible), writesRound.submits,
                fun impossible => (by cases impossible),
                fun impossible => (by cases impossible)⟩
        | false =>
            rw [if_neg (by decide)]
            have same : SameSettings
                (runIo controller nvme .read round.block round.blocks).2 nvme :=
              execute_settings
            have submits : SubmitsFitting nsze nvme
                (runIo controller nvme .read round.block round.blocks).2 :=
              SubmitsFitting.execute (fits.command .read)
            have copies := @readRound_copies controller nvme nsze lba count position round
              buffer fits
            generalize runIo controller nvme .read round.block round.blocks = found
              at same submits copies ⊢
            dsimp only
            by_cases done : found.1 = true
            · rw [if_pos done]
              have rest := ih found.2 (lba + round.span) (count - round.span)
                (copyBytes buffer position found.2.bounce (round.offset <<< 9)
                  (round.span <<< 9))
                (position + round.span <<< 9) (configured.of_same same)
                (by rw [same.totalSectors]; omega) (by omega)
              refine ⟨rest.ends, submits.trans rest.submits same, fun isOk _ => ?_,
                fun _ impossible => (by cases impossible)⟩
              have read := rest.reads isOk rfl
              have copied := copies done
              refine ⟨read.1.trans copied.1, ?_⟩
              rw [read.2, copied.2, copied.1, isSpan, nextStart, copyBytes_append, spanned]
            · rw [if_neg done]
              exact ⟨fun impossible => (by cases impossible), submits,
                fun impossible => (by cases impossible),
                fun impossible => (by cases impossible)⟩
      · rw [if_neg positive]
        have isZero : count = 0 := by omega
        rw [isZero]
        refine ⟨fun impossible => (by cases impossible), SubmitsFitting.refl,
          fun _ _ => ⟨rfl, ?_⟩, fun _ _ => ⟨rfl, ?_⟩⟩
        · rw [Nat.zero_mul, copyBytes_zero]
        · rw [Nat.zero_mul, copyBytes_zero]

end Loop

/-! ## Settings -/

/-- The number of blocks of a namespace. -/
def namespaceSize (data : Memory) : Nat := loadU32 data 0 + loadU32 data 4 * 2 ^ 32

theorem namespaceFields_eq {data : Memory} {lbaShift totalSectors : Nat}
    (found : namespaceFields data = some (lbaShift, totalSectors)) :
    9 ≤ lbaShift ∧ lbaShift ≤ 12 ∧ totalSectors =
      if namespaceSize data > maxSectors >>> (lbaShift - 9) then maxSectors
      else namespaceSize data <<< (lbaShift - 9) := by
  unfold namespaceFields at found
  dsimp only at found
  split at found
  · cases found
  · generalize (loadU32 data (128 + (if (data 25).toNat > 15 then
        (data 26).toNat &&& 15 ||| ((data 26).toNat >>> 5 &&& 3) <<< 4
      else (data 26).toNat &&& 15) * 4) >>> 16) &&& 255 = lbads at found
    split at found
    · cases found
    · next inRange =>
        simp only [Option.some.injEq, Prod.mk.injEq] at found
        rcases found with ⟨rfl, isTotal⟩
        refine ⟨by omega, by omega, ?_⟩
        rw [← isTotal]
        have small : maxSectors >>> (lbads - 9) ≤ maxSectors := Nat.shiftRight_le _ _
        have isMax : maxSectors = 0x0FFFFFFF := rfl
        unfold namespaceSize
        by_cases isHigh : loadU32 data 4 = 0
        · rw [isHigh, Nat.zero_mul, Nat.add_zero]
          simp only [ne_eq, not_true_eq_false, false_or]
        · rw [if_pos (Or.inl isHigh), if_pos (by omega)]

/-- A page that was identified is the one the controller sent. -/
theorem identify_success {controller : Controller} {nvme : Nvme} {cns nsid : Nat}
    (done : (identify controller nvme cns nsid).1 = true) {index : Nat}
    (inPage : index < pageSize) :
    (identify controller nvme cns nsid).2.identifyBuf index =
      (if cns = 1 then controller.controllerData else controller.namespaceData) index := by
  unfold identify at done ⊢
  rw [execute_success done]
  simp only [perform, copyBytes]
  rw [if_pos (by omega), Nat.zero_add, Nat.sub_zero]

theorem namespaceSize_congr {data other : Memory}
    (same : ∀ index, index < pageSize → data index = other index) :
    namespaceSize data = namespaceSize other := by
  have isPage : pageSize = 4096 := rfl
  unfold namespaceSize loadU32 word
  dsimp only
  rw [same _ (by omega), same _ (by omega), same _ (by omega), same _ (by omega),
    same _ (by omega), same _ (by omega), same _ (by omega), same _ (by omega)]

theorem transferLimit_cases (mdts : UInt8) :
    transferLimit mdts = 8192 ∨ transferLimit mdts = 16384 ∨ transferLimit mdts = 32768 ∨
      transferLimit mdts = 65536 := by
  unfold transferLimit
  split
  · next isSmall =>
      have notZero : mdts.toNat ≠ 0 := fun isZero => isSmall.1 (UInt8.toNat_inj.mp isZero)
      have less : mdts.toNat < 4 := UInt8.lt_iff_toNat_lt.mp isSmall.2
      have cases : mdts.toNat = 1 ∨ mdts.toNat = 2 ∨ mdts.toNat = 3 := by omega
      rcases cases with isOne | isTwo | isThree
      · rw [isOne]
        exact Or.inl rfl
      · rw [isTwo]
        exact Or.inr (Or.inl rfl)
      · rw [isThree]
        exact Or.inr (Or.inr (Or.inl rfl))
  · exact Or.inr (Or.inr (Or.inr rfl))

theorem createIoQueues_settings (controller : Controller) (nvme : Nvme) :
    SameSettings (createIoQueues controller nvme).2 nvme := by
  unfold createIoQueues
  dsimp only
  split
  · exact execute_settings.trans execute_settings
  · exact execute_settings

/-- What `read_namespace` sets, and what it leaves as it was. -/
theorem readNamespace_success {controller : Controller} {nvme : Nvme}
    (done : (readNamespace controller nvme).1 = true) :
    ∃ known lbaShift totalSectors, SameSettings known nvme ∧
      readNamespace controller nvme = (true, { known with lbaShift, totalSectors }) ∧
      9 ≤ lbaShift ∧ lbaShift ≤ 12 ∧ totalSectors =
        if namespaceSize controller.namespaceData > maxSectors >>> (lbaShift - 9) then
          maxSectors
        else namespaceSize controller.namespaceData <<< (lbaShift - 9) := by
  unfold readNamespace at done ⊢
  dsimp only at done ⊢
  by_cases identified : (identify controller nvme 0 1).1 = true
  · rw [if_pos identified] at done ⊢
    have sameSize : namespaceSize (identify controller nvme 0 1).2.identifyBuf =
        namespaceSize controller.namespaceData :=
      namespaceSize_congr fun index inPage => identify_success identified inPage
    cases found : namespaceFields (identify controller nvme 0 1).2.identifyBuf with
    | none =>
        rw [found] at done
        cases done
    | some fields =>
        have isFields := namespaceFields_eq found
        rw [sameSize] at isFields
        have same : SameSettings (identify controller nvme 0 1).2
            { nvme with identifyBuf := fun _ => 0 } := execute_settings
        exact ⟨_, fields.1, fields.2, same.trans ⟨rfl, rfl, rfl⟩, rfl, isFields⟩
  · rw [if_neg identified] at done
    cases done

theorem controllerInit_configured {controller : Controller} {nvme : Nvme}
    (done : (controllerInit controller nvme).1 = true) :
    Configured (controllerInit controller nvme).2
      (namespaceSize controller.namespaceData) := by
  unfold controllerInit at done ⊢
  dsimp only at done ⊢
  by_cases found : controller.found = true
  · rw [if_pos found] at done ⊢
    by_cases identified : (identify controller nvme 1 0).1 = true
    · rw [if_pos identified] at done ⊢
      generalize (identify controller nvme 1 0).2 = known at done ⊢
      by_cases hasNamespace : (readNamespace controller { known with
          maxTransfer := transferLimit (known.identifyBuf 77) }).1 = true
      · rw [if_pos hasNamespace] at done ⊢
        rcases readNamespace_success hasNamespace with
          ⟨identified, lbaShift, totalSectors, same, isRead, isSettings⟩
        rw [isRead]
        have configured : Configured { identified with lbaShift, totalSectors }
            (namespaceSize controller.namespaceData) := by
          have isLimit := transferLimit_cases (known.identifyBuf 77)
          refine ⟨⟨isSettings.1, isSettings.2.1⟩, ?_, isSettings.2.2⟩
          rw [same.maxTransfer]
          exact isLimit
        exact configured.of_same (createIoQueues_settings controller _)
      · rw [if_neg hasNamespace] at done
        cases done
    · rw [if_neg identified] at done
      cases done
  · rw [if_neg found] at done
    cases done

/-! ## Whole transfers -/

/-- A transfer ends, its commands stay within the bounce buffer and the namespace, and
if it succeeds, exactly the sectors of the range were read or written. -/
theorem transfer_exact (controller : Controller) {nvme : Nvme} {nsze : Nat}
    (configured : Configured nvme nsze) (write : Bool) {lba count : Nat}
    (positive : 1 ≤ count) (inside : lba + count ≤ nvme.totalSectors) (buffer : Memory) :
    (transfer controller nvme write lba count buffer).outcome ≠ .endless ∧
    SubmitsFitting nsze nvme (transfer controller nvme write lba count buffer).nvme ∧
    ((transfer controller nvme write lba count buffer).outcome = .ok → write = false →
      (transfer controller nvme write lba count buffer).nvme.disk = nvme.disk ∧
      ∀ index, (transfer controller nvme write lba count buffer).buffer index =
        if index < count * sectorSize then nvme.disk (lba * sectorSize + index)
        else buffer index) ∧
    ((transfer controller nvme write lba count buffer).outcome = .ok → write = true →
      ∀ index, (transfer controller nvme write lba count buffer).nvme.disk index =
        if lba * sectorSize ≤ index ∧ index < (lba + count) * sectorSize then
          buffer (index - lba * sectorSize)
        else nvme.disk index) := by
  have accepted : ¬ (count = 0 ∨ lba ≥ nvme.totalSectors ∨
      count > nvme.totalSectors - lba) := by omega
  unfold transfer
  rw [if_neg accepted]
  have exact := @transferLoop_exact controller nsze write (count + 1) nvme lba count buffer 0
    configured inside (Nat.lt_succ_self count)
  refine ⟨exact.ends, exact.submits, fun isOk isRead => ?_, fun isOk isWrite => ?_⟩
  · have reads := exact.reads isOk isRead
    refine ⟨reads.1, fun index => ?_⟩
    rw [reads.2]
    unfold copyBytes
    simp only [Nat.zero_le, true_and, Nat.zero_add, Nat.sub_zero]
  · have writes := exact.writes isOk isWrite
    intro index
    rw [writes.2]
    unfold copyBytes
    simp only [Nat.zero_add, Nat.add_mul]

/-- A namespace of four blocks of eight sectors each. -/
def fourBlocks : Nvme where
  state := .ready
  lbaShift := 12
  maxTransfer := 8192
  totalSectors := 32
  identifyBuf := fun _ => 0
  bounce := fun _ => 0
  disk := fun _ => 1
  submitted := []

def obliging : Controller := ⟨true, fun _ => 0, fun _ => 0, fun _ => .success⟩

/-- Three sectors in the middle of the first block are written. -/
theorem transfer_exact_middle :
    (transfer obliging fourBlocks true 3 3 fun _ => 7).nvme.disk 1536 = 7 ∧
      (transfer obliging fourBlocks true 3 3 fun _ => 7).nvme.disk 1535 = 1 := by
  have configured : Configured fourBlocks 4 :=
    ⟨by decide, Or.inl rfl, by decide⟩
  have exact := @transfer_exact obliging fourBlocks 4 configured true 3 3 (by decide)
    (by decide) fun _ => 7
  have isOk : (transfer obliging fourBlocks true 3 3 fun _ => 7).outcome = .ok := rfl
  have isDisk := exact.2.2.2 isOk rfl
  exact ⟨isDisk 1536, isDisk 1535⟩

end Katela.Drivers
