import Katela.Interrupts.Irq

/-! # Interrupts reach their handlers

A line is masked unless it has a handler, every interrupt that is taken calls the handlers of
its line, and none stays in service. -/

namespace Katela.Interrupts

variable {s s' : Irqs} {irq handler context line : Nat}

/-! ## Registering -/

/-- A slot that `scan` gives is free, and no slot that it passed has the handler. -/
theorem scan_some {row : Row} {wanted : Slot} {slots : List (Fin 4)} {free : Option (Fin 4)}
    {i : Fin 4} (found : scan row wanted slots free = some (some i)) :
    (∀ j ∈ slots, row j ≠ wanted) ∧ ((row i).handler = 0 ∨ free = some i) := by
  induction slots generalizing free with
  | nil =>
      cases found
      exact ⟨nofun, Or.inr rfl⟩
  | cons j rest ih =>
      unfold scan at found
      split at found
      · cases found
      · rename_i different
        rcases ih found with ⟨others, isFree⟩
        refine ⟨List.forall_mem_cons.mpr ⟨different, others⟩, ?_⟩
        rcases isFree with isFree | isFree
        · exact Or.inl isFree
        · split at isFree
          · rename_i unused
            cases isFree
            exact Or.inl unused.1
          · exact Or.inr isFree

theorem dropped_used {row : Row} {unwanted : Slot} {i : Fin 4}
    (used : (dropped row unwanted i).handler ≠ 0) : dropped row unwanted i = row i := by
  unfold dropped at used ⊢
  split at used
  · exact absurd rfl used
  · rename_i different
    exact if_neg different

namespace Irqs.Sound

/-- A change of the slots of one line, with its mask. -/
theorem change {row : Row} {pics : Pics} (sound : s.Sound) (usable : Usable irq)
    (maskOnly : MaskOnly s.pics pics)
    (others : ∀ line, line < 16 → line ≠ irq → line ≠ 2 →
      (pics.Masked line ↔ s.pics.Masked line))
    (own : ¬pics.Masked irq ↔ ∃ i, (row i).handler ≠ 0)
    (cascade : pics.Masked 2 → s.pics.Masked 2 ∧ (8 ≤ irq → pics.Masked irq))
    (distinct : ∀ i j, row i = row j → (row i).handler ≠ 0 → i = j) :
    Irqs.Sound { s with slots := Function.update s.slots irq row, pics := pics } := by
  rcases usable with ⟨notTimer, notCascade, small⟩
  constructor
  case ready => exact maskOnly.ready sound.ready
  case bases =>
    change pics.master.base = 0x20 ∧ pics.slave.base = 0x28
    rw [maskOnly.master, maskOnly.slave]
    exact sound.bases
  case ended =>
    change pics.master.inService = 0 ∧ pics.slave.inService = 0
    rw [maskOnly.master, maskOnly.slave]
    exact sound.ended
  case timer =>
    change ¬pics.Masked 0
    rw [others 0 (by decide) (Ne.symm notTimer) (by decide)]
    exact sound.timer
  case cascade =>
    intro line isSlave inside unmasked masked
    change ¬pics.Masked line at unmasked
    rcases cascade masked with ⟨before, ownMasked⟩
    by_cases isIrq : line = irq
    · subst isIrq
      exact unmasked (ownMasked isSlave)
    · rw [others line inside isIrq (by omega)] at unmasked
      exact sound.cascade line isSlave inside unmasked before
  case lines =>
    intro line isUsable
    change ¬pics.Masked line ↔ ∃ i, (Function.update s.slots irq row line i).handler ≠ 0
    by_cases isIrq : line = irq
    · subst isIrq
      rw [Function.update_self]
      exact own
    · rw [Function.update_of_ne isIrq, others line isUsable.2.2 isIrq isUsable.2.1]
      exact sound.lines line isUsable
  case distinct =>
    intro line i j same used
    change Function.update s.slots irq row line i = Function.update s.slots irq row line j
      at same
    change (Function.update s.slots irq row line i).handler ≠ 0 at used
    by_cases isIrq : line = irq
    · subst isIrq
      rw [Function.update_self] at same used
      exact distinct i j same used
    · rw [Function.update_of_ne isIrq] at same used
      exact sound.distinct line i j same used

theorem register (sound : s.Sound) : (irqRegister irq handler context s).2.Sound := by
  unfold irqRegister
  split
  · exact sound
  · rename_i isUsable
    simp only [not_or, Nat.not_le] at isUsable
    rcases isUsable with ⟨notTimer, notCascade, small, isHandler⟩
    split
    · rename_i i found
      rcases scan_some found with ⟨others, isFree⟩
      have isFree : (s.slots irq i).handler = 0 := isFree.resolve_right nofun
      have isNew : ∀ j, s.slots irq j ≠ ⟨handler, context⟩ := fun j =>
        others j (List.mem_finRange j)
      have masked := fun line (inside : line < 16) =>
        @picUnmask_masked line _ irq sound.ready small inside
      refine sound.change ⟨notTimer, notCascade, small⟩ (picUnmask_maskOnly sound.ready) ?_ ?_
        ?_ ?_
      · intro line inside different notTwo
        rw [masked line inside]
        exact ⟨fun now => now.1, fun before => ⟨before, different, fun two => notTwo two.2⟩⟩
      · refine iff_of_true ?_ ⟨i, ?_⟩
        · rw [masked irq small]
          exact fun now => now.2.1 rfl
        · rw [Function.update_self]
          exact isHandler
      · rw [masked 2 (by decide)]
        rintro ⟨before, -, noSlave⟩
        exact ⟨before, fun isSlave => absurd ⟨isSlave, rfl⟩ noSlave⟩
      · intro j k same used
        by_cases isJ : j = i
        · by_cases isK : k = i
          · rw [isJ, isK]
          · rw [isJ, Function.update_self, Function.update_of_ne isK] at same
            exact absurd same.symm (isNew k)
        · rw [Function.update_of_ne isJ] at same used
          by_cases isK : k = i
          · rw [isK, Function.update_self] at same
            exact absurd same (isNew j)
          · rw [Function.update_of_ne isK] at same
            exact sound.distinct irq j k same used
    · exact sound

theorem unregister (sound : s.Sound) : (irqUnregister irq handler context s).Sound := by
  unfold irqUnregister
  split
  · exact sound
  · rename_i isUsable
    simp only [not_or, Nat.not_le] at isUsable
    rcases isUsable with ⟨notTimer, notCascade, small⟩
    dsimp only
    have kept : ∀ i, (dropped (s.slots irq) ⟨handler, context⟩ i).handler ≠ 0 →
        dropped (s.slots irq) ⟨handler, context⟩ i = s.slots irq i := fun _ => dropped_used
    generalize dropped (s.slots irq) ⟨handler, context⟩ = row at *
    have distinct : ∀ i j, row i = row j → (row i).handler ≠ 0 → i = j := by
      intro i j same used
      have usedJ : (row j).handler ≠ 0 := same ▸ used
      rw [kept i used, kept j usedJ] at same
      rw [kept i used] at used
      exact sound.distinct irq i j same used
    by_cases remaining : ((List.finRange 4).any fun i => (row i).handler ≠ 0) = true
    · rw [if_pos remaining]
      have some : ∃ i, (row i).handler ≠ 0 := by
        rcases List.any_eq_true.mp remaining with ⟨i, -, used⟩
        exact ⟨i, of_decide_eq_true used⟩
      have unmasked : ¬s.pics.Masked irq := by
        rw [sound.lines irq ⟨notTimer, notCascade, small⟩]
        rcases some with ⟨i, used⟩
        exact ⟨i, kept i used ▸ used⟩
      refine sound.change ⟨notTimer, notCascade, small⟩ ⟨rfl, rfl⟩ (fun _ _ _ _ => Iff.rfl)
        (iff_of_true unmasked some) ?_ distinct
      intro masked
      refine ⟨masked, fun isSlave => ?_⟩
      exact absurd masked (sound.cascade irq isSlave small unmasked)
    · rw [if_neg remaining]
      have none : ¬∃ i, (row i).handler ≠ 0 := by
        rintro ⟨i, used⟩
        exact remaining (List.any_eq_true.mpr ⟨i, List.mem_finRange i, decide_eq_true used⟩)
      have masked := fun line => @picMask_masked line _ irq sound.ready small
      refine sound.change ⟨notTimer, notCascade, small⟩ (picMask_maskOnly sound.ready) ?_ ?_ ?_
        distinct
      · intro line inside different notTwo
        rw [masked line]
        exact or_iff_left different
      · refine iff_of_false (fun unmasked => unmasked ?_) none
        rw [masked irq]
        exact Or.inr rfl
      · rw [masked 2]
        rintro (before | isTwo)
        · exact ⟨before, fun _ => (masked irq).mpr (Or.inr rfl)⟩
        · exact absurd isTwo.symm notCascade

end Irqs.Sound

/-! ## Taking an interrupt -/

/-- The gate of a line leads there. -/
def stubOf (line : Nat) : Stub :=
  if inside : 0 < line ∧ line < 16 then .irq ⟨line - 1, by omega⟩ else .timer

theorem stubOf_run (small : line < 16) (isLine : line ≠ 0) (s : Irqs) :
    (stubOf line).run s = irqDispatch line s := by
  rw [stubOf, dif_pos ⟨Nat.pos_of_ne_zero isLine, small⟩]
  change irqDispatch (line - 1 + 1) s = _
  rw [Nat.sub_add_cancel (Nat.pos_of_ne_zero isLine)]

/-- What an interrupt does up to the return from it. -/
structure Handled (s s' : Irqs) : Prop where
  setup : SameSetup s.pics s'.pics
  ended : s'.pics.Ended
  slots : s'.slots = s.slots
  calls : s'.calls = s.calls ++ s.expected

theorem Handled.sound (handled : Handled s s') (sound : s.Sound) : s'.Sound := by
  have setup := handled.setup
  have masked := setup.masked
  constructor
  case ready => exact ⟨setup.masterAwaits.trans sound.ready.master,
    setup.slaveAwaits.trans sound.ready.slave⟩
  case bases => exact ⟨setup.masterBase.trans sound.bases.1,
    setup.slaveBase.trans sound.bases.2⟩
  case ended => exact handled.ended
  case timer =>
    rw [masked]
    exact sound.timer
  case cascade =>
    intro line
    rw [masked, masked]
    exact sound.cascade line
  case lines =>
    intro line
    rw [masked, handled.slots]
    exact sound.lines line
  case distinct =>
    rw [handled.slots]
    exact sound.distinct

/-- A line whose interrupt the processor was given. -/
theorem run_serves {pics : Pics} (small : line < 16) (serves : pics.Serves line)
    (setup : SameSetup s.pics pics) (taken : s.taken = some line) :
    Handled s ((stubOf line).run { s with pics := pics }) := by
  by_cases isTimer : line = 0
  · subst isTimer
    refine ⟨setup.trans (outb_end_setup 0x20 (Or.inl rfl)), picEoi_ended serves small, rfl, ?_⟩
    rw [Irqs.expected, taken]
    exact (List.append_nil _).symm
  · rcases picSpurious_serves serves with ⟨pics', isReal, asked⟩
    have serves' : pics'.Serves line := by
      unfold Pics.Serves at serves ⊢
      rw [asked.master, asked.slave]
      exact serves
    have isCalled : s.expected = registered (s.slots line) := by
      rw [Irqs.expected, taken]
      exact if_neg isTimer
    have dispatched : irqDispatch line { s with pics := pics } =
        { s with pics := picEoi line pics', calls := s.calls ++ registered (s.slots line) } := by
      rw [irqDispatch, if_neg (show ¬irqCount ≤ line from Nat.not_le.mpr small)]
      simp only [isReal]
      rfl
    rw [stubOf_run small isTimer, dispatched]
    refine ⟨(setup.trans asked.setup).trans picEoi_setup, picEoi_ended serves' small, rfl, ?_⟩
    rw [isCalled]

/-- A line that the processor was given because a request went away. -/
theorem run_spurious {pics pics' : Pics} (small : line < 16) (isLine : line ≠ 0)
    (isSpurious : picSpurious line pics = (true, pics')) (setup : SameSetup s.pics pics')
    (ended : pics'.Ended) (taken : s.taken = none) :
    Handled s ((stubOf line).run { s with pics := pics }) := by
  have dispatched : (stubOf line).run { s with pics := pics } = { s with pics := pics' } := by
    rw [stubOf_run small isLine, irqDispatch,
      if_neg (show ¬irqCount ≤ line from Nat.not_le.mpr small)]
    simp only [isSpurious, if_true]
  rw [dispatched]
  refine ⟨setup, ended, rfl, ?_⟩
  rw [Irqs.expected, taken, List.append_nil]

theorem acknowledge_handled (sound : s.Sound) :
    ∃ line, line < 16 ∧ (acknowledge s.pics).1 = 0x20 + line ∧
      Handled s ((stubOf line).run { s with pics := (acknowledge s.pics).2 }) := by
  have master : s.pics.master.base.toNat = 0x20 := by rw [sound.bases.1]; rfl
  have slave : s.pics.slave.base.toNat = 0x28 := by rw [sound.bases.2]; rfl
  have ended := sound.ended
  unfold acknowledge
  rcases isMaster : highest s.pics.master.pending with _ | line
  · -- No request is left.
    refine ⟨7, by decide, by rw [master], ?_⟩
    rcases picSpurious_master ended with ⟨pics', isSpurious, setup, ended⟩
    exact run_spurious (by decide) (by decide) isSpurious setup ended
      (by rw [Irqs.taken, isMaster])
  · dsimp only
    have small := (highest_some isMaster).1
    have served : (s.pics.master.serve line).inService = bit line := by
      change s.pics.master.inService ||| bit line = bit line
      rw [ended.1, UInt8.zero_or]
    by_cases isSlave : line = 2
    · subst isSlave
      rw [if_pos rfl]
      rcases found : highest s.pics.slave.pending with _ | line
      · -- No request of the slave is left.
        refine ⟨15, by decide, by rw [slave], ?_⟩
        rcases @picSpurious_slave { s.pics with master := s.pics.master.serve 2 } served
          ended.2 with ⟨pics', isSpurious, setup, ended⟩
        refine run_spurious (by decide) (by decide) isSpurious
          ⟨setup.1, setup.2, setup.3, setup.4, setup.5, setup.6⟩ ended ?_
        rw [Irqs.taken, isMaster]
        dsimp only
        rw [if_pos rfl, found]
        rfl
      · have small := (highest_some found).1
        refine ⟨8 + line, by omega, by rw [slave]; exact Nat.add_assoc 0x20 8 line, ?_⟩
        refine run_serves (by omega) ?_ ⟨rfl, rfl, rfl, rfl, rfl, rfl⟩ ?_
        · unfold Pics.Serves
          rw [if_neg (by omega), Nat.add_sub_cancel_left]
          refine ⟨served, ?_⟩
          change s.pics.slave.inService ||| bit line = bit line
          rw [ended.2, UInt8.zero_or]
        · rw [Irqs.taken, isMaster]
          dsimp only
          rw [if_pos rfl, found]
          rfl
    · rw [if_neg isSlave]
      refine ⟨line, by omega, congrArg (· + line) master, ?_⟩
      refine run_serves (by omega) ?_ ⟨rfl, rfl, rfl, rfl, rfl, rfl⟩ ?_
      · unfold Pics.Serves
        rw [if_pos small]
        exact ⟨served, ended.2⟩
      · rw [Irqs.taken, isMaster]
        exact if_neg isSlave

/-! ## Gates -/

theorem gate_offset (handler : UInt32) (selector : UInt16) (flags : UInt8) :
    (gate handler selector flags).offset = handler := by
  have bound := handler.toNat_lt
  have low : (handler &&& 0xFFFF).toUInt16.toUInt32.toNat = handler.toNat % 2 ^ 16 := by
    rw [UInt16.toNat_toUInt32, UInt32.toNat_toUInt16, UInt32.toNat_and,
      show (0xFFFF : UInt32).toNat = 2 ^ 16 - 1 from rfl, Nat.and_two_pow_sub_one_eq_mod,
      Nat.mod_mod]
  have high : ((handler >>> 16) &&& 0xFFFF).toUInt16.toUInt32.toNat =
      handler.toNat / 2 ^ 16 := by
    rw [UInt16.toNat_toUInt32, UInt32.toNat_toUInt16,
      toNat_field (by decide) (show (0xFFFF : UInt32).toNat = 2 ^ 16 - 1 from rfl), Nat.mod_mod]
    change handler.toNat / 2 ^ 16 % 2 ^ 16 = _
    omega
  have shifted : (((handler >>> 16) &&& 0xFFFF).toUInt16.toUInt32 <<< (16 : UInt32)).toNat =
      handler.toNat / 2 ^ 16 * 2 ^ 16 := by
    rw [toNat_shiftLeft_fits (by decide) (by rw [high]; change _ * 2 ^ 16 < _; omega), high]
    rfl
  rw [← UInt32.toNat_inj]
  change (((handler >>> 16) &&& 0xFFFF).toUInt16.toUInt32 <<< (16 : UInt32) |||
    (handler &&& 0xFFFF).toUInt16.toUInt32).toNat = _
  have above : 2 ^ 16 ∣ (((handler >>> 16) &&& 0xFFFF).toUInt16.toUInt32 <<<
      (16 : UInt32)).toNat := by
    rw [shifted]
    exact Nat.dvd_mul_left ..
  rw [toNat_or_below above (by rw [low]; exact Nat.mod_lt _ (by decide)), shifted, low]
  omega

variable {entries : Nat → IdtEntry} {selector : UInt16} {address : Stub → UInt32}

theorem setGate_other {index other : Nat} {value : UInt32} {flags : UInt8}
    (different : other ≠ index) :
    setGate index value selector flags entries other = entries other :=
  Function.update_of_ne different ..

/-- The gates of several vectors. -/
theorem setGates_mem {ι : Type} {place : ι → Nat} (distinct : Function.Injective place)
    (value : ι → UInt32) (flags : UInt8) {i : ι} {list : List ι} (member : i ∈ list) :
    list.foldl (fun entries i => setGate (place i) (value i) selector flags entries) entries
      (place i) = gate (value i) selector flags := by
  induction list using List.reverseRecOn with
  | nil => cases member
  | append_singleton front last ih =>
      rw [List.foldl_append, List.foldl_cons, List.foldl_nil]
      by_cases isLast : i = last
      · subst isLast
        exact Function.update_self ..
      · rw [setGate_other fun same => isLast (distinct same)]
        rcases List.mem_append.mp member with inFront | inLast
        · exact ih inFront
        · exact absurd (List.mem_singleton.mp inLast) isLast

/-- The gate of the vector that the controllers give for a line. -/
theorem idtInit_line (small : line < 16) :
    (idtInit address selector entries (0x20 + line)).offset = address (stubOf line) := by
  unfold idtInit
  rw [setGate_other (by omega), setGate_other (by omega), setGate_other (by omega)]
  by_cases isTimer : line = 0
  · subst isTimer
    exact (congrArg IdtEntry.offset (Function.update_self ..)).trans (gate_offset ..)
  · have isVector : 0x20 + line = 0x21 + (⟨line - 1, by omega⟩ : Fin 15).val := by
      change _ = 0x21 + (line - 1)
      omega
    have distinct : Function.Injective fun i : Fin 15 => 0x21 + i.val :=
      fun i j same => Fin.ext (Nat.add_left_cancel same)
    rw [setGate_other (by omega), isVector,
      setGates_mem distinct (fun i => address (.irq i)) 0x8E (List.mem_finRange _), gate_offset,
      stubOf, dif_pos ⟨Nat.pos_of_ne_zero isTimer, small⟩]

/-! ## Runs -/

theorem picRemap_ended {pics : Pics} (ended : pics.Ended) :
    Irqs.Sound ⟨picRemap pics, fun _ _ => {}, []⟩ := by
  have isRemapped : ∃ master slave : Chip, picRemap pics = ⟨master, slave⟩ ∧
      master.awaits = .mask ∧ slave.awaits = .mask ∧ master.base = 0x20 ∧ slave.base = 0x28 ∧
      master.mask = 0xFE ∧ slave.mask = 0xFF ∧ master.inService = 0 ∧ slave.inService = 0 :=
    ⟨_, _, rfl, rfl, rfl, rfl, rfl, rfl, rfl, ended.1, ended.2⟩
  rcases isRemapped with ⟨master, slave, isRemapped, masterReady, slaveReady, masterBase,
    slaveBase, masterMask, slaveMask, masterEnded, slaveEnded⟩
  rw [isRemapped]
  have masked : ∀ line, line < 16 →
      (Pics.Masked ⟨master, slave⟩ line ↔ line ≠ 0) := by
    unfold Pics.Masked Chip.Masked
    rw [masterMask, slaveMask]
    decide
  constructor
  case ready => exact ⟨masterReady, slaveReady⟩
  case bases => exact ⟨masterBase, slaveBase⟩
  case ended => exact ⟨masterEnded, slaveEnded⟩
  case timer =>
    rw [masked 0 (by decide)]
    exact fun different => different rfl
  case cascade =>
    intro line isSlave small unmasked
    rw [masked line small] at unmasked
    exact absurd (show line ≠ 0 by omega) unmasked
  case lines =>
    intro line usable
    rw [masked line usable.2.2]
    exact iff_of_false (fun unmasked => unmasked usable.1) fun used => used.choose_spec rfl
  case distinct =>
    intro line i j _ used
    exact absurd rfl used

theorem Irqs.Sound.step (sound : s.Sound) (distinct : Function.Injective address)
    (step : LineStep address (idtInit address selector entries) s s') : s'.Sound := by
  cases step with
  | register => exact sound.register
  | unregister => exact sound.unregister
  | wires master slave =>
      exact ⟨⟨sound.ready.1, sound.ready.2⟩, sound.bases, sound.ended, sound.timer,
        sound.cascade, sound.lines, sound.distinct⟩
  | interrupt stub isStub =>
      rcases acknowledge_handled sound with ⟨line, small, isVector, handled⟩
      rw [isVector, idtInit_line small] at isStub
      rw [← distinct isStub]
      exact handled.sound sound

theorem LineReachable.sound (distinct : Function.Injective address)
    (reachable : LineReachable address (idtInit address selector entries) s) : s.Sound := by
  induction reachable with
  | start pics master slave => exact picRemap_ended ⟨master, slave⟩
  | step _ step ih => exact ih.step distinct step

/-- A line with an interrupt that is not spurious has a handler, unless it is the timer. -/
theorem Irqs.Sound.registered_ne_nil (sound : s.Sound) (taken : s.taken = some line)
    (notTimer : line ≠ 0) : registered (s.slots line) ≠ [] := by
  have unmasked : Usable line ∧ ¬s.pics.Masked line := by
    have notPending : ∀ {chip : Chip} {i : Nat}, highest chip.pending = some i →
        i < 8 ∧ ¬chip.Masked i := by
      intro chip i isHighest
      rcases highest_some isHighest with ⟨small, isPending⟩
      refine ⟨small, fun masked => ?_⟩
      rw [Chip.pending, UInt8.toNat_and, Nat.testBit_and, not_testBit small,
        show chip.mask.toNat.testBit i = true from masked, Bool.not_true, Bool.and_false]
        at isPending
      cases isPending
    unfold Irqs.taken at taken
    unfold Pics.Masked
    split at taken
    · cases taken
    · rename_i irq isMaster
      rcases notPending isMaster with ⟨small, unmasked⟩
      split at taken
      · rcases Option.map_eq_some_iff.mp taken with ⟨i, found, rfl⟩
        rcases notPending found with ⟨small, unmasked⟩
        rw [if_neg (by omega), Nat.add_sub_cancel_left]
        exact ⟨⟨by omega, by omega, show 8 + i < 16 by omega⟩, unmasked⟩
      · cases taken
        rw [if_pos small]
        exact ⟨⟨notTimer, ‹_›, Nat.lt_of_lt_of_le small (by decide)⟩, unmasked⟩
  rcases (sound.lines line unmasked.1).mp unmasked.2 with ⟨i, used⟩
  have member : s.slots line i ∈ registered (s.slots line) :=
    List.mem_filter.mpr ⟨List.mem_map.mpr ⟨i, List.mem_finRange i, rfl⟩, decide_eq_true used⟩
  exact List.ne_nil_of_mem member

theorem Irqs.Sound.registered_nodup (sound : s.Sound) (line : Nat) :
    (registered (s.slots line)).Nodup := by
  unfold registered
  rw [List.filter_map]
  refine List.Nodup.map_on ?_ ((List.nodup_finRange 4).filter _)
  intro i used j _ same
  exact sound.distinct line i j same (of_decide_eq_true (List.mem_filter.mp used).2)

/-- In every run an interrupt calls the handlers of its line, each once and in the order of
their slots, and there is one. A spurious interrupt calls none. Both end at the controllers. -/
theorem interrupt_delivered (distinct : Function.Injective address)
    (reachable : LineReachable address (idtInit address selector entries) s) {stub : Stub}
    (isStub : (idtInit address selector entries (acknowledge s.pics).1).offset =
      address stub) :
    (stub.run { s with pics := (acknowledge s.pics).2 }).calls = s.calls ++ s.expected ∧
      (stub.run { s with pics := (acknowledge s.pics).2 }).pics.Ended ∧
      (∀ line, s.taken = some line → line ≠ 0 → registered (s.slots line) ≠ []) ∧
      ∀ line, (registered (s.slots line)).Nodup := by
  have sound := reachable.sound distinct
  rcases acknowledge_handled sound with ⟨line, small, isVector, handled⟩
  rw [isVector, idtInit_line small] at isStub
  rw [← distinct isStub]
  exact ⟨handled.calls, handled.ended, fun _ => sound.registered_ne_nil,
    sound.registered_nodup⟩

/-! ### An interrupt of a network card -/

def codeAt : Stub → UInt32
  | .timer => 0
  | .yield => 1
  | .ignore => 2
  | .syscall => 3
  | .gpf => 4
  | .irq number => UInt32.ofNat (5 + number)

def stubAt (code : UInt32) : Stub :=
  if inside : code.toNat - 5 < 15 ∧ 5 ≤ code.toNat then .irq ⟨code.toNat - 5, inside.1⟩
  else if code = 0 then .timer
  else if code = 1 then .yield
  else if code = 2 then .ignore
  else if code = 3 then .syscall
  else .gpf

theorem codeAt_injective : Function.Injective codeAt := by
  apply Function.LeftInverse.injective (g := stubAt)
  intro stub
  cases stub with
  | irq number =>
      revert number
      decide
  | _ => rfl

def idleChip : Chip := ⟨.mask, 0, 0, 0, 0, false⟩

/-- One handler for line 11, which asks for an interrupt. -/
def cardRequest : Irqs :=
  let s : Irqs := ⟨picRemap ⟨idleChip, idleChip⟩, fun _ _ => {}, []⟩
  let s := (irqRegister 11 0x4000 0 s).2
  { s with
    pics :=
      { master := { s.pics.master with requests := 0x04 }
        slave := { s.pics.slave with requests := 0x08 } } }

def noGates : Nat → IdtEntry := fun _ => ⟨0, 0, 0, 0⟩

theorem cardRequest_reachable :
    LineReachable codeAt (idtInit codeAt 8 noGates) cardRequest :=
  .step (.step (.start ⟨idleChip, idleChip⟩ rfl rfl) (.register 11 0x4000 0)) (.wires 0x04 0x08)

theorem cardRequest_delivered :
    ((Stub.irq 10).run { cardRequest with pics := (acknowledge cardRequest.pics).2 }).calls =
        cardRequest.calls ++ cardRequest.expected ∧
      ((Stub.irq 10).run
        { cardRequest with pics := (acknowledge cardRequest.pics).2 }).pics.Ended ∧
      (∀ line, cardRequest.taken = some line → line ≠ 0 →
        registered (cardRequest.slots line) ≠ []) ∧
      ∀ line, (registered (cardRequest.slots line)).Nodup :=
  interrupt_delivered codeAt_injective cardRequest_reachable
    (@idtInit_line 11 _ _ _ (by decide))

end Katela.Interrupts
