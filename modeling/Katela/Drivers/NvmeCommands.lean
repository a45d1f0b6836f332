import Katela.Drivers.Nvme
import Katela.Drivers.NvmeQueue

/-! # The commands of a run

The calls of the NVMe driver from the start on: what `execute` returns, and that nothing
is submitted after a command that was not completed in time. -/

namespace Katela.Drivers

/-- A command was not completed in time. -/
def Response.isTimeout : Response → Bool
  | .timeout _ _ => true
  | _ => false

/-- All commands were completed in time. -/
def Quiet (controller : Controller) (nvme : Nvme) : Prop :=
  ∀ number, number < nvme.submitted.length →
    (controller.respond number).isTimeout = false

/-- The driver has given up, and only its last command may have timed out. -/
def Halted (controller : Controller) (nvme : Nvme) : Prop :=
  nvme.state = .failed ∧ ∀ number, number < nvme.submitted.length →
    (controller.respond number).isTimeout = true → number + 1 = nvme.submitted.length

/-- What a function that stops at the first failure leaves. -/
structure Stops (controller : Controller) (result : Bool × Nvme) : Prop where
  quiet : result.1 = true → Quiet controller result.2
  halted : Quiet controller result.2 ∨ Halted controller result.2

section Functions

variable {controller : Controller} {nvme : Nvme}

theorem Quiet.stops (quiet : Quiet controller nvme) (done : Bool) :
    Stops controller (done, nvme) :=
  ⟨fun _ => quiet, Or.inl quiet⟩

theorem Stops.failed {done : Bool} (stops : Stops controller (done, nvme)) :
    Stops controller (false, nvme) :=
  ⟨fun impossible => (by cases impossible), stops.halted⟩

/-- Settings and memories have nothing to do with it. -/
theorem Quiet.of_submitted {other : Nvme} (quiet : Quiet controller nvme)
    (same : other.submitted = nvme.submitted) : Quiet controller other := by
  unfold Quiet
  rw [same]
  exact quiet

theorem Quiet.append {other : Nvme} {command : Submission}
    (quiet : Quiet controller nvme)
    (isNext : other.submitted = nvme.submitted ++ [command])
    (inTime : (controller.respond nvme.submitted.length).isTimeout = false) :
    Quiet controller other := by
  intro number inside
  rw [isNext, List.length_append, List.length_singleton] at inside
  by_cases isLast : number = nvme.submitted.length
  · rw [isLast]
    exact inTime
  · exact quiet number (by omega)

theorem execute_stops (quiet : Quiet controller nvme) (command : Submission) :
    Stops controller (execute controller nvme command) := by
  unfold execute
  dsimp only
  cases isResponse : controller.respond nvme.submitted.length with
  | success =>
      have inTime : (controller.respond nvme.submitted.length).isTimeout = false := by
        rw [isResponse]
        rfl
      have isNext : (perform controller
          { nvme with submitted := nvme.submitted ++ [command] } command).submitted =
          nvme.submitted ++ [command] := by
        cases command with
        | io opcode block blocks =>
            cases opcode with
            | read => rfl
            | write => rfl
        | _ => rfl
      exact (quiet.append isNext inTime).stops true
  | failure disk bounce =>
      have inTime : (controller.respond nvme.submitted.length).isTimeout = false := by
        rw [isResponse]
        rfl
      have isQuiet : Quiet controller { nvme with
          submitted := nvme.submitted ++ [command], disk, bounce } :=
        quiet.append rfl inTime
      exact isQuiet.stops false
  | timeout disk bounce =>
      refine ⟨fun impossible => (by cases impossible), Or.inr ⟨rfl, ?_⟩⟩
      intro number inside isTimeout
      dsimp only at inside ⊢
      rw [List.length_append, List.length_singleton] at inside ⊢
      by_cases isLast : number = nvme.submitted.length
      · rw [isLast]
      · rw [quiet number (by omega)] at isTimeout
        cases isTimeout

theorem identify_stops (quiet : Quiet controller nvme) (cns nsid : Nat) :
    Stops controller (identify controller nvme cns nsid) := by
  have cleared : Quiet controller { nvme with identifyBuf := fun _ => 0 } :=
    quiet.of_submitted rfl
  exact execute_stops cleared (.identify cns nsid)

theorem createIoQueues_stops (quiet : Quiet controller nvme) :
    Stops controller (createIoQueues controller nvme) := by
  have first := execute_stops quiet .createCq
  unfold createIoQueues
  dsimp only
  split
  · next done => exact execute_stops (first.quiet done) .createSq
  · exact first.failed

theorem readNamespace_stops (quiet : Quiet controller nvme) :
    Stops controller (readNamespace controller nvme) := by
  have first := identify_stops quiet 0 1
  unfold readNamespace
  dsimp only
  split
  · next done =>
      split
      · exact first.failed
      · next lbaShift totalSectors _ =>
          have isQuiet : Quiet controller
              { (identify controller nvme 0 1).2 with lbaShift, totalSectors } :=
            (first.quiet done).of_submitted rfl
          exact isQuiet.stops true
  · exact first.failed

theorem controllerInit_stops (quiet : Quiet controller nvme) :
    Stops controller (controllerInit controller nvme) := by
  have first := identify_stops quiet 1 0
  unfold controllerInit
  dsimp only
  split
  · split
    · next done =>
        have isQuiet : Quiet controller { (identify controller nvme 1 0).2 with
            maxTransfer := transferLimit ((identify controller nvme 1 0).2.identifyBuf 77) } :=
          (first.quiet done).of_submitted rfl
        have second := readNamespace_stops isQuiet
        split
        · next done => exact createIoQueues_stops (second.quiet done)
        · exact second.failed
    · exact first.failed
  · exact quiet.stops false

theorem writeRound_stops (quiet : Quiet controller nvme) (round : Round)
    (buffer : Memory) (position : Nat) :
    Stops controller (writeRound controller nvme round buffer position) := by
  unfold writeRound
  dsimp only
  have first : Stops controller
      (if round.isPartial then runIo controller nvme .read round.block round.blocks
      else (true, nvme)) := by
    split
    · exact execute_stops quiet _
    · exact quiet.stops true
  generalize (if round.isPartial then runIo controller nvme .read round.block round.blocks
    else (true, nvme)) = read at first ⊢
  split
  · next done =>
      have isQuiet : Quiet controller { read.2 with
          bounce := copyBytes read.2.bounce (round.offset <<< 9) buffer position
            (round.span <<< 9) } := (first.quiet done).of_submitted rfl
      exact execute_stops isQuiet _
  · exact first.failed

/-- The same for a transfer. -/
structure TransferStops (controller : Controller) (result : Transferred) : Prop where
  quiet : result.outcome = .ok → Quiet controller result.nvme
  halted : Quiet controller result.nvme ∨ Halted controller result.nvme

theorem transferLoop_stops (write : Bool) (rounds : Nat) :
    ∀ {nvme : Nvme} (lba count : Nat) (buffer : Memory) (position : Nat),
      Quiet controller nvme → TransferStops controller
        (transferLoop controller write rounds nvme lba count buffer position) := by
  induction rounds with
  | zero =>
      intro nvme lba count buffer position quiet
      exact ⟨fun impossible => (by cases impossible), Or.inl quiet⟩
  | succ rounds ih =>
      intro nvme lba count buffer position quiet
      unfold transferLoop
      dsimp only
      split
      · split
        · have stops := writeRound_stops quiet
            (planRound nvme.lbaShift nvme.maxTransfer lba count) buffer position
          split
          · next done => exact ih _ _ _ _ (stops.quiet done)
          · exact ⟨fun impossible => (by cases impossible), stops.halted⟩
        · have stops : Stops controller (runIo controller nvme .read
              (planRound nvme.lbaShift nvme.maxTransfer lba count).block
              (planRound nvme.lbaShift nvme.maxTransfer lba count).blocks) :=
            execute_stops quiet _
          split
          · next done => exact ih _ _ _ _ (stops.quiet done)
          · exact ⟨fun impossible => (by cases impossible), stops.halted⟩
      · exact ⟨fun _ => quiet, Or.inl quiet⟩

theorem transfer_stops (quiet : Quiet controller nvme) (write : Bool) (lba count : Nat)
    (buffer : Memory) :
    TransferStops controller (transfer controller nvme write lba count buffer) := by
  unfold transfer
  split
  · exact ⟨fun impossible => (by cases impossible), Or.inl quiet⟩
  · exact transferLoop_stops write (count + 1) lba count buffer 0 quiet

/-- A driver that has given up, or whose commands were all completed in time, is still
one of the two after the state of the driver was looked up, and in the second case only
if there are sectors to transfer. -/
theorem nvmeTotalSectors_stops
    (halted : Quiet controller nvme ∨ Halted controller nvme) :
    (Quiet controller (nvmeTotalSectors controller nvme).2 ∨
        Halted controller (nvmeTotalSectors controller nvme).2) ∧
      ((nvmeTotalSectors controller nvme).1 ≠ 0 →
        Quiet controller (nvmeTotalSectors controller nvme).2) := by
  unfold nvmeTotalSectors
  dsimp only
  by_cases isUntried : nvme.state = .untried
  · rw [if_pos isUntried]
    have quiet : Quiet controller nvme := by
      rcases halted with isQuiet | ⟨isFailed, _⟩
      · exact isQuiet
      · rw [isUntried] at isFailed
        cases isFailed
    have stops := controllerInit_stops quiet
    generalize controllerInit controller nvme = result at stops ⊢
    rcases result with ⟨done, known⟩
    cases done with
    | true =>
        have isQuiet : Quiet controller { known with state := .ready } :=
          (stops.quiet rfl).of_submitted rfl
        exact ⟨Or.inl isQuiet, fun _ => isQuiet⟩
    | false =>
        refine ⟨Or.inr ⟨rfl, ?_⟩, fun nonzero => absurd rfl nonzero⟩
        rcases stops.halted with isQuiet | isHalted
        · intro number inside isTimeout
          rw [isQuiet number inside] at isTimeout
          cases isTimeout
        · exact isHalted.2
  · rw [if_neg isUntried]
    refine ⟨halted, fun nonzero => ?_⟩
    rcases halted with isQuiet | ⟨isFailed, _⟩
    · exact isQuiet
    · rw [isFailed] at nonzero
      exact absurd rfl nonzero

end Functions

/-! ## Runs -/

inductive NvmeCall where
  | totalSectors
  | read (lba count : Nat) (buffer : Memory)
  | write (lba count : Nat) (buffer : Memory)

/-- The driver after a call. -/
def nvmeCall (controller : Controller) (nvme : Nvme) : NvmeCall → Nvme
  | .totalSectors => (nvmeTotalSectors controller nvme).2
  | .read lba count buffer => (nvmeReadSectors controller nvme lba count buffer).nvme
  | .write lba count buffer => (nvmeWriteSectors controller nvme lba count buffer).nvme

theorem nvmeCall_stops {controller : Controller} {nvme : Nvme}
    (halted : Quiet controller nvme ∨ Halted controller nvme) (call : NvmeCall) :
    Quiet controller (nvmeCall controller nvme call) ∨
      Halted controller (nvmeCall controller nvme call) := by
  have total := nvmeTotalSectors_stops halted
  cases call with
  | totalSectors => exact total.1
  | read lba count buffer =>
      simp only [nvmeCall, nvmeReadSectors]
      split
      · exact total.1
      · next nonzero => exact (transfer_stops (total.2 nonzero) false lba count buffer).halted
  | write lba count buffer =>
      simp only [nvmeCall, nvmeWriteSectors]
      split
      · exact total.1
      · next nonzero =>
          have stops := transfer_stops (total.2 nonzero) true lba count buffer
          split
          · next isOk => exact (execute_stops (stops.quiet isOk) .flush).halted
          · exact stops.halted

theorem nvmeCalls_stop (controller : Controller) (calls : List NvmeCall) :
    ∀ {nvme : Nvme}, Quiet controller nvme ∨ Halted controller nvme →
      Quiet controller (calls.foldl (nvmeCall controller) nvme) ∨
        Halted controller (calls.foldl (nvmeCall controller) nvme) := by
  induction calls with
  | nil => exact fun halted => halted
  | cons call calls ih => exact fun halted => ih (nvmeCall_stops halted call)

/-- However the driver and the controller take turns, a call of `execute` returns on the
completion of its own command and succeeds exactly if the status of that command is
zero. Over all calls of the driver, a command that timed out is the last one. -/
theorem nvme_protocol :
    (∀ pair, QueueReached pair →
      (∀ (number : Nat) result, pair.returned[number]? = some result →
        ∃ status, pair.posted[number]? = some status ∧ result.postedFor = some number ∧
          (result.success = true ↔ status >>> 1 = 0)) ∧
      (∀ id, pair.driver = .poll id →
        ((pair.cq pair.cqHead).status &&& 1 = pair.phase ↔
          pair.posted.length = pair.submitted.length)) ∧
      (pair.driver = .idle → pair.sqTail = pair.cqHead) ∧
      pair.submitted.length ≤ pair.posted.length + 1) ∧
    (∀ (controller : Controller) (nvme : Nvme) (calls : List NvmeCall),
      nvme.submitted = [] →
      ∀ number, number < (calls.foldl (nvmeCall controller) nvme).submitted.length →
        (controller.respond number).isTimeout = true →
        number + 1 = (calls.foldl (nvmeCall controller) nvme).submitted.length) := by
  refine ⟨fun pair reached => ?_, fun controller nvme calls nothing => ?_⟩
  · have agreed := reached_agreed reached
    have counts := agreed.counts
    exact ⟨agreed.results, fun id isPolling => agreed.poll_iff isPolling,
      agreed.sqTail_eq_cqHead, by omega⟩
  · intro number inside isTimeout
    have start : Quiet controller nvme := by
      intro number impossible
      rw [nothing] at impossible
      exact absurd impossible (Nat.not_lt_zero _)
    rcases nvmeCalls_stop controller calls (Or.inl start) with isQuiet | isHalted
    · rw [isQuiet number inside] at isTimeout
      cases isTimeout
    · exact isHalted.2 number inside isTimeout

end Katela.Drivers
