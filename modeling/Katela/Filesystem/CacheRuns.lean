import Katela.Filesystem.Mounting

/-! # The FAT as an array

Behind one cached sector, and with any pattern of failing transfers, the functions on
the FAT behave as those on an array with one word for every entry. -/

namespace Katela.Filesystem

/-! ## Calls on the FAT -/

/-- A call of `fat_get`, `fat_set` or `fat_flush`. -/
inductive FatCall where
  | get (cluster : Nat)
  | set (cluster : Nat) (value : UInt32)
  | flush
  deriving DecidableEq, Repr

namespace FatCall

/-- The cluster that a call is for exists. -/
def InRange (count : Nat) : FatCall → Prop
  | .get cluster => 1 ≤ cluster ∧ cluster ≤ count
  | .set cluster _ => 1 ≤ cluster ∧ cluster ≤ count
  | .flush => True

/-- A call, with the value that it stores for its caller. -/
def run : FatCall → FsM (Option Nat)
  | .get cluster => do
      let value ← fatGet cluster
      return some value
  | .set cluster value => do
      fatSet cluster value.toNat
      return none
  | .flush => do
      fatFlush
      return none

def perform (call : FatCall) (s : Fs) : Except FsError (Option Nat) × Fs :=
  match call.run s with
  | .ok value s' => (.ok value, s')
  | .error error s' => (.error error, s')

end FatCall

/-- A call with its result. -/
structure FatEvent where
  call : FatCall
  result : Except FsError (Option Nat)

/-- Only a `fat_set` that succeeds changes the array. -/
def FatEvent.store (event : FatEvent) (array : Nat → Nat) : Nat → Nat :=
  match event.call, event.result with
  | .set cluster value, .ok _ => Function.update array cluster value.toNat
  | _, _ => array

/-- The array after some calls, the latest first. -/
def arrayAfter (mounted : Nat → Nat) : List FatEvent → Nat → Nat
  | [] => mounted
  | event :: earlier => event.store (arrayAfter mounted earlier)

/-- A run of calls from `start`, the latest first, with the state that it ends in. -/
inductive FatRun (start : Fs) : List FatEvent → Fs → Prop where
  | start : FatRun start [] start
  | call {events : List FatEvent} {s s' : Fs} {call : FatCall}
      {result : Except FsError (Option Nat)} (before : FatRun start events s)
      (inRange : call.InRange start.sb.clusterCount)
      (performed : call.perform s = (result, s')) :
      FatRun start (⟨call, result⟩ :: events) s'

/-! ## The array that a filesystem sees -/

/-- The filesystem sees the entries of `array`. -/
structure Caches (array : Nat → Nat) (s : Fs) : Prop where
  fits : FatFits s.sb
  coherent : Coherent s
  seen : ∀ index, fatAt s.image index = array index

section Calls

variable {array : Nat → Nat} {s s' : Fs}

theorem Caches.unmoved (caches : Caches array s) (moved : Moved s s' s.image) :
    Caches array s' where
  fits := moved.same.fatFits caches.fits
  coherent := moved.coherent
  seen index := by
    rw [moved.image_eq]
    exact caches.seen index

theorem Caches.set (caches : Caches array s) {cluster : Nat} {value : UInt32}
    (moved : Moved s s' (setFat s.image cluster value.toNat)) :
    Caches (Function.update array cluster value.toNat) s' where
  fits := moved.same.fatFits caches.fits
  coherent := moved.coherent
  seen index := by
    rw [moved.image_eq]
    by_cases here : index = cluster
    · rw [here, fatAt_setFat_self _ _ value.toNat_lt, Function.update_self]
    · rw [fatAt_setFat_other _ here, Function.update_of_ne here]
      exact caches.seen index

/-- What one call does, whichever transfers fail. -/
theorem FatCall.run_spec (caches : Caches array s) {call : FatCall}
    (inRange : call.InRange s.sb.clusterCount) :
    Meets call.run s
      (fun value s' => Same s s' ∧ Caches (FatEvent.store ⟨call, .ok value⟩ array) s' ∧
        (∀ cluster, call = .get cluster → value = some (array cluster)) ∧
        (call = .flush → s'.disk = s'.image))
      fun error s' => error = .io ∧ ¬ s.Quiet ∧ Same s s' ∧ Caches array s' := by
  have failing : ∀ (error : FsError) (s' : Fs),
      error = .io ∧ ¬ s.Quiet ∧ Moved s s' s.image →
      error = .io ∧ ¬ s.Quiet ∧ Same s s' ∧ Caches array s' := by
    rintro error s' ⟨isIo, loud, moved⟩
    exact ⟨isIo, loud, moved.same, caches.unmoved moved⟩
  cases call with
  | get cluster =>
      unfold run
      refine (fatGet_spec caches.fits caches.coherent inRange.1 inRange.2).seq ?_ failing
      rintro value s' ⟨moved, rfl⟩
      refine .pure ⟨moved.same, caches.unmoved moved, ?_, nofun⟩
      rintro other ⟨rfl⟩
      rw [caches.seen]
  | set cluster value =>
      unfold run
      refine (fatSet_spec caches.fits caches.coherent inRange.1 inRange.2 _).seq ?_ failing
      rintro _ s' moved
      exact .pure ⟨moved.same, caches.set moved, nofun, nofun⟩
  | flush =>
      unfold run
      refine (fatFlush_spec caches.fits caches.coherent).seq ?_ failing
      rintro _ s' ⟨moved, _, written, _⟩
      exact .pure ⟨moved.same, caches.unmoved moved, nofun,
        fun _ => written.trans moved.image_eq.symm⟩

end Calls

/-! ## Runs -/

/-- The FAT of every superblock that the check accepts. -/
theorem Accepted.fatFits {diskSectors : Nat} {sb : SuperBlock}
    (accepted : Accepted diskSectors sb) (device : diskSectors < wordSize) :
    FatFits sb := by
  have isWord : wordSize = 2 ^ 32 := rfl
  have isStart : fsLbaStart = 4096 := rfl
  have isPer : fatPerSector = 128 := rfl
  have product : sb.clusterCount * sb.clusterSectors ≤ sb.totalSectors :=
    (Nat.le_div_iff_mul_le (Nat.pos_of_ne_zero accepted.nonzero)).mp accepted.count
  have count : sb.clusterCount ≤ sb.clusterCount * sb.clusterSectors :=
    Nat.le_mul_of_pos_right _ (Nat.pos_of_ne_zero accepted.nonzero)
  have total := accepted.total
  have isFat : sb.fatSectors = sb.clusterCount / fatPerSector + 1 := by
    rw [accepted.fat]
    unfold fatSectorsFor
    rw [isPer, Nat.mod_eq_of_lt (by omega)]
    omega
  refine ⟨isFat, ?_⟩
  rw [isFat, isPer]
  omega

section Runs

variable {before start s : Fs} {events : List FatEvent}

/-- A mounted filesystem sees the entries on the disk. -/
theorem mountNow_caches (device : before.diskSectors < wordSize)
    (mounts : mountNow before = .ok () start) :
    Caches (fatAt start.disk) start ∧ start.fails = before.fails := by
  rcases (mountNow_spec before).ok_of_run mounts with ⟨mountable, rfl⟩
  have accepted := superblockCheck_iff.mp mountable.accepted
  refine ⟨⟨accepted.fatFits device, ?_, ?_⟩, rfl⟩
  · exact ⟨Or.inl rfl, fun _ cached => absurd rfl cached, nofun⟩
  · intro index
    rw [Fs.image_of_clean rfl]

/-- Along a run the filesystem sees the array. -/
theorem FatRun.caches (caches : Caches (fatAt start.disk) start)
    (run : FatRun start events s) :
    Caches (arrayAfter (fatAt start.disk) events) s ∧ Same start s := by
  induction run with
  | start => exact ⟨caches, .refl start⟩
  | @call events s s' call result earlier inRange performed induction =>
      rcases induction with ⟨caches', same⟩
      rw [← same.sb] at inRange
      have spec := FatCall.run_spec caches' inRange
      unfold FatCall.perform at performed
      cases runs : call.run s with
      | ok value after =>
          rw [runs] at performed
          cases performed
          rcases spec.ok_of_run runs with ⟨same', after', _⟩
          exact ⟨after', same.trans same'⟩
      | error error after =>
          rw [runs] at performed
          cases performed
          rcases spec.error_of_run runs with ⟨_, _, same', after'⟩
          refine ⟨?_, same.trans same'⟩
          have unchanged : arrayAfter (fatAt start.disk)
              (⟨call, .error error⟩ :: events) =
              arrayAfter (fatAt start.disk) events := by
            cases call <;> rfl
          rw [unchanged]
          exact after'

/-- The latest call of any run on a mounted filesystem has the result that it has on an
array. What the filesystem sees afterwards is the array, and a flush that succeeds
leaves the array on the disk. -/
theorem fatCache_transparent {call : FatCall} {result : Except FsError (Option Nat)}
    (device : before.diskSectors < wordSize) (mounts : mountNow before = .ok () start)
    (run : FatRun start (⟨call, result⟩ :: events) s) :
    (∀ cluster value, call = .get cluster → result = .ok value →
      value = some (arrayAfter (fatAt start.disk) events cluster)) ∧
    (∀ error, result = .error error → error = .io ∧ ¬ before.Quiet) ∧
    (∀ index, fatAt s.image index =
      arrayAfter (fatAt start.disk) (⟨call, result⟩ :: events) index) ∧
    (∀ value, call = .flush → result = .ok value →
      ∀ index, fatAt s.disk index = arrayAfter (fatAt start.disk) events index) := by
  rcases mountNow_caches device mounts with ⟨mounted, isFails⟩
  have after := (run.caches mounted).1
  rcases run with _ | ⟨earlier, inRange, performed⟩
  rename_i middle
  rcases earlier.caches mounted with ⟨caches, same⟩
  rw [← same.sb] at inRange
  have spec := FatCall.run_spec caches inRange
  unfold FatCall.perform at performed
  cases runs : call.run middle with
  | ok value s' =>
      rw [runs] at performed
      cases performed
      rcases spec.ok_of_run runs with ⟨_, _, got, flushed⟩
      refine ⟨?_, nofun, after.seen, ?_⟩
      · rintro cluster value' isGet ⟨rfl⟩
        exact got cluster isGet
      · rintro value' isFlush _ index
        subst isFlush
        rw [flushed rfl]
        exact after.seen index
  | error error s' =>
      rw [runs] at performed
      cases performed
      rcases spec.error_of_run runs with ⟨isIo, loud, _⟩
      refine ⟨nofun, ?_, after.seen, nofun⟩
      rintro error' ⟨rfl⟩
      refine ⟨isIo, fun quiet => loud ?_⟩
      apply same.quiet
      unfold Fs.Quiet
      rw [isFails]
      exact quiet

/-- After an entry was set, on a new filesystem, its value is read. -/
theorem fatCache_transparent_new :
    ∃ (before start s : Fs) (result : Except FsError (Option Nat)),
      mountNow before = .ok () start ∧
      FatRun start [⟨.get 1, .ok (some 7)⟩, ⟨.set 1 7, result⟩] s ∧
      fatAt s.image 1 = 7 := by
  rcases blank_formatted with ⟨before, formatted, quiet, isTotal⟩
  rcases formatted.ready with ⟨F, _, _, _, ready, _⟩
  have inv := ready.between.inv
  have isLabel : before.disk 0 = F.label := by
    rw [← Fs.image_of_clean (ready.clean quiet)]
    exact inv.label
  have device : before.diskSectors < wordSize := by
    rw [ready.device, isTotal]
    decide
  have mountable := mountable_of_label isLabel inv.total
  rw [← ready.device] at mountable
  have mounts := mountNow_remounts quiet mountable
  have inRange : 1 ≤ 1 ∧ 1 ≤ before.label.clusterCount := by
    rw [label_eq isLabel]
    exact ⟨Nat.le_refl 1, Nat.le_trans F.geometry.root_pos F.geometry.root_le⟩
  rcases sets : FatCall.perform (.set 1 7) before.remounted with ⟨setResult, s1⟩
  have first : FatRun before.remounted [⟨.set 1 7, setResult⟩] s1 :=
    .call .start inRange sets
  cases setResult with
  | error error =>
      exact absurd quiet ((fatCache_transparent device mounts first).2.1 error rfl).2
  | ok value =>
      rcases gets : FatCall.perform (.get 1) s1 with ⟨getResult, s2⟩
      have second : FatRun before.remounted
          [⟨.get 1, getResult⟩, ⟨.set 1 7, .ok value⟩] s2 := .call first inRange gets
      have facts := fatCache_transparent device mounts second
      cases getResult with
      | error error => exact absurd quiet (facts.2.1 error rfl).2
      | ok got =>
          have isSeven : got = some 7 := facts.1 1 got rfl rfl
          subst isSeven
          exact ⟨before, _, s2, _, mounts, second, facts.2.2.1 1⟩

end Runs

end Katela.Filesystem
