import Katela.Filesystem.Cache
import Katela.Foundation.Loops

/-! # Walks through the directory end

`dir_lookup` and `fs_iter_next` follow a chain of clusters that they find on the disk.
Whatever the disk holds, also a chain that runs in a circle, their loops end: both count
the clusters that they have passed. -/

namespace Katela.Filesystem

/-! ## Functions that leave the static variables alone -/

section Still

variable (t : Fs)

theorem blockRead_still (sector : Nat) : Keeps (Still t) (blockRead sector) := by
  intro s still
  have requested : Still t (s.request sector none) :=
    still.trans ⟨⟨rfl, rfl, rfl, rfl, rfl, rfl, List.suffix_refl _⟩, rfl, rfl⟩
  refine (blockRead_spec s sector).mono ?_ ?_
  · rintro _ s' ⟨_, rfl⟩
    exact requested
  · rintro _ s' ⟨_, _, rfl⟩
    exact requested

theorem fatFlush_still : Keeps (Still t) fatFlush := by
  intro s still
  unfold fatFlush
  refine .bind (.get (.ite (fun _ => ?_) fun _ => .pure still))
  refine (blockWrite_spec s .fat _ _).seq ?_ ?_
  · rintro _ s' rfl
    exact .modify (still.trans
      ⟨⟨rfl, rfl, rfl, rfl, rfl, rfl, List.suffix_cons _ _⟩, rfl, rfl⟩)
  · rintro _ s' ⟨_, _, rfl⟩
    exact still.trans ⟨⟨rfl, rfl, rfl, rfl, rfl, rfl, List.suffix_refl _⟩, rfl, rfl⟩

theorem fatLoad_still (sector : Nat) : Keeps (Still t) (fatLoad sector) := by
  unfold fatLoad
  refine .bind .get fun s => .ite (.pure ()) (.bind (fatFlush_still t) fun _ => ?_)
  intro s1 still
  unfold fatFill
  refine .bind (.attempt ((blockRead_still t sector s1 still).mono ?_ ?_))
  · intro contents s2 still2
    exact .modify ⟨⟨still2.same.sb, still2.same.mounted, still2.same.diskSectors,
      still2.same.clusterShift, still2.same.total, still2.same.fails, still2.same.grows⟩,
      still2.files, still2.iters⟩
  · intro error s2 still2
    exact .bind (.modify (.throw ⟨⟨still2.same.sb, still2.same.mounted,
      still2.same.diskSectors, still2.same.clusterShift, still2.same.total,
      still2.same.fails, still2.same.grows⟩, still2.files, still2.iters⟩))

end Still

/-! ## Looking up a name -/

/-- The local variables of `dir_lookup`. -/
structure LookupLocals where
  cluster : Nat
  steps : Nat
  res : LookupResult

/-- One round of the loop of `dir_lookup`. -/
def lookupRound (name : CString) (locals : LookupLocals) :
    FsM (LookupLocals ⊕ LookupResult) :=
  if locals.cluster = 0 then return .inr locals.res
  else do
    let s ← get
    let res ← scanSectors name (2 ^ s.clusterShift) (clusterSector s locals.cluster)
      { locals.res with lastCluster := locals.cluster }
    if res.found.isSome then return .inr res
    else do
      let next ← chainNext locals.cluster
      require (locals.steps + 1 ≤ s.sb.clusterCount) .corrupt
      return .inl ⟨next, locals.steps + 1, res⟩

/-- The local variables of `dir_lookup` before its loop. -/
def lookupStart (s : Fs) : LookupLocals where
  cluster := s.sb.rootCluster
  steps := 0
  res := { lastCluster := s.sb.rootCluster }

/-- The rounds that `dir_lookup` may still run. -/
def LookupEnough (rounds : Nat) (locals : LookupLocals) (s : Fs) : Prop :=
  1 ≤ rounds ∧ locals.steps + rounds = s.sb.clusterCount + 1

section Lookup

variable {name : CString} {locals : LookupLocals} {s : Fs} {left : Nat}

/-- The last of the rounds that are left gives up instead of going on. -/
theorem lookupLoop_round (enough : locals.steps + left = s.sb.clusterCount) :
    lookupLoop name left locals.cluster locals.res s =
      (lookupRound name locals >>= afterRound fun locals' => fun s' =>
        lookupLoop name (left - 1) locals'.cluster locals'.res s') s := by
  conv =>
    lhs
    unfold lookupLoop
  unfold lookupRound
  by_cases zero : locals.cluster = 0
  · simp only [if_pos zero, pure_bind, afterRound]
  · simp only [if_neg zero, bind_assoc, get_bind_run]
    refine congrFun (congrArg (scanSectors name _ _ _ >>= ·) (funext fun res => ?_)) s
    by_cases found : res.found.isSome = true
    · simp only [if_pos found, pure_bind, afterRound]
    · simp only [if_neg found, bind_assoc]
      refine congrArg (chainNext locals.cluster >>= ·) (funext fun next => ?_)
      cases left with
      | zero =>
          simp only [require, if_neg (show ¬ locals.steps + 1 ≤ s.sb.clusterCount by omega)]
          rfl
      | succ left =>
          simp only [require, if_pos (show locals.steps + 1 ≤ s.sb.clusterCount by omega)]
          rfl

theorem lookupRound_enough {rounds : Nat} (enough : LookupEnough (rounds + 1) locals s) :
    Meets (lookupRound name locals) s
      (fun outcome s' => ∀ locals', outcome = .inl locals' → LookupEnough rounds locals' s')
      fun _ _ => True := by
  unfold lookupRound
  refine .ite (fun _ => .pure nofun) fun _ => .bind (.get ?_)
  refine (scanSectors_keeps (blockRead_still s) name _ _ _ s (.refl s)).seq ?_ fun _ _ _ => trivial
  intro res s1 still1
  refine .ite (fun _ => .pure nofun) fun _ => ?_
  refine (chainNext_keeps (fatLoad_still s) _ s1 still1).seq ?_ fun _ _ _ => trivial
  intro next s2 still2
  refine .bind (.require (fun within => .pure ?_) fun _ => trivial)
  rintro _ ⟨rfl⟩
  unfold LookupEnough at enough ⊢
  rw [still2.same.sb]
  exact ⟨by omega, by dsimp only; omega⟩

/-- The loop of `dir_lookup` ends on every disk. -/
theorem dirLookup_loops (name : CString) (s : Fs) :
    Loops (lookupRound name) (lookupStart s) s (dirLookup name s) := by
  refine @Loops.of_rounds _ _ _ _ _
    (fun rounds locals => lookupLoop name (rounds - 1) locals.cluster locals.res)
    LookupEnough ?_ ?_ (s.sb.clusterCount + 1) _ _ ?_
  · rintro locals s ⟨impossible, _⟩
    cases impossible
  · intro rounds locals s enough
    refine ⟨lookupLoop_round ?_, lookupRound_enough enough⟩
    have isRounds := enough.2
    omega
  · exact ⟨Nat.le_add_left 1 _, Nat.zero_add _⟩

end Lookup

/-! ## The next entry -/

/-- One round of the loop of `fs_iter_next`. -/
def iterRound (iter : Nat) (_ : Unit) : FsM (Unit ⊕ Option FsInfo) := do
  let s ← get
  let it := s.iters iter
  if it.cluster = 0 then return .inr none
  else do
    let contents ← blockRead (clusterSector s it.cluster + it.sector)
    match nextUsed contents (slotsPerSector - it.slot) it.slot with
    | some slot => do
        modify fun s => s.setIter iter fun it => { it with slot := slot + 1 }
        return .inr (some (infoOf (entryAt contents slot)))
    | none => do
        iterAdvance iter
        return .inl ()

/-- Where an iterator can be between two rounds. -/
structure IterAt (s : Fs) (it : FsIter) : Prop where
  steps : it.steps ≤ s.sb.clusterCount
  sector : it.sector < 2 ^ s.clusterShift
  slot : it.slot ≤ slotsPerSector

/-- The sectors that an iterator can still come to. -/
def sectorsLeft (s : Fs) (it : FsIter) : Nat :=
  (s.sb.clusterCount + 1 - it.steps) * 2 ^ s.clusterShift - it.sector

/-- The slots that an iterator can still come to. -/
def slotsLeft (s : Fs) (it : FsIter) : Nat :=
  sectorsLeft s it * slotsPerSector - it.slot

section Iterators

variable {s s' : Fs} {iter : Nat} {it it' : FsIter}

theorem Same.iterAt (same : Same s s') : IterAt s' it ↔ IterAt s it := by
  constructor
  · rintro ⟨steps, sector, slot⟩
    rw [same.sb] at steps
    rw [same.clusterShift] at sector
    exact ⟨steps, sector, slot⟩
  · rintro ⟨steps, sector, slot⟩
    rw [← same.sb] at steps
    rw [← same.clusterShift] at sector
    exact ⟨steps, sector, slot⟩

theorem Same.sectorsLeft (same : Same s s') : sectorsLeft s' it = sectorsLeft s it := by
  simp only [Filesystem.sectorsLeft, same.sb, same.clusterShift]

theorem Same.slotsLeft (same : Same s s') : slotsLeft s' it = slotsLeft s it := by
  simp only [Filesystem.slotsLeft, same.sectorsLeft]

theorem IterAt.sectorsLeft_pos (placed : IterAt s it) : 1 ≤ sectorsLeft s it := by
  have steps := placed.steps
  have sector := placed.sector
  have some : 2 ^ s.clusterShift ≤
      (s.sb.clusterCount + 1 - it.steps) * 2 ^ s.clusterShift :=
    Nat.le_mul_of_pos_left _ (by omega)
  unfold sectorsLeft
  omega

/-- The first sector of the next cluster comes after every sector of this one. -/
theorem sectorsLeft_succ (placed : IterAt s it) (cluster : Nat) :
    sectorsLeft s ⟨cluster, 0, 0, it.steps + 1⟩ < sectorsLeft s it := by
  have steps := placed.steps
  have sector := placed.sector
  have split : s.sb.clusterCount + 1 - it.steps =
      s.sb.clusterCount + 1 - (it.steps + 1) + 1 := by omega
  unfold sectorsLeft
  rw [split, Nat.add_mul]
  dsimp only
  omega

theorem setIter_same (s : Fs) (iter : Nat) (change : FsIter → FsIter) :
    Same s (s.setIter iter change) :=
  ⟨rfl, rfl, rfl, rfl, rfl, rfl, List.suffix_refl _⟩

@[simp] theorem setIter_iters (s : Fs) (iter : Nat) (change : FsIter → FsIter) :
    (s.setIter iter change).iters iter = change (s.iters iter) := by
  simp [Fs.setIter]

theorem iterAdvance_spec (placed : IterAt s (s.iters iter)) :
    Meets (iterAdvance iter) s
      (fun _ s' => Same s s' ∧ IterAt s' (s'.iters iter) ∧
        sectorsLeft s' (s'.iters iter) < sectorsLeft s (s.iters iter))
      fun _ _ => True := by
  have sector := placed.sector
  unfold iterAdvance
  refine .bind (.modify (.bind (.get (.ite (fun last => ?_) fun more => ?_))))
  · refine .bind (.modify ?_)
    refine (chainNext_keeps (fatLoad_still _) _ _ (.refl _)).seq ?_ fun _ _ _ => trivial
    intro next s1 still
    refine .bind (.modify (.bind (.get (.require (fun within => ?_) fun _ => trivial))))
    have same : Same s (s1.setIter iter fun it =>
        { it with cluster := next, steps := it.steps + 1 }) :=
      (((setIter_same _ _ _).trans (setIter_same _ _ _)).trans still.same).trans
        (setIter_same _ _ _)
    have isIter : (s1.setIter iter fun it =>
        { it with cluster := next, steps := it.steps + 1 }).iters iter =
          ⟨next, 0, 0, (s.iters iter).steps + 1⟩ := by
      rw [setIter_iters, still.iters, setIter_iters, setIter_iters]
    rw [isIter] at within ⊢
    rw [same.sb] at within
    refine ⟨same, same.iterAt.mpr ⟨within, Nat.two_pow_pos _, Nat.zero_le _⟩, ?_⟩
    rw [same.sectorsLeft]
    exact sectorsLeft_succ placed next
  · simp only [setIter_iters, ge_iff_le, not_le] at more
    have same := setIter_same s iter fun it => { it with slot := 0, sector := it.sector + 1 }
    refine .pure ⟨same, same.iterAt.mpr ?_, ?_⟩
    · rw [setIter_iters]
      exact ⟨placed.steps, more, Nat.zero_le _⟩
    · have some := placed.sectorsLeft_pos
      rw [same.sectorsLeft, setIter_iters]
      unfold sectorsLeft at some ⊢
      dsimp only
      omega

theorem nextUsed_bounds {contents : Sector} {rounds : Nat} :
    ∀ {slot found : Nat}, nextUsed contents rounds slot = some found →
      slot ≤ found ∧ found < slot + rounds := by
  induction rounds with
  | zero =>
      intro slot found impossible
      cases impossible
  | succ rounds induction =>
      intro slot found isFound
      unfold nextUsed at isFound
      split at isFound
      · cases isFound
        omega
      · have bounds := induction isFound
        omega

/-- Every round comes closer to the end of the directory. -/
theorem iterRound_spec (placed : IterAt s (s.iters iter)) :
    Meets (iterRound iter ()) s
      (fun outcome s' => Same s s' ∧ match outcome with
        | .inl _ => IterAt s' (s'.iters iter) ∧
            sectorsLeft s' (s'.iters iter) < sectorsLeft s (s.iters iter)
        | .inr none => True
        | .inr (some _) => IterAt s' (s'.iters iter) ∧
            slotsLeft s' (s'.iters iter) < slotsLeft s (s.iters iter))
      fun _ _ => True := by
  unfold iterRound
  refine .bind (.get (.ite (fun _ => .pure ⟨.refl s, trivial⟩) fun _ => ?_))
  refine (blockRead_still s _ s (.refl s)).seq ?_ fun _ _ _ => trivial
  intro contents s1 still
  have placed1 : IterAt s1 (s1.iters iter) := by
    rw [still.iters]
    exact still.same.iterAt.mpr placed
  cases found : nextUsed contents (slotsPerSector - (s.iters iter).slot)
      (s.iters iter).slot with
  | some slot =>
      have bounds := nextUsed_bounds found
      have isIter : ((s1.setIter iter fun it => { it with slot := slot + 1 }).iters iter) =
          { s.iters iter with slot := slot + 1 } := by
        rw [setIter_iters, still.iters]
      have same := still.same.trans
        (setIter_same s1 iter fun it => { it with slot := slot + 1 })
      refine .bind (.modify (.pure ⟨same, ?_⟩))
      dsimp only
      rw [isIter, same.iterAt, same.slotsLeft]
      have slot_le := placed.slot
      have room : slotsPerSector ≤ sectorsLeft s (s.iters iter) * slotsPerSector :=
        Nat.le_mul_of_pos_left _ placed.sectorsLeft_pos
      refine ⟨⟨placed.steps, placed.sector, by dsimp only; omega⟩, ?_⟩
      unfold slotsLeft
      change sectorsLeft s (s.iters iter) * slotsPerSector - (slot + 1) < _
      omega
  | none =>
      refine (iterAdvance_spec placed1).seq ?_ fun _ _ _ => trivial
      rintro _ s2 ⟨same, placed2, less⟩
      refine .pure ⟨still.same.trans same, placed2, ?_⟩
      rw [still.iters, still.same.sectorsLeft] at less
      exact less

theorem iterLoop_succ (iter rounds : Nat) :
    iterLoop iter (rounds + 1) =
      iterRound iter () >>= afterRound fun _ => iterLoop iter rounds := by
  conv =>
    lhs
    unfold iterLoop
  unfold iterRound
  rw [bind_assoc]
  refine congrArg (MonadState.get >>= ·) (funext fun s => ?_)
  dsimp only
  by_cases zero : (s.iters iter).cluster = 0
  · simp only [if_pos zero, pure_bind, afterRound]
  · simp only [if_neg zero, bind_assoc]
    refine congrArg (blockRead _ >>= ·) (funext fun contents => ?_)
    cases nextUsed contents (slotsPerSector - (s.iters iter).slot) (s.iters iter).slot with
    | some slot => simp only [bind_assoc, pure_bind, afterRound]
    | none => simp only [bind_assoc, pure_bind, afterRound]

/-- The loop of `fs_iter_next` ends on every disk. -/
theorem iterLoop_loops {rounds : Nat} (placed : IterAt s (s.iters iter))
    (enough : sectorsLeft s (s.iters iter) < rounds) :
    Loops (iterRound iter) () s (iterLoop iter rounds s) := by
  refine @Loops.of_rounds _ _ _ _ _ (fun rounds _ => iterLoop iter rounds)
    (fun rounds _ s => IterAt s (s.iters iter) ∧ sectorsLeft s (s.iters iter) < rounds)
    (fun _ _ impossible => Nat.not_lt_zero _ impossible.2) ?_ rounds () s ⟨placed, enough⟩
  rintro rounds _ s ⟨placed, enough⟩
  refine ⟨congrFun (iterLoop_succ iter rounds) s, (iterRound_spec placed).mono ?_
    fun _ _ _ => trivial⟩
  rintro outcome s' ⟨_, after⟩ _ rfl
  exact ⟨after.1, by omega⟩

theorem fsIterNext_eq (mounted : s.mounted = true) :
    fsIterNext iter s = iterLoop iter (iterRounds s) s := by
  unfold fsIterNext requireMounted
  simp only [bind_assoc, get_bind_run, require, if_pos mounted, pure_bind]

theorem fsIterNext_loops (mounted : s.mounted = true) (placed : IterAt s (s.iters iter)) :
    Loops (iterRound iter) () s (fsIterNext iter s) := by
  have steps := placed.steps
  rw [fsIterNext_eq mounted]
  apply iterLoop_loops placed
  calc sectorsLeft s (s.iters iter)
      ≤ (s.sb.clusterCount + 1 - (s.iters iter).steps) * 2 ^ s.clusterShift :=
        Nat.sub_le _ _
    _ ≤ (s.sb.clusterCount + 1) * 2 ^ s.clusterShift :=
        Nat.mul_le_mul_right _ (Nat.sub_le _ _)
    _ < iterRounds s := Nat.lt_succ_self _

/-- Every call that reports a file comes closer to the end of the directory. -/
theorem fsIterNext_spec (mounted : s.mounted = true) (placed : IterAt s (s.iters iter)) :
    Meets (fsIterNext iter) s
      (fun info s' => info ≠ none → Same s s' ∧ IterAt s' (s'.iters iter) ∧
        slotsLeft s' (s'.iters iter) < slotsLeft s (s.iters iter))
      fun _ _ => True := by
  refine @Loops.meets _ _ _ _ _ _ _ _
    (fun _ s' => Same s s' ∧ IterAt s' (s'.iters iter) ∧
      slotsLeft s' (s'.iters iter) ≤ slotsLeft s (s.iters iter))
    _ _ (fsIterNext_loops mounted placed) ⟨.refl s, placed, Nat.le_refl _⟩ ?_
  rintro _ s1 ⟨same, placed1, left⟩
  refine (iterRound_spec placed1).mono ?_ fun _ _ _ => trivial
  rintro outcome s2 ⟨same1, after⟩
  match outcome, after with
  | .inl _, after =>
      refine ⟨same.trans same1, after.1, Nat.le_trans ?_ left⟩
      have slot := placed1.slot
      have fewer := Nat.mul_le_mul_right slotsPerSector after.2
      rw [Nat.succ_mul] at fewer
      unfold slotsLeft
      omega
  | .inr none, _ => exact fun impossible => absurd rfl impossible
  | .inr (some _), after =>
      exact fun _ => ⟨same.trans same1, after.1, Nat.lt_of_lt_of_le after.2 left⟩

end Iterators

/-! ## Listing the directory -/

/-- What a call of `fs_iter_next` returns, whose loop has no bound. -/
def IterNext (iter : Nat) (s : Fs) (result : EStateM.Result FsError Fs (Option FsInfo)) :
    Prop :=
  if s.mounted then Loops (iterRound iter) () s result else result = .error .nofs s

/-- Calls of `fs_iter_next` until one returns 0 or an error, with the entries that they
report. -/
inductive Lists (iter : Nat) : Fs → List FsInfo → Option FsError → Fs → Prop where
  | done {s s' : Fs} (next : IterNext iter s (.ok none s')) : Lists iter s [] none s'
  | failed {s s' : Fs} {error : FsError} (next : IterNext iter s (.error error s')) :
      Lists iter s [] (some error) s'
  | more {s s' s'' : Fs} {info : FsInfo} {infos : List FsInfo} {ending : Option FsError}
      (next : IterNext iter s (.ok (some info) s'))
      (rest : Lists iter s' infos ending s'') : Lists iter s (info :: infos) ending s''

section Listing

variable {s s' : Fs} {iter : Nat}

theorem iterNext_fsIterNext (placed : s.mounted = true → IterAt s (s.iters iter)) :
    IterNext iter s (fsIterNext iter s) := by
  unfold IterNext
  split
  · next mounted => exact fsIterNext_loops mounted (placed mounted)
  · next unmounted =>
      unfold fsIterNext requireMounted
      simp only [bind_assoc, get_bind_run, require, if_neg unmounted]
      rfl

/-- The calls end: every file that is reported leaves fewer slots. -/
theorem listing_ends_of_placed (bound : Nat) :
    ∀ {s : Fs}, (s.mounted = true → IterAt s (s.iters iter)) →
      slotsLeft s (s.iters iter) < bound →
      ∃ infos ending s', Lists iter s infos ending s' ∧ infos.length < bound := by
  induction bound with
  | zero => exact fun _ impossible => absurd impossible (Nat.not_lt_zero _)
  | succ bound induction =>
      intro s placed left
      have next := iterNext_fsIterNext placed
      cases call : fsIterNext iter s with
      | error error s' =>
          rw [call] at next
          exact ⟨[], some error, s', .failed next, Nat.succ_pos bound⟩
      | ok info s' =>
          rw [call] at next
          cases info with
          | none => exact ⟨[], none, s', .done next, Nat.succ_pos bound⟩
          | some info =>
              have mounted : s.mounted = true := by
                by_contra unmounted
                unfold IterNext at next
                rw [if_neg unmounted] at next
                cases next
              rcases (fsIterNext_spec mounted (placed mounted)).ok_of_run call
                (Option.some_ne_none info) with ⟨_, placed', fewer⟩
              rcases induction (fun _ => placed') (Nat.lt_of_lt_of_le fewer
                (Nat.le_of_lt_succ left)) with ⟨infos, ending, s'', rest, short⟩
              exact ⟨info :: infos, ending, s'', .more next rest, Nat.succ_lt_succ short⟩

/-- The iterator that `fs_iter_begin` leaves. -/
def iterStart (s : Fs) : FsIter where
  cluster := if s.mounted then s.sb.rootCluster else 0
  sector := 0
  slot := 0
  steps := 0

theorem fsIterBegin_begun {begun : Fs} (begins : fsIterBegin iter s = .ok () begun) :
    begun = s.setIter iter fun _ => iterStart s := by
  cases begins
  rfl

/-- From its beginning the listing of any disk ends. -/
theorem listing_ends {begun : Fs} (begins : fsIterBegin iter s = .ok () begun) :
    ∃ infos ending s', Lists iter begun infos ending s' ∧
      infos.length ≤ (s.sb.clusterCount + 1) * 2 ^ s.clusterShift * slotsPerSector := by
  have isBegun := fsIterBegin_begun begins
  have same : Same s begun := by
    rw [isBegun]
    exact setIter_same _ _ _
  have isIter : begun.iters iter = iterStart s := by
    rw [isBegun, setIter_iters]
  have placed : IterAt begun (begun.iters iter) := by
    rw [isIter, same.iterAt]
    exact ⟨Nat.zero_le _, Nat.two_pow_pos _, Nat.zero_le _⟩
  rcases listing_ends_of_placed _ (fun _ => placed) (Nat.lt_succ_self _) with
    ⟨infos, ending, s', lists, short⟩
  refine ⟨infos, ending, s', lists, Nat.le_of_lt_succ ?_⟩
  rw [isIter, same.slotsLeft] at short
  exact short

end Listing

end Katela.Filesystem
