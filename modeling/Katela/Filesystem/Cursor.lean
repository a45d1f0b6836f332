import Katela.Filesystem.Acknowledgement
import Katela.Filesystem.ChainFree

/-! # The cursor of an open file

`file_reach` starts from the cursor of the handle where it can. The cursor stays on the chain
of the file, whichever transfers fail, so that the walk ends where a walk from the first
cluster does. Only the transfers that the two ask for are different ones. -/

namespace Katela.Filesystem

/-! ## Errors of transfers -/

/-- A transfer that was asked for between two states failed. -/
def Faulted (s s' : Fs) : Prop :=
  ∃ number, s.transfers ≤ number ∧ number < s'.transfers ∧ s.fails number = true

/-- A later state on the same disk. -/
structure Since (start s : Fs) : Prop where
  fails : s.fails = start.fails
  transfers : start.transfers ≤ s.transfers

/-- The program reports an error of the disk only after a transfer failed. -/
def Honest {α : Type} (start : Fs) (program : FsM α) : Prop :=
  ∀ s, Since start s → Meets program s (fun _ s' => Since start s')
    fun error s' => Since start s' ∧ (error = .io → Faulted start s')

namespace Honest

variable {α β : Type} {start : Fs} {program : FsM α} {next : α → FsM β}

theorem pure (value : α) : Honest start (Pure.pure value : FsM α) := fun _ since => since

theorem get : Honest start (MonadState.get : FsM Fs) := fun _ since => since

theorem bind (first : Honest start program) (rest : ∀ value, Honest start (next value)) :
    Honest start (program >>= next) :=
  fun s since => (first s since).seq (fun value s' => rest value s') fun _ _ failed => failed

theorem modify {change : Fs → Fs} (keeps : ∀ s, Since start s → Since start (change s)) :
    Honest start (modify change : FsM Unit) := fun s since => keeps s since

theorem require {condition : Prop} [Decidable condition] {error : FsError}
    (other : error ≠ .io) : Honest start (require condition error : FsM Unit) :=
  fun _ since => .require (fun _ => since) fun _ => ⟨since, fun isIo => absurd isIo other⟩

theorem ite {condition : Prop} [Decidable condition] {other : FsM α}
    (yes : Honest start program) (no : Honest start other) :
    Honest start (if condition then program else other) := by
  split
  · exact yes
  · exact no

end Honest

section Faults

variable {start s : Fs}

theorem Since.request (since : Since start s) (sector : Nat) (purpose : Option Purpose) :
    Since start (s.request sector purpose) :=
  ⟨since.fails, Nat.le_succ_of_le since.transfers⟩

/-- The transfer that is asked for fails. -/
theorem Since.faulted (since : Since start s) (sector : Nat) (purpose : Option Purpose)
    (failing : s.fails s.transfers = true) : Faulted start (s.request sector purpose) := by
  rw [since.fails] at failing
  exact ⟨s.transfers, since.transfers, Nat.lt_succ_self _, failing⟩

theorem blockRead_honest (sector : Nat) : Honest start (blockRead sector) := by
  intro s since
  unfold Meets blockRead
  cases failing : s.fails s.transfers with
  | false => exact since.request _ _
  | true => exact ⟨since.request _ _, fun _ => since.faulted _ _ failing⟩

theorem blockWrite_honest (purpose : Purpose) (sector : Nat) (contents : Sector) :
    Honest start (blockWrite purpose sector contents) := by
  intro s since
  unfold Meets blockWrite
  cases failing : s.fails s.transfers with
  | false => exact ⟨since.fails, (since.request sector (some purpose)).transfers⟩
  | true => exact ⟨since.request _ _, fun _ => since.faulted _ _ failing⟩

theorem fatLoad_honest (sector : Nat) : Honest start (fatLoad sector) := by
  have flushes : Honest start fatFlush := by
    unfold fatFlush
    refine .bind .get fun s => .ite ?_ (.pure _)
    exact .bind (blockWrite_honest _ _ _) fun _ =>
      .modify fun _ since => ⟨since.fails, since.transfers⟩
  have fills : Honest start (fatFill sector) := by
    intro s since
    unfold fatFill
    refine .bind (.attempt ((blockRead_honest sector s since).mono ?_ ?_))
    · exact fun _ s' since' => .modify ⟨since'.fails, since'.transfers⟩
    · rintro error s' ⟨since', faulted⟩
      exact .bind (.modify (.throw ⟨⟨since'.fails, since'.transfers⟩, faulted⟩))
  unfold fatLoad
  exact .bind .get fun s => .ite (.pure _) (.bind flushes fun _ => fills)

theorem chainNext_honest (cluster : Nat) : Honest start (chainNext cluster) := by
  have gets : Honest start (fatGet cluster) := by
    unfold fatGet
    refine .bind .get fun s => .bind (.require (by decide)) fun _ => ?_
    exact .bind (fatLoad_honest _) fun _ => .bind .get fun _ => .pure _
  unfold chainNext
  refine .bind gets fun value => .ite (.pure _) ?_
  exact .bind .get fun s => .bind (.require (by decide)) fun _ => .pure _

theorem reachLoop_honest (steps : Nat) : ∀ cluster, Honest start (reachLoop false steps cluster) := by
  induction steps with
  | zero => exact fun cluster => .pure cluster
  | succ steps induction =>
      intro cluster
      unfold reachLoop
      refine .bind (chainNext_honest cluster) fun next => ?_
      split
      · -- Without permission to grow the step past the end fails.
        refine .bind ?_ induction
        intro s since
        unfold reachGrow
        exact .bind (.require (fun impossible => absurd impossible (by decide))
          fun _ => ⟨since, fun isIo => absurd isIo (by decide)⟩)
      · exact .bind (.pure next) induction

end Faults

/-! ## Two walks -/

/-- `file_reach` on a file that must not grow, with the cluster that it comes to. -/
def reached (file : FileRef) (index : Nat) : FsM Nat := do
  fileReach file index false
  let s ← get
  return (s.files file).cursorCluster

/-- The same walk from the first cluster of the file. -/
def reachedFromFirst (file : FileRef) (index : Nat) : FsM Nat := do
  let s ← get
  require ((s.files file).first ≠ 0) .corrupt
  reachLoop false index (s.files file).first

/-- There is no cursor, or it is the cluster with its index in the chain of the file. -/
def OnChain (s : Fs) (handle : FsFile) : Prop :=
  handle.cursorCluster = 0 ∨ ∃ chain, WalkEnds s.sb s.image handle.first chain ∧
    chain[handle.cursorIndex]? = some handle.cursorCluster

section Walks

variable {s : Fs} {first : Nat} {chain : List Nat} {file : FileRef}

/-- From the cluster with number `index` of a chain, the loop comes to the one `steps` clusters
on, or reports that there is none. -/
theorem reachLoop_follows (steps : Nat) : ∀ {s : Fs} {index cluster : Nat}, FatFits s.sb →
    Coherent s → WalkEnds s.sb s.image first chain → chain[index]? = some cluster →
    Meets (reachLoop false steps cluster) s
      (fun cluster' _ => chain[index + steps]? = some cluster')
      fun error _ => error = .io ∨ error = .corrupt ∧ chain[index + steps]? = none := by
  induction steps with
  | zero =>
      intro s index cluster _ _ _ here
      exact .pure here
  | succ steps induction =>
      intro s index cluster fits coherent ends here
      have inRange := ends.inRange cluster (List.mem_of_getElem? here)
      have isNext := ends.linked.next_getElem? here
      unfold linkOf at isNext
      unfold reachLoop
      refine (chainNext_spec fits coherent inRange.positive inRange.atMost).seq ?_ ?_
      · rintro next s1 ⟨moved, ⟨isEnd, rfl⟩ | ⟨notEnd, isValue, positive, _⟩⟩
        · rw [if_pos isEnd] at isNext
          have atEnd := List.getElem?_eq_none_iff.mp isNext.symm
          rw [if_pos rfl]
          unfold reachGrow
          refine .bind (.bind (.require (fun impossible => absurd impossible (by decide)) ?_))
          exact fun _ => Or.inr ⟨rfl, List.getElem?_eq_none (by omega)⟩
        · have nonzero : next ≠ 0 := by omega
          rw [if_neg notEnd, isValue] at isNext
          rw [if_neg nonzero]
          have fits1 := moved.same.fatFits fits
          rw [← moved.same.sb, ← moved.image_eq] at ends
          have rest := induction fits1 moved.coherent ends isNext.symm
          have shift : index + 1 + steps = index + (steps + 1) := by omega
          rw [shift] at rest
          exact .bind (.pure rest)
      · rintro error s1 ⟨_, ⟨isIo, _⟩ | ⟨_, notEnd, invalid⟩⟩
        · exact Or.inl isIo
        · rw [if_neg notEnd] at isNext
          have inRange' := ends.inRange _ (List.mem_of_getElem? isNext.symm)
          have positive := inRange'.positive
          have atMost := inRange'.atMost
          omega

theorem WalkEnds.eq_nil (ends : WalkEnds s.sb s.image 0 chain) : chain = [] :=
  Linked.unique ends.linked (@WalkEnds.zero s.sb s.image).linked

theorem WalkEnds.getElem?_zero (ends : WalkEnds s.sb s.image first chain)
    (nonzero : first ≠ 0) : chain[0]? = some first := by
  obtain ⟨rest, rfl, _⟩ := ends.exists_cons nonzero
  rfl

theorem reachedFromFirst_follows (fits : FatFits s.sb) (coherent : Coherent s)
    (ends : WalkEnds s.sb s.image (s.files file).first chain) (index : Nat) :
    Meets (reachedFromFirst file index) s (fun cluster _ => chain[index]? = some cluster)
      fun error _ => error = .io ∨ error = .corrupt ∧ chain[index]? = none := by
  unfold reachedFromFirst
  refine .bind (.get (.bind (.require (fun nonzero => ?_) fun isZero => ?_)))
  · have walks := reachLoop_follows index fits coherent ends (ends.getElem?_zero nonzero)
    rw [Nat.zero_add] at walks
    exact walks
  · rw [not_not.mp isZero] at ends
    rw [ends.eq_nil]
    exact Or.inr ⟨rfl, rfl⟩

/-- The walk from the cursor comes to the same cluster of the chain. -/
theorem reached_follows (fits : FatFits s.sb) (coherent : Coherent s)
    (ends : WalkEnds s.sb s.image (s.files file).first chain)
    (cursor : OnChain s (s.files file)) (index : Nat) :
    Meets (reached file index) s (fun cluster _ => chain[index]? = some cluster)
      fun error _ => error = .io ∨ error = .corrupt ∧ chain[index]? = none := by
  unfold reached fileReach reachFirst
  refine .bind (.bind (.bind (.get (.ite (fun isZero => ?_) fun nonzero => .pure ?_))))
  · refine .bind (.require (fun impossible => absurd impossible (by decide)) fun _ => ?_)
    rw [isZero] at ends
    rw [ends.eq_nil]
    exact Or.inr ⟨rfl, rfl⟩
  · have starts : chain[((s.files file).walkStart index).2]? =
        some ((s.files file).walkStart index).1 ∧ ((s.files file).walkStart index).2 ≤ index := by
      unfold FsFile.walkStart
      split
      · next continues =>
          rcases cursor with isZero | ⟨other, ends', here⟩
          · exact absurd isZero continues.1
          · rw [Linked.unique ends.linked ends'.linked]
            exact ⟨here, continues.2⟩
      · exact ⟨ends.getElem?_zero nonzero, Nat.zero_le index⟩
    have walks := reachLoop_follows (index - ((s.files file).walkStart index).2) fits coherent
      ends starts.1
    rw [Nat.add_sub_cancel' starts.2] at walks
    refine .bind (.get (walks.seq ?_ fun _ _ failed => failed))
    intro cluster s1 here
    refine .modify (.bind (.get (.pure ?_)))
    simpa [Fs.setFile] using here

theorem reached_honest {start : Fs} (file : FileRef) (index : Nat) :
    Honest start (reached file index) := by
  have begins : Honest start (reachFirst file false) := by
    intro s since
    unfold reachFirst
    refine .bind (.get (.ite (fun _ => ?_) fun _ => .pure since))
    exact .bind (.require (fun impossible => absurd impossible (by decide))
      fun _ => ⟨since, fun isIo => absurd isIo (by decide)⟩)
  unfold reached fileReach
  refine .bind (.bind begins fun _ => .bind .get fun s => .bind (reachLoop_honest _ _) ?_)
    fun _ => .bind .get fun s => .pure _
  exact fun cluster => .modify fun s since => ⟨since.fails, since.transfers⟩

theorem reachedFromFirst_honest {start : Fs} (file : FileRef) (index : Nat) :
    Honest start (reachedFromFirst file index) := by
  unfold reachedFromFirst
  exact .bind .get fun s => .bind (.require (by decide)) fun _ => reachLoop_honest _ _

end Walks

/-- What a program returns or reports, and the state that it leaves. -/
def outcome (program : FsM Nat) (s : Fs) : Except FsError Nat × Fs :=
  match program s with
  | .ok value s' => (.ok value, s')
  | .error error s' => (.error error, s')

/-- The program reports an error of the disk, and a transfer that it asked for failed. -/
def Breaks (program : FsM Nat) (s : Fs) : Prop :=
  (outcome program s).1 = .error .io ∧ Faulted s (outcome program s).2

section Agreement

variable {F : Format} {live : FileRef → Prop} {s s' : Fs} {own : Ownership}
variable {file : FileRef} {handle index : Nat} {program : FsM Nat} {chain : List Nat}

theorem outcome_of_meets {Holds : Except FsError Nat → Fs → Prop}
    (meets : Meets program s (fun value s' => Holds (.ok value) s')
      fun error s' => Holds (.error error) s') :
    Holds (outcome program s).1 (outcome program s).2 := by
  unfold Meets at meets
  unfold outcome
  cases runs : program s with
  | ok value s' =>
      rw [runs] at meets
      exact meets
  | error error s' =>
      rw [runs] at meets
      exact meets

/-- The chain alone decides how a walk ends that does not break. -/
theorem outcome_of_follows
    (follows : Meets program s (fun cluster _ => chain[index]? = some cluster)
      fun error _ => error = .io ∨ error = .corrupt ∧ chain[index]? = none)
    (honest : Honest s program) :
    (outcome program s).1 = chain[index]?.elim (.error .corrupt) .ok ∨ Breaks program s := by
  refine @outcome_of_meets s program (fun result s' =>
    result = chain[index]?.elim (.error .corrupt) .ok ∨
      result = .error .io ∧ Faulted s s') ?_
  refine (follows.and (honest s ⟨rfl, le_rfl⟩)).mono ?_ ?_
  · rintro cluster s1 ⟨here, _⟩
    rw [here]
    exact Or.inl rfl
  · rintro error s1 ⟨isIo | ⟨isCorrupt, none⟩, _, faulted⟩
    · exact Or.inr ⟨congrArg _ isIo, faulted isIo⟩
    · rw [none]
      exact Or.inl (congrArg _ isCorrupt)

theorem reached_agrees (fits : FatFits s.sb) (coherent : Coherent s)
    (ends : WalkEnds s.sb s.image (s.files file).first chain)
    (cursor : OnChain s (s.files file)) (index : Nat) :
    (outcome (reached file index) s).1 = (outcome (reachedFromFirst file index) s).1 ∨
      Breaks (reached file index) s ∨ Breaks (reachedFromFirst file index) s := by
  have first := outcome_of_follows (reached_follows fits coherent ends cursor index)
    (reached_honest file index)
  have second := outcome_of_follows (reachedFromFirst_follows fits coherent ends index)
    (reachedFromFirst_honest file index)
  rcases first with isResult | breaks
  · rcases second with isResult' | breaks
    · exact Or.inl (isResult.trans isResult'.symm)
    · exact Or.inr (Or.inr breaks)
  · exact Or.inr (Or.inl breaks)

/-- The chain of an open file, from its first cluster on. -/
theorem Inv.walkEnds (inv : Inv F live s own) (isLive : live file) :
    WalkEnds s.sb s.image (s.files file).first (chainOf s own file) := by
  have opened := inv.handles.opened file isLive
  have linked := inv.accounted.chains.linked (ownerOf s.image file (s.files file))
  have bounds := inv.accounted.bounds (ownerOf s.image file (s.files file))
  rw [← inv.sb] at bounds
  refine ⟨?_, fun cluster member => ⟨(bounds cluster member).1, (bounds cluster member).2⟩,
    Linked.nodup linked⟩
  have first := opened.first
  change Linked _ _ (own (ownerOf s.image file (s.files file)))
  unfold startOf
  cases isChain : own (ownerOf s.image file (s.files file)) with
  | nil =>
      rw [isChain] at first
      have isZero : (s.files file).first = 0 := first.symm
      rw [if_pos isZero]
      rfl
  | cons head rest =>
      rw [isChain] at first linked bounds
      have positive := (bounds head List.mem_cons_self).1
      have isHead : head = (s.files file).first := first
      rw [← isHead, if_neg (by omega)]
      exact linked

theorem Inv.onChain (inv : Inv F live s own) (isLive : live file) :
    OnChain s (s.files file) :=
  (inv.handles.opened file isLive).cursor.imp_right fun here =>
    ⟨chainOf s own file, inv.walkEnds isLive, here⟩

end Agreement

/-! ## Histories -/

/-- The calls that read, change and cut a file through its handle. -/
def Call.Uses (handle : Nat) : Call → Prop
  | .read file _ _ => file = handle
  | .write file _ _ _ => file = handle
  | .truncate file _ => file = handle
  | _ => False

def performAll (calls : List Call) (s : Fs) : Fs :=
  calls.foldl (fun s call => (perform call s).2) s

section Histories

variable {F : Format} {live : FileRef → Prop} {s : Fs} {own : Ownership}
variable {handle : Nat} {calls : List Call}

theorem Ready.performAll (ready : Ready F live s own) (isLive : live (.caller handle))
    (uses : ∀ call ∈ calls, call.Uses handle) :
    ∃ own', Ready F live (performAll calls s) own' := by
  induction calls generalizing s own with
  | nil => exact ⟨own, ready⟩
  | cons call calls induction =>
      have atCall := uses call List.mem_cons_self
      have step : ∃ own', Ready F live (perform call s).2 own' := by
        cases call with
        | read file offset count =>
            cases atCall
            rcases @read_answers F False live s own handle offset count ready isLive with
              ⟨own', _, ready', _⟩
            exact ⟨own', ready'⟩
        | write file offset buffer count =>
            cases atCall
            rcases @write_answers F False live s own handle offset buffer count ready isLive with
              ⟨own', _, ready', _⟩
            exact ⟨own', ready'⟩
        | truncate file size =>
            cases atCall
            rcases @truncate_answers F False live s own handle size ready isLive with
              ⟨own', _, ready', _⟩
            exact ⟨own', ready'⟩
        | _ => exact atCall.elim
      rcases step with ⟨own', ready'⟩
      exact induction ready' fun other member => uses other (List.mem_cons_of_mem _ member)

/-- After every history of calls on an open file, whichever transfers failed, the cursor is on
the chain of the file, and the walk from it ends as the walk from the first cluster, unless
one of the two breaks. -/
theorem cursor_agrees (ready : Ready F live s own) (isLive : live (.caller handle))
    (uses : ∀ call ∈ calls, call.Uses handle) :
    OnChain (performAll calls s) ((performAll calls s).files (.caller handle)) ∧
      ∀ index, (outcome (reached (.caller handle) index) (performAll calls s)).1 =
          (outcome (reachedFromFirst (.caller handle) index) (performAll calls s)).1 ∨
        Breaks (reached (.caller handle) index) (performAll calls s) ∨
        Breaks (reachedFromFirst (.caller handle) index) (performAll calls s) := by
  rcases ready.performAll isLive uses with ⟨own', ready'⟩
  have inv := ready'.between.inv
  have cursor := inv.onChain isLive
  exact ⟨cursor, reached_agrees inv.geometry.fatFits inv.coherent (inv.walkEnds isLive) cursor⟩

end Histories

/-! ## Transfers that fail -/

/-- A disk with several sectors in its FAT; all transfers from the number 22 on fail. -/
def failingDisk : Fs :=
  { Fs.blank 4400 with fails := fun number => decide (22 ≤ number) }

/-- The disk after `fs_format`, with the record of what was written to it empty. -/
def failingStart : Fs :=
  { (perform .format failingDisk).2 with history := [], accesses := [] }

/-- A file is opened, and its first cluster will have the last entry of a sector of the FAT. -/
def failingOpened : Fs :=
  (perform opensNew { failingStart with nextFree := 127 }).2

/-- Three clusters are written, of which the last two have their entries in the next sector. -/
def writesThree : Call := .write 0 0 (fun _ => 98) 1536

theorem failingStart_formatted : Formatted failingStart :=
  formatted_of_isOk (by decide) rfl (by decide +kernel)

theorem failingOpened_ready :
    ∃ F live own, Ready F live failingOpened own ∧ live (.caller 0) := by
  rcases failingStart_formatted.ready with ⟨F, _, _, _, ready, _⟩
  have coherent := ready.between.inv.coherent
  have ready' := ready.between.ready ready (.refl _) ((Moved.refl coherent).withNextFree 127)
    ready.clean
  rcases @open_answers F False _ _ _ ready' (some (boundedString (fun _ => 97) 1)) 0 true with
    ⟨own', _, opened, _⟩
  exact ⟨F, _, own', opened, opensNew_live (by decide +kernel)⟩

theorem writesThree_uses : ∀ call ∈ [writesThree], call.Uses 0 := by
  intro call member
  rw [List.mem_singleton.mp member]
  rfl

/-- The cursor of the file with three clusters is on its chain. -/
theorem cursor_agrees_failing :
    ∃ chain, WalkEnds (performAll [writesThree] failingOpened).sb
      (performAll [writesThree] failingOpened).image 127 chain ∧ chain[2]? = some 129 := by
  rcases failingOpened_ready with ⟨F, live, own, ready, isLive⟩
  have isFirst : ((performAll [writesThree] failingOpened).files (.caller 0)).first = 127 := by
    decide +kernel
  have isCursor : ((performAll [writesThree] failingOpened).files (.caller 0)).cursorCluster =
      129 := by
    decide +kernel
  have isIndex : ((performAll [writesThree] failingOpened).files (.caller 0)).cursorIndex =
      2 := by
    decide +kernel
  rcases (cursor_agrees ready isLive writesThree_uses).1 with isZero | ⟨chain, ends, here⟩
  · rw [isCursor] at isZero
    cases isZero
  · rw [isFirst] at ends
    rw [isIndex, isCursor] at here
    exact ⟨chain, ends, here⟩

/-- With the next sector of the FAT in the cache and a disk that fails, the walk from the
cursor needs no transfer, and the walk from the first cluster fails. -/
theorem cursor_disagrees_failing :
    ¬ ∀ (F : Format) (live : FileRef → Prop) (s : Fs) (own : Ownership) (handle : Nat)
      (calls : List Call), Ready F live s own → live (.caller handle) →
      (∀ call ∈ calls, call.Uses handle) → ∀ index,
        (outcome (reached (.caller handle) index) (performAll calls s)).1 =
          (outcome (reachedFromFirst (.caller handle) index) (performAll calls s)).1 := by
  intro agrees
  rcases failingOpened_ready with ⟨F, live, own, ready, isLive⟩
  have same := agrees F live failingOpened own 0 [writesThree] ready isLive
    writesThree_uses 2
  have first : (outcome (reached (.caller 0) 2)
      (performAll [writesThree] failingOpened)).1.isOk = true := by
    decide +kernel
  have second : (outcome (reachedFromFirst (.caller 0) 2)
      (performAll [writesThree] failingOpened)).1.isOk = false := by
    decide +kernel
  rw [same, second] at first
  cases first

end Katela.Filesystem
