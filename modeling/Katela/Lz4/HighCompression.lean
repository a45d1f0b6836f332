import Katela.Lz4.Encoding

/-! # Compression with hash chains

A model of `crypto/lz4hc.c`. The positions with the same hash are linked by
distances in a ring, which is not cleared before a call. -/

namespace Katela.Lz4

def windowSize : Nat := 65536

/-- The arrays `head_table` and `chain_table`, which are kept between calls. -/
structure Tables where
  head : Nat → Nat
  chain : Nat → UInt16

/-- The tables and the next position that is entered there. -/
structure Chains extends Tables where
  nextUpdate : Nat

/-- `insert_position` at the next position. -/
def insertPosition (source : Nat → UInt8) (chains : Chains) : Chains :=
  let pos := chains.nextUpdate
  let slot := hashWord 15 (readWord source pos)
  let previous := chains.head slot
  let delta :=
    if previous ≠ 0 ∧ unsignedSub pos (previous - 1) ≤ maxOffset then
      unsignedSub pos (previous - 1)
    else 0
  { chain := Function.update chains.chain (pos &&& (windowSize - 1))
      (UInt16.ofNat delta)
    head := Function.update chains.head slot (pos + 1)
    nextUpdate := pos + 1 }

def updateChains (source : Nat → UInt8) (target : Nat) :
    (rounds : Nat) → Chains → Checked Unit Chains
  | 0, _ => .endless
  | rounds + 1, chains =>
      if chains.nextUpdate < target then
        updateChains source target rounds (insertPosition source chains)
      else .done chains

/-- A length and an offset, or a length of 0. -/
structure Best where
  length : Nat
  offset : Nat

/-- The loop of `find_match`. -/
def findLoop (source : Nat → UInt8) (chain : Nat → UInt16) (pos limit : Nat) :
    (attempts candidate : Nat) → Best → Best
  | 0, _, best => best
  | attempts + 1, candidate, best =>
      if candidate = 0 then best
      else
        let start := candidate - 1
        let distance := unsignedSub pos start
        if distance > maxOffset then best
        else
          let length := countWhile (fun length => length < limit ∧
            source (start + length) = source (pos + length)) limit 0
          let better := decide ((best.length = 0 ∨
              source (start + best.length) = source (pos + best.length)) ∧
            length ≥ minMatch ∧ length > best.length)
          let best := if better then ⟨length, distance⟩ else best
          if better ∧ length = limit then best
          else
            let step := (chain (start &&& (windowSize - 1))).toNat
            if step = 0 then best
            else findLoop source chain pos limit attempts
              ((unsignedSub start step + 1) % wordSize) best

def findMatch (source : Nat → UInt8) (tables : Tables) (pos size attempts : Nat) :
    Best :=
  findLoop source tables.chain pos
    (unsignedSub (unsignedSub size lastLiterals) pos) attempts
    (tables.head (hashWord 15 (readWord source pos))) ⟨0, 0⟩

/-- The variables of the loop that looks for a longer match one byte later. -/
structure Finding where
  chains : Chains
  pos : Nat
  best : Best

def lazyLoop (source : Nat → UInt8) (size attempts : Nat) :
    (rounds : Nat) → Finding → Checked Unit Finding
  | 0, _ => .endless
  | rounds + 1, finding =>
      if finding.pos + 1 + matchFindLimit ≤ size then do
        let chains ← updateChains source (finding.pos + 1) (finding.pos + 2)
          finding.chains
        let next := findMatch source chains.toTables (finding.pos + 1) size attempts
        if next.length ≤ finding.best.length + 1 then .done { finding with chains }
        else lazyLoop source size attempts rounds ⟨chains, finding.pos + 1, next⟩
      else .done finding

/-- The variables of `lz4hc_compress`. -/
structure HcCompressor where
  chains : Chains
  out : List UInt8
  anchor : Nat
  pos : Nat

/-- The end of the body of the loop of `lz4hc_compress`. -/
def hcWrite (source : Nat → UInt8) (capacity : Nat) (state : HcCompressor)
    (finding : Finding) : Checked Unit HcCompressor :=
  match lz4WriteSequence capacity state.out
      (fun index => source (state.anchor + index))
      (unsignedSub finding.pos state.anchor) finding.best.offset
      finding.best.length with
  | none => .failed ()
  | some out =>
      .done ⟨finding.chains, out, finding.pos + finding.best.length,
        finding.pos + finding.best.length⟩

/-- The body of the loop of `lz4hc_compress`. -/
def hcStep (source : Nat → UInt8) (size capacity attempts : Nat)
    (state : HcCompressor) : Checked Unit HcCompressor := do
  let chains ← updateChains source state.pos (state.pos + 1) state.chains
  let best := findMatch source chains.toTables state.pos size attempts
  if best.length = 0 then .done { state with chains, pos := state.pos + 1 }
  else do
    let finding ← lazyLoop source size attempts (size + 1) ⟨chains, state.pos, best⟩
    hcWrite source capacity state finding

/-- The loop of `lz4hc_compress`. -/
def hcLoop (source : Nat → UInt8) (size capacity attempts : Nat) :
    (rounds : Nat) → HcCompressor → Checked Unit HcCompressor
  | 0, _ => .endless
  | rounds + 1, state =>
      if state.pos + matchFindLimit ≤ size then do
        let state ← hcStep source size capacity attempts state
        hcLoop source size capacity attempts rounds state
      else .done state

/-- The number of candidates that are tried at a level. -/
def attemptsOf (level : Int) : Nat :=
  let level := if level < 1 then 1 else level
  let level := if level > 9 then 9 else level
  1 <<< level.toNat

/-- The bytes in the output when the call returns their number. -/
def lz4hcCompress (source : Nat → UInt8) (size capacity : Nat) (level : Int)
    (tables : Tables) : Checked Unit (List UInt8) :=
  if size > maxInputSize ∨ capacity > maxBufferSize then .failed ()
  else do
    let state ← hcLoop source size capacity (attemptsOf level) (size + 1)
      { chains := { tables with head := fun _ => 0, nextUpdate := 0 }
        out := [], anchor := 0, pos := 0 }
    match lz4WriteSequence capacity state.out
        (fun index => source (state.anchor + index))
        (unsignedSub size state.anchor) 0 0 with
    | none => .failed ()
    | some out => .done out

/-! ## The ring -/

/-- The heads are behind the next position, and so are the links from every
position that is still in the ring. Nothing is known about the other links. -/
structure Chained (chains : Chains) : Prop where
  head : ∀ slot, chains.head slot ≤ chains.nextUpdate
  chain : ∀ pos, pos < chains.nextUpdate → chains.nextUpdate ≤ pos + windowSize →
    (chains.chain (pos % windowSize)).toNat ≤ pos

theorem and_window (pos : Nat) : pos &&& (windowSize - 1) = pos % windowSize :=
  Nat.and_two_pow_sub_one_eq_mod pos 16

section Ring

variable {source : Nat → UInt8} {chains : Chains} {size pos target : Nat}

theorem Chained.insertPosition (chained : Chained chains)
    (small : chains.nextUpdate < wordSize) :
    Chained (Lz4.insertPosition source chains) := by
  have window : windowSize = 65536 := rfl
  constructor
  · intro slot
    unfold Lz4.insertPosition
    dsimp only
    by_cases own : slot = hashWord 15 (readWord source chains.nextUpdate)
    · rw [own, Function.update_self]
    · rw [Function.update_of_ne own]
      exact Nat.le_succ_of_le (chained.head slot)
  · intro pos less still
    have less' : pos < chains.nextUpdate + 1 := less
    have still' : chains.nextUpdate + 1 ≤ pos + windowSize := still
    unfold Lz4.insertPosition
    dsimp only
    rw [and_window]
    by_cases own : pos = chains.nextUpdate
    · rw [own, Function.update_self, UInt16.toNat_ofNat']
      apply Nat.le_trans (Nat.mod_le _ _)
      split
      · next linked =>
          have before := chained.head (hashWord 15 (readWord source chains.nextUpdate))
          rw [unsignedSub_eq (by omega) small]
          omega
      · exact Nat.zero_le _
    · have other : pos % windowSize ≠ chains.nextUpdate % windowSize := by
        rw [window] at still' ⊢
        omega
      rw [Function.update_of_ne other]
      exact chained.chain pos (by omega) (by omega)

theorem updateChains_spec (small : target < wordSize) (rounds : Nat)
    (enough : target < rounds + chains.nextUpdate) (order : chains.nextUpdate ≤ target)
    (chained : Chained chains) :
    ∃ chains', updateChains source target rounds chains = .done chains' ∧
      chains'.nextUpdate = target ∧ Chained chains' := by
  induction rounds generalizing chains with
  | zero => omega
  | succ rounds induction =>
      unfold updateChains
      by_cases less : chains.nextUpdate < target
      · rw [if_pos less]
        have isNext : (Lz4.insertPosition source chains).nextUpdate =
            chains.nextUpdate + 1 := rfl
        exact induction (by omega) (by omega) (chained.insertPosition (by omega))
      · rw [if_neg less]
        exact ⟨chains, rfl, by omega, chained⟩

/-- The best match so far is none or a real one. -/
def Best.Found (source : Nat → UInt8) (size pos : Nat) (best : Best) : Prop :=
  best.length = 0 ∨ Match source size pos best.offset best.length

/-- The links that are followed are all still in the ring. -/
theorem findLoop_found (small : size < wordSize)
    (starts : pos + matchFindLimit ≤ size) (chained : Chained chains)
    (isNext : chains.nextUpdate = pos) (attempts : Nat) {candidate : Nat} {best : Best}
    (bound : candidate ≤ pos) (found : best.Found source size pos) :
    (findLoop source chains.chain pos (size - lastLiterals - pos) attempts candidate
      best).Found source size pos := by
  have limit : matchFindLimit = 12 := rfl
  have last : lastLiterals = 5 := rfl
  have least : minMatch = 4 := rfl
  have window : windowSize = 65536 := rfl
  have most : maxOffset = 65535 := rfl
  induction attempts generalizing candidate best with
  | zero => exact found
  | succ attempts induction =>
      unfold findLoop
      by_cases none : candidate = 0
      · rw [if_pos none]
        exact found
      · rw [if_neg none]
        dsimp only
        rw [unsignedSub_eq (by omega) (by omega), and_window]
        by_cases far : pos - (candidate - 1) > maxOffset
        · rw [if_pos far]
          exact found
        · rw [if_neg far]
          rcases countWhile_spec (fun length => length < size - lastLiterals - pos ∧
            source (candidate - 1 + length) = source (pos + length))
            (size - lastLiterals - pos) 0 with ⟨_, checked⟩
          generalize countWhile _ (size - lastLiterals - pos) 0 = length at *
          have isMatch : length ≥ minMatch →
              Match source size pos (pos - (candidate - 1)) length := by
            intro long
            have isStart : pos - (pos - (candidate - 1)) = candidate - 1 := by omega
            refine ⟨by omega, by omega, by omega, long, starts, ?_, ?_⟩
            · have final := checked (length - 1) (Nat.zero_le _) (by omega)
              simp only [decide_eq_true_eq] at final
              omega
            · intro index less
              have equal := checked index (Nat.zero_le _) less
              simp only [decide_eq_true_eq] at equal
              rw [isStart]
              exact equal.2
          generalize isBetter : decide ((best.length = 0 ∨
              source (candidate - 1 + best.length) = source (pos + best.length)) ∧
            length ≥ minMatch ∧ length > best.length) = better
          have next : (if better then (⟨length, pos - (candidate - 1)⟩ : Best)
              else best).Found source size pos := by
            cases better with
            | false => exact found
            | true => exact Or.inr (isMatch (of_decide_eq_true isBetter).2.1)
          generalize (if better then (⟨length, pos - (candidate - 1)⟩ : Best)
            else best) = best' at *
          by_cases complete : better = true ∧ length = size - lastLiterals - pos
          · rw [if_pos complete]
            exact next
          · rw [if_neg complete]
            -- The candidate is near, so no later position took its place.
            have link := chained.chain (candidate - 1) (by omega) (by omega)
            generalize (chains.chain ((candidate - 1) % windowSize)).toNat = step at *
            by_cases ends : step = 0
            · rw [if_pos ends]
              exact next
            · rw [if_neg ends, unsignedSub_eq link (by omega)]
              apply induction _ next
              apply Nat.le_trans (Nat.mod_le _ _)
              omega

theorem findMatch_found (source : Nat → UInt8) (small : size < wordSize)
    (starts : pos + matchFindLimit ≤ size) (chained : Chained chains)
    (isNext : chains.nextUpdate = pos) (attempts : Nat) :
    (findMatch source chains.toTables pos size attempts).Found source size pos := by
  have limit : matchFindLimit = 12 := rfl
  have last : lastLiterals = 5 := rfl
  unfold findMatch
  rw [unsignedSub_eq (by omega) small, unsignedSub_eq (by omega) (by omega)]
  apply findLoop_found small starts chained isNext
  · have before := chained.head (hashWord 15 (readWord source pos))
    rw [isNext] at before
    exact before
  · exact Or.inl rfl

end Ring

/-! ## The search of `lz4hc_compress` -/

section Compress

variable {source : Nat → UInt8} {size capacity attempts : Nat}

/-- A match at the current position, with the tables at most one position
ahead. -/
structure Searched (source : Nat → UInt8) (size : Nat) (finding : Finding) : Prop where
  found : Match source size finding.pos finding.best.offset finding.best.length
  chained : Chained finding.chains
  next : finding.chains.nextUpdate ≤ finding.pos + 1

theorem lazyLoop_spec (most : size < wordSize) (rounds : Nat) {finding : Finding}
    (enough : size < rounds + finding.pos) (searched : Searched source size finding) :
    ∃ finding', lazyLoop source size attempts rounds finding = .done finding' ∧
      finding.pos ≤ finding'.pos ∧ Searched source size finding' := by
  have limit : matchFindLimit = 12 := rfl
  induction rounds generalizing finding with
  | zero =>
      have starts := searched.found.starts
      omega
  | succ rounds induction =>
      unfold lazyLoop
      by_cases further : finding.pos + 1 + matchFindLimit ≤ size
      · rw [if_pos further]
        rcases updateChains_spec (by omega) (finding.pos + 2) (by omega) searched.next
          searched.chained with ⟨chains, updated, isNext, chained⟩
        rw [updated, Checked.done_bind]
        have found := findMatch_found source most further chained isNext attempts
        dsimp only
        generalize findMatch source chains.toTables (finding.pos + 1) size attempts =
          best at *
        by_cases shorter : best.length ≤ finding.best.length + 1
        · rw [if_pos shorter]
          exact ⟨_, rfl, Nat.le_refl _, searched.found, chained, Nat.le_of_eq isNext⟩
        · rw [if_neg shorter]
          rcases found with none | found
          · omega
          · rcases @induction ⟨chains, finding.pos + 1, best⟩ (by simp only; omega)
              ⟨found, chained, by simp only; omega⟩ with ⟨finding', done, order, rest⟩
            exact ⟨finding', done, Nat.le_trans (Nat.le_succ _) order, rest⟩
      · rw [if_neg further]
        exact ⟨finding, rfl, Nat.le_refl _, searched⟩

/-- What holds at the start of each round of `lz4hc_compress`. -/
structure HcCompressing (source : Nat → UInt8) (size capacity : Nat)
    (state : HcCompressor) : Prop where
  order : state.anchor ≤ state.pos
  inside : state.pos ≤ size
  room : state.out.length ≤ capacity
  next : state.chains.nextUpdate ≤ state.pos
  chained : Chained state.chains
  emitted : ∃ sequences, state.out = sequences.flatMap encodeSequence ∧
    Emitted source size state.anchor sequences

theorem hcWrite_spec (most : size ≤ maxInputSize) (small : capacity ≤ maxBufferSize)
    {state : HcCompressor} (compressing : HcCompressing source size capacity state)
    {finding : Finding} (order : state.pos ≤ finding.pos)
    (searched : Searched source size finding) :
    hcWrite source capacity state finding = .failed () ∧ Cramped size capacity ∨
    ∃ state', hcWrite source capacity state finding = .done state' ∧
      state.pos < state'.pos ∧ HcCompressing source size capacity state' := by
  have last : lastLiterals = 5 := rfl
  have least : minMatch = 4 := rfl
  have anchored := compressing.order
  have long := searched.found.long
  have ends := searched.found.ends
  have next := searched.next
  rcases compressing.emitted with ⟨sequences, isOut, emitted⟩
  unfold hcWrite
  cases written : lz4WriteSequence capacity state.out
      (fun index => source (state.anchor + index))
      (unsignedSub finding.pos state.anchor) finding.best.offset
      finding.best.length with
  | none =>
      exact Or.inl ⟨rfl, emitted.write_none most small compressing.room isOut (by omega)
        searched.found written⟩
  | some out =>
      have rest := emitted.write most small compressing.room isOut (by omega)
        searched.found written
      exact Or.inr ⟨_, rfl, by simp only; omega, Nat.le_refl _, by simp only; omega,
        rest.1, by simp only; omega, searched.chained, rest.2⟩

theorem hcStep_spec (most : size ≤ maxInputSize) (small : capacity ≤ maxBufferSize)
    {state : HcCompressor} (compressing : HcCompressing source size capacity state)
    (starts : state.pos + matchFindLimit ≤ size) :
    hcStep source size capacity attempts state = .failed () ∧ Cramped size capacity ∨
    ∃ state', hcStep source size capacity attempts state = .done state' ∧
      state.pos < state'.pos ∧ HcCompressing source size capacity state' := by
  have isMost : maxInputSize < wordSize := by decide
  have limit : matchFindLimit = 12 := rfl
  have bound : size < wordSize := Nat.lt_of_le_of_lt most isMost
  have order := compressing.order
  unfold hcStep
  rcases updateChains_spec (by omega) (state.pos + 1) (by omega) compressing.next
    compressing.chained with ⟨chains, updated, isNext, chained⟩
  rw [updated, Checked.done_bind]
  have found := findMatch_found source bound starts chained isNext attempts
  dsimp only
  generalize findMatch source chains.toTables state.pos size attempts = best at *
  by_cases none : best.length = 0
  · rw [if_pos none]
    exact Or.inr ⟨_, rfl, Nat.lt_succ_self _, by simp only; omega, by simp only; omega,
      compressing.room, by simp only; omega, chained, compressing.emitted⟩
  · rw [if_neg none]
    rcases found with impossible | found
    · exact absurd impossible none
    · have searched : Searched source size ⟨chains, state.pos, best⟩ :=
        ⟨found, chained, by simp only; omega⟩
      rcases lazyLoop_spec bound (size + 1) (by simp only; omega) searched with
        ⟨finding, done, further, searched'⟩
      rw [done, Checked.done_bind]
      exact hcWrite_spec most small compressing further searched'

theorem hcLoop_spec (most : size ≤ maxInputSize) (small : capacity ≤ maxBufferSize)
    (rounds : Nat) {state : HcCompressor} (enough : size < rounds + state.pos)
    (compressing : HcCompressing source size capacity state) :
    hcLoop source size capacity attempts rounds state = .failed () ∧ Cramped size capacity ∨
    ∃ state', hcLoop source size capacity attempts rounds state = .done state' ∧
      HcCompressing source size capacity state' := by
  induction rounds generalizing state with
  | zero =>
      have inside := compressing.inside
      omega
  | succ rounds induction =>
      unfold hcLoop
      by_cases starts : state.pos + matchFindLimit ≤ size
      · rw [if_pos starts]
        rcases hcStep_spec most small compressing starts with
          ⟨failed, cramped⟩ | ⟨state', step, further, compressing'⟩
        · rw [failed]
          exact Or.inl ⟨rfl, cramped⟩
        · rw [step, Checked.done_bind]
          exact induction (by omega) compressing'
      · rw [if_neg starts]
        exact Or.inr ⟨state, rfl, compressing⟩

theorem lz4hcCompress_spec (most : size ≤ maxInputSize)
    (small : capacity ≤ maxBufferSize) (level : Int) (tables : Tables) :
    lz4hcCompress source size capacity level tables = .failed () ∧ Cramped size capacity ∨
    ∃ block, lz4hcCompress source size capacity level tables = .done block ∧
      block.length ≤ capacity ∧ Compressed source size block := by
  have chained :
      Chained { tables with head := fun _ => 0, nextUpdate := 0 } :=
    ⟨fun _ => Nat.le_refl _, fun pos impossible => absurd impossible (Nat.not_lt_zero _)⟩
  have start : HcCompressing source size capacity
      { chains := { tables with head := fun _ => 0, nextUpdate := 0 }
        out := [], anchor := 0, pos := 0 } :=
    ⟨Nat.le_refl _, Nat.zero_le _, Nat.zero_le _, Nat.le_refl _, chained,
      [], rfl, rfl, trivial⟩
  unfold lz4hcCompress
  rw [if_neg (by omega)]
  rcases hcLoop_spec most small (size + 1) (by simp only; omega) start with
    ⟨failed, cramped⟩ | ⟨state, done, compressing⟩
  · rw [failed]
    exact Or.inl ⟨rfl, cramped⟩
  · rw [done, Checked.done_bind]
    rcases compressing.emitted with ⟨sequences, isOut, emitted⟩
    have order := Nat.le_trans compressing.order compressing.inside
    cases written : lz4WriteSequence capacity state.out
        (fun index => source (state.anchor + index)) (unsignedSub size state.anchor)
        0 0 with
    | none =>
        exact Or.inl ⟨rfl, emitted.finish_none most small compressing.room isOut order written⟩
    | some block =>
        exact Or.inr ⟨block, rfl, emitted.finish most small compressing.room isOut order
          written⟩

end Compress

/-- The decoder gives back what was compressed at any level, whatever an earlier
call left in the ring. -/
theorem lz4hc_roundTrip (source : Nat → UInt8) (size capacity : Nat) (level : Int)
    (tables : Tables) (most : size ≤ maxInputSize) (small : capacity ≤ 0x7FFFFFFF) :
    (lz4hcCompress source size capacity level tables).Safe ∧
    ∀ block, lz4hcCompress source size capacity level tables = .done block →
      block.length ≤ capacity ∧
      ∀ dest outCapacity, size ≤ outCapacity → outCapacity ≤ 0x7FFFFFFF →
        ∃ dest', lz4Decompress block dest outCapacity = .done (size, dest') ∧
          ∀ index, index < size → dest' index = source index := by
  rcases lz4hcCompress_spec most small level tables with
    ⟨failed, _⟩ | ⟨block, done, fits, compressed⟩
  · rw [failed]
    refine ⟨trivial, ?_⟩
    intro block impossible
    cases impossible
  · rw [done]
    refine ⟨trivial, ?_⟩
    intro other isBlock
    cases isBlock
    exact ⟨fits, fun dest _ room small' =>
      compressed.decompress most (Nat.le_trans fits small) dest room small'⟩

theorem lz4hc_roundTrip_letters :
    lz4hcCompress (fun _ => 97) 20 100 6 ⟨fun _ => 5, fun _ => 77⟩ =
      .done [26, 97, 1, 0, 80, 97, 97, 97, 97, 97] ∧
    ∃ dest', lz4Decompress [26, 97, 1, 0, 80, 97, 97, 97, 97, 97] (fun _ => 0) 20 =
        .done (20, dest') ∧ ∀ index, index < 20 → dest' index = 97 := by
  have done : lz4hcCompress (fun _ => 97) 20 100 6 ⟨fun _ => 5, fun _ => 77⟩ =
      .done [26, 97, 1, 0, 80, 97, 97, 97, 97, 97] := by decide
  exact ⟨done, ((lz4hc_roundTrip (fun _ => 97) 20 100 6 ⟨fun _ => 5, fun _ => 77⟩
    (by decide) (by decide)).2 _ done).2 (fun _ => 0) 20 (by decide) (by decide)⟩

end Katela.Lz4
