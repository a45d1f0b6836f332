import Katela.Lz4.HighCompression

/-! # Tables of earlier calls

`lz4hc_compress` clears the heads but not the ring. What an earlier call left there is never
read, so it does not change what the call does. -/

namespace Katela.Lz4

/-- The tables differ at most in links that are not in the ring any more. -/
structure Alike (chains chains' : Chains) : Prop where
  head : chains'.head = chains.head
  next : chains'.nextUpdate = chains.nextUpdate
  chain : ∀ pos, pos < chains.nextUpdate → chains.nextUpdate ≤ pos + windowSize →
    chains'.chain (pos % windowSize) = chains.chain (pos % windowSize)

/-- The bytes in the output when `lz4hc_compress` ends, also when it fails: a sequence that
does not fit is not written in part. -/
def hcOutput (source : Nat → UInt8) (size capacity attempts : Nat) :
    (rounds : Nat) → HcCompressor → List UInt8
  | 0, state => state.out
  | rounds + 1, state =>
      if state.pos + matchFindLimit ≤ size then
        match hcStep source size capacity attempts state with
        | .done state => hcOutput source size capacity attempts rounds state
        | _ => state.out
      else
        (lz4WriteSequence capacity state.out (fun index => source (state.anchor + index))
          (unsignedSub size state.anchor) 0 0).getD state.out

section Search

variable {source : Nat → UInt8} {chains chains' : Chains} {size pos target : Nat}

theorem Alike.insertPosition (alike : Alike chains chains') :
    Alike (Lz4.insertPosition source chains) (Lz4.insertPosition source chains') := by
  rcases alike with ⟨head, next, chain⟩
  have window : windowSize = 65536 := rfl
  unfold Lz4.insertPosition
  dsimp only
  rw [head, next]
  constructor
  · rfl
  · rfl
  · intro pos less still
    dsimp only at less still ⊢
    rw [and_window]
    by_cases own : pos % windowSize = chains.nextUpdate % windowSize
    · rw [own, Function.update_self, Function.update_self]
    · rw [Function.update_of_ne own, Function.update_of_ne own]
      have other : pos ≠ chains.nextUpdate := fun equal => own (by rw [equal])
      exact chain pos (by omega) (by omega)

theorem updateChains_alike (small : target < wordSize) (rounds : Nat)
    (enough : target < rounds + chains.nextUpdate) (order : chains.nextUpdate ≤ target)
    (chained : Chained chains) (alike : Alike chains chains') :
    ∃ after after', updateChains source target rounds chains = .done after ∧
      updateChains source target rounds chains' = .done after' ∧
      after.nextUpdate = target ∧ Chained after ∧ Alike after after' := by
  induction rounds generalizing chains chains' with
  | zero => omega
  | succ rounds induction =>
      unfold updateChains
      rw [alike.next]
      by_cases less : chains.nextUpdate < target
      · rw [if_pos less, if_pos less]
        have isNext : (Lz4.insertPosition source chains).nextUpdate =
            chains.nextUpdate + 1 := rfl
        exact induction (by omega) (by omega) (chained.insertPosition (by omega))
          alike.insertPosition
      · rw [if_neg less, if_neg less]
        exact ⟨chains, chains', rfl, rfl, by omega, chained, alike⟩

/-- Only links of near positions are read, and those are in the ring. -/
theorem findLoop_alike (small : pos < wordSize) (chained : Chained chains)
    (isNext : chains.nextUpdate = pos) (alike : Alike chains chains') (limit attempts : Nat)
    {candidate : Nat} {best : Best} (bound : candidate ≤ pos) :
    findLoop source chains'.chain pos limit attempts candidate best =
      findLoop source chains.chain pos limit attempts candidate best := by
  have window : windowSize = 65536 := rfl
  have most : maxOffset = 65535 := rfl
  induction attempts generalizing candidate best with
  | zero => rfl
  | succ attempts induction =>
      unfold findLoop
      by_cases none : candidate = 0
      · rw [if_pos none, if_pos none]
      · rw [if_neg none, if_neg none]
        dsimp only
        rw [unsignedSub_eq (by omega) small, and_window]
        by_cases far : pos - (candidate - 1) > maxOffset
        · rw [if_pos far, if_pos far]
        · rw [if_neg far, if_neg far, alike.chain (candidate - 1) (by omega) (by omega)]
          have link := chained.chain (candidate - 1) (by omega) (by omega)
          generalize (chains.chain ((candidate - 1) % windowSize)).toNat = step at link ⊢
          have bound' : (unsignedSub (candidate - 1) step + 1) % wordSize ≤ pos := by
            rw [unsignedSub_eq link (by omega)]
            apply Nat.le_trans (Nat.mod_le _ _)
            omega
          rw [induction bound']

theorem findMatch_alike (source : Nat → UInt8) (small : pos < wordSize)
    (chained : Chained chains) (isNext : chains.nextUpdate = pos)
    (alike : Alike chains chains') (size attempts : Nat) :
    findMatch source chains'.toTables pos size attempts =
      findMatch source chains.toTables pos size attempts := by
  unfold findMatch
  rw [alike.head]
  apply findLoop_alike small chained isNext alike
  have before := chained.head (hashWord 15 (readWord source pos))
  rw [isNext] at before
  exact before

end Search

/-! ## Two calls side by side -/

structure AlikeFinding (finding finding' : Finding) : Prop where
  chains : Alike finding.chains finding'.chains
  pos : finding'.pos = finding.pos
  best : finding'.best = finding.best

structure AlikeState (state state' : HcCompressor) : Prop where
  chains : Alike state.chains state'.chains
  out : state'.out = state.out
  anchor : state'.anchor = state.anchor
  pos : state'.pos = state.pos

section Calls

variable {source : Nat → UInt8} {size capacity attempts : Nat}

theorem lazyLoop_alike (most : size < wordSize) (rounds : Nat) {finding finding' : Finding}
    (enough : size < rounds + finding.pos) (searched : Searched source size finding)
    (alike : AlikeFinding finding finding') :
    ∃ after after', lazyLoop source size attempts rounds finding = .done after ∧
      lazyLoop source size attempts rounds finding' = .done after' ∧
      AlikeFinding after after' := by
  have limit : matchFindLimit = 12 := rfl
  induction rounds generalizing finding finding' with
  | zero =>
      have starts := searched.found.starts
      omega
  | succ rounds induction =>
      unfold lazyLoop
      rw [alike.pos, alike.best]
      by_cases further : finding.pos + 1 + matchFindLimit ≤ size
      · rw [if_pos further, if_pos further]
        rcases updateChains_alike (by omega) (finding.pos + 2) (by omega) searched.next
          searched.chained alike.chains with
          ⟨chains, chains', updated, updated', isNext, chained, alike'⟩
        rw [updated, updated', Checked.done_bind, Checked.done_bind]
        have found := findMatch_found source most further chained isNext attempts
        have same := findMatch_alike source (by omega) chained isNext alike' size attempts
        dsimp only
        rw [same]
        generalize findMatch source chains.toTables (finding.pos + 1) size attempts =
          best at *
        by_cases shorter : best.length ≤ finding.best.length + 1
        · rw [if_pos shorter, if_pos shorter]
          exact ⟨_, _, rfl, rfl, alike', rfl, rfl⟩
        · rw [if_neg shorter, if_neg shorter]
          rcases found with none | found
          · omega
          · exact induction (by simp only; omega) ⟨found, chained, by simp only; omega⟩
              ⟨alike', rfl, rfl⟩
      · rw [if_neg further, if_neg further]
        exact ⟨finding, finding', rfl, rfl, alike⟩

theorem hcWrite_alike {state state' : HcCompressor} {finding finding' : Finding}
    (alike : AlikeState state state') (alikeFinding : AlikeFinding finding finding') :
    hcWrite source capacity state finding = .failed () ∧
        hcWrite source capacity state' finding' = .failed () ∨
      ∃ after after', hcWrite source capacity state finding = .done after ∧
        hcWrite source capacity state' finding' = .done after' ∧ AlikeState after after' := by
  unfold hcWrite
  rw [alike.out, alike.anchor, alikeFinding.pos, alikeFinding.best]
  cases lz4WriteSequence capacity state.out (fun index => source (state.anchor + index))
      (unsignedSub finding.pos state.anchor) finding.best.offset finding.best.length with
  | none => exact Or.inl ⟨rfl, rfl⟩
  | some out => exact Or.inr ⟨_, _, rfl, rfl, alikeFinding.chains, rfl, rfl, rfl⟩

theorem hcStep_alike (most : size ≤ maxInputSize) {state state' : HcCompressor}
    (compressing : HcCompressing source size capacity state)
    (starts : state.pos + matchFindLimit ≤ size) (alike : AlikeState state state') :
    hcStep source size capacity attempts state = .failed () ∧
        hcStep source size capacity attempts state' = .failed () ∨
      ∃ after after', hcStep source size capacity attempts state = .done after ∧
        hcStep source size capacity attempts state' = .done after' ∧
        AlikeState after after' := by
  have isMost : maxInputSize < wordSize := by decide
  have limit : matchFindLimit = 12 := rfl
  have bound : size < wordSize := Nat.lt_of_le_of_lt most isMost
  unfold hcStep
  rw [alike.pos]
  rcases updateChains_alike (by omega) (state.pos + 1) (by omega) compressing.next
    compressing.chained alike.chains with
    ⟨chains, chains', updated, updated', isNext, chained, alike'⟩
  rw [updated, updated', Checked.done_bind, Checked.done_bind]
  have found := findMatch_found source bound starts chained isNext attempts
  have same := findMatch_alike source (by omega) chained isNext alike' size attempts
  dsimp only
  rw [same]
  generalize findMatch source chains.toTables state.pos size attempts = best at *
  by_cases none : best.length = 0
  · rw [if_pos none, if_pos none]
    exact Or.inr ⟨_, _, rfl, rfl, alike', alike.out, alike.anchor, rfl⟩
  · rw [if_neg none, if_neg none]
    rcases found with impossible | found
    · exact absurd impossible none
    · have searched : Searched source size ⟨chains, state.pos, best⟩ :=
        ⟨found, chained, by simp only; omega⟩
      have alikeFinding : AlikeFinding ⟨chains, state.pos, best⟩ ⟨chains', state.pos, best⟩ :=
        ⟨alike', rfl, rfl⟩
      rcases lazyLoop_alike bound (size + 1) (by simp only; omega) searched alikeFinding with
        ⟨finding, finding', done, done', alikeAfter⟩
      rw [done, done', Checked.done_bind, Checked.done_bind]
      exact hcWrite_alike alike alikeAfter

/-- The loops end alike and leave the same bytes. -/
theorem hcLoop_alike (most : size ≤ maxInputSize) (small : capacity ≤ maxBufferSize)
    (rounds : Nat) {state state' : HcCompressor} (enough : size < rounds + state.pos)
    (compressing : HcCompressing source size capacity state)
    (alike : AlikeState state state') :
    hcOutput source size capacity attempts rounds state' =
        hcOutput source size capacity attempts rounds state ∧
      (hcLoop source size capacity attempts rounds state = .failed () ∧
          hcLoop source size capacity attempts rounds state' = .failed () ∨
        ∃ after after', hcLoop source size capacity attempts rounds state = .done after ∧
          hcLoop source size capacity attempts rounds state' = .done after' ∧
          AlikeState after after') := by
  induction rounds generalizing state state' with
  | zero =>
      have inside := compressing.inside
      omega
  | succ rounds induction =>
      unfold hcLoop hcOutput
      rw [alike.pos, alike.out, alike.anchor]
      by_cases starts : state.pos + matchFindLimit ≤ size
      · rw [if_pos starts, if_pos starts, if_pos starts, if_pos starts]
        rcases @hcStep_alike source size capacity attempts most _ _ compressing starts alike
          with ⟨failed, failed'⟩ | ⟨after, after', step, step', alike'⟩
        · rw [failed, failed']
          exact ⟨rfl, Or.inl ⟨rfl, rfl⟩⟩
        · rcases @hcStep_spec source size capacity attempts most small _ compressing starts
            with ⟨failed, _⟩ | ⟨next, isNext, further, compressing'⟩
          · rw [failed] at step
            cases step
          · rw [step] at isNext
            cases isNext
            rw [step, step', Checked.done_bind, Checked.done_bind]
            exact induction (by omega) compressing' alike'
      · rw [if_neg starts, if_neg starts, if_neg starts, if_neg starts]
        exact ⟨rfl, Or.inr ⟨state, state', rfl, rfl, alike⟩⟩

end Calls

/-- The variables of `lz4hc_compress` before its loop. -/
def hcStart (tables : Tables) : HcCompressor where
  chains := { tables with head := fun _ => 0, nextUpdate := 0 }
  out := []
  anchor := 0
  pos := 0

/-- All bytes that `lz4hc_compress` writes. -/
def lz4hcOutput (source : Nat → UInt8) (size capacity : Nat) (level : Int)
    (tables : Tables) : List UInt8 :=
  if size > maxInputSize ∨ capacity > maxBufferSize then []
  else hcOutput source size capacity (attemptsOf level) (size + 1) (hcStart tables)

theorem hcOutput_of_done {source : Nat → UInt8} {size capacity attempts rounds : Nat}
    {state after : HcCompressor}
    (done : hcLoop source size capacity attempts rounds state = .done after) :
    hcOutput source size capacity attempts rounds state =
      (lz4WriteSequence capacity after.out (fun index => source (after.anchor + index))
        (unsignedSub size after.anchor) 0 0).getD after.out := by
  induction rounds generalizing state with
  | zero => cases done
  | succ rounds induction =>
      unfold hcLoop at done
      unfold hcOutput
      split at done
      · next starts =>
          rcases Checked.bind_eq_done done with ⟨next, step, rest⟩
          rw [if_pos starts, step]
          exact induction rest
      · next ends =>
          cases done
          rw [if_neg ends]

/-- A call that returns has written the block. -/
theorem lz4hcOutput_of_done {source : Nat → UInt8} {size capacity : Nat} {level : Int}
    {tables : Tables} {block : List UInt8}
    (done : lz4hcCompress source size capacity level tables = .done block) :
    lz4hcOutput source size capacity level tables = block := by
  unfold lz4hcCompress at done
  unfold lz4hcOutput
  split at done
  · cases done
  · next inside =>
      rcases Checked.bind_eq_done done with ⟨after, loop, last⟩
      rw [if_neg inside, hcStart, hcOutput_of_done loop]
      split at last
      · cases last
      · next out written =>
          cases last
          rw [written]
          rfl

/-- Whatever the tables held before the call, it returns the same and writes the same
bytes. -/
theorem lz4hc_no_hidden_state (source : Nat → UInt8) (size capacity : Nat) (level : Int)
    (tables tables' : Tables) :
    lz4hcCompress source size capacity level tables' =
        lz4hcCompress source size capacity level tables ∧
      lz4hcOutput source size capacity level tables' =
        lz4hcOutput source size capacity level tables := by
  unfold lz4hcCompress lz4hcOutput
  by_cases outside : size > maxInputSize ∨ capacity > maxBufferSize
  · rw [if_pos outside, if_pos outside, if_pos outside, if_pos outside]
    exact ⟨rfl, rfl⟩
  · rw [if_neg outside, if_neg outside, if_neg outside, if_neg outside]
    have chained : Chained (hcStart tables).chains :=
      ⟨fun _ => Nat.le_refl _, fun pos impossible => absurd impossible (Nat.not_lt_zero _)⟩
    have start : HcCompressing source size capacity (hcStart tables) :=
      ⟨Nat.le_refl _, Nat.zero_le _, Nat.zero_le _, Nat.le_refl _, chained, [], rfl, rfl,
        trivial⟩
    have alike : AlikeState (hcStart tables) (hcStart tables') :=
      ⟨⟨rfl, rfl, fun pos impossible => absurd impossible (Nat.not_lt_zero _)⟩, rfl, rfl, rfl⟩
    have enough : size < size + 1 + (hcStart tables).pos := Nat.lt_succ_self size
    rcases @hcLoop_alike source size capacity (attemptsOf level) (by omega) (by omega)
      (size + 1) _ _ enough start alike with
      ⟨sameOutput, ⟨failed, failed'⟩ | ⟨after, after', done, done', alike'⟩⟩
    · unfold hcStart at failed failed'
      rw [failed, failed']
      exact ⟨rfl, sameOutput⟩
    · unfold hcStart at done done'
      rw [done, done', Checked.done_bind, Checked.done_bind, alike'.out, alike'.anchor]
      exact ⟨rfl, sameOutput⟩

end Katela.Lz4
