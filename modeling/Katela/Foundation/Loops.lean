import Katela.Foundation.Program

/-! # Loops

A loop of a C program runs its body again and again, and nothing says that it ends.
`Loops` relates a loop that does end to its result. A function that counts the rounds
computes this result if it counts far enough. -/

namespace Katela

variable {ε σ κ α : Type}

/-- The loop with the given body ends with a result. A round of the body goes on with
new values of the local variables, or leaves the loop with a value. -/
inductive Loops (body : κ → EStateM ε σ (κ ⊕ α)) :
    κ → σ → EStateM.Result ε σ α → Prop where
  | leave {locals : κ} {s s' : σ} {value : α}
      (round : body locals s = .ok (.inr value) s') :
      Loops body locals s (.ok value s')
  | fail {locals : κ} {s s' : σ} {error : ε} (round : body locals s = .error error s') :
      Loops body locals s (.error error s')
  | again {locals locals' : κ} {s s' : σ} {result : EStateM.Result ε σ α}
      (round : body locals s = .ok (.inl locals') s')
      (rest : Loops body locals' s' result) : Loops body locals s result

/-- What a function that counts the rounds does after one round of the body. -/
def afterRound (more : κ → EStateM ε σ α) : κ ⊕ α → EStateM ε σ α
  | .inl locals => more locals
  | .inr value => pure value

/-- A program that starts by reading the state. -/
theorem get_bind_run (program : σ → EStateM ε σ α) (s : σ) :
    (MonadState.get >>= program : EStateM ε σ α) s = program s s :=
  rfl

namespace Loops

variable {body : κ → EStateM ε σ (κ ⊕ α)} {locals : κ} {s : σ}

/-- A function that runs a number of rounds computes the result of the loop if, round by
round, the number stays large enough. -/
theorem of_rounds {run : Nat → κ → EStateM ε σ α} {Enough : Nat → κ → σ → Prop}
    (positive : ∀ locals s, ¬ Enough 0 locals s)
    (round : ∀ rounds locals s, Enough (rounds + 1) locals s →
      run (rounds + 1) locals s = (body locals >>= afterRound (run rounds)) s ∧
      Meets (body locals) s
        (fun outcome s' => ∀ locals', outcome = .inl locals' → Enough rounds locals' s')
        fun _ _ => True)
    (rounds : Nat) : ∀ {locals : κ} {s : σ}, Enough rounds locals s →
      Loops body locals s (run rounds locals s) := by
  induction rounds with
  | zero => exact fun enough => absurd enough (positive _ _)
  | succ rounds induction =>
      intro locals s enough
      rcases round rounds locals s enough with ⟨unfolds, next⟩
      rw [unfolds]
      change Loops body locals s (EStateM.bind (body locals) (afterRound (run rounds)) s)
      unfold EStateM.bind
      cases outcome : body locals s with
      | error error s' => exact .fail outcome
      | ok value s' =>
          cases value with
          | inr value => exact .leave outcome
          | inl locals' =>
              have enough' := next.ok_of_run outcome locals' rfl
              exact .again outcome (induction enough')

/-- An invariant of the body holds until the loop ends. -/
theorem meets {program : EStateM ε σ α} {Holds : κ → σ → Prop}
    {returned : α → σ → Prop} {failed : ε → σ → Prop}
    (loops : Loops body locals s (program s)) (holds : Holds locals s)
    (round : ∀ locals s, Holds locals s → Meets (body locals) s
      (fun outcome s' => match outcome with
        | .inl locals' => Holds locals' s'
        | .inr value => returned value s')
      failed) :
    Meets program s returned failed := by
  unfold Meets
  generalize program s = result at loops
  induction loops with
  | leave outcome => exact (round _ _ holds).ok_of_run outcome
  | fail outcome => exact (round _ _ holds).error_of_run outcome
  | again outcome _ induction => exact induction ((round _ _ holds).ok_of_run outcome)

end Loops

end Katela
