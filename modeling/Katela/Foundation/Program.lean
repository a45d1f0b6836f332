import Mathlib.Algebra.Ring.Nat

/-! # Programs with state and errors

A function of a C program that changes global variables and reports an error
code is an `EStateM` program: it keeps the state it reached also when it fails.
`Meets` says what holds when such a program has run, and the rules follow the
shape of the program. -/

namespace Katela

variable {ε σ α β : Type} {s : σ}

/-- Running `program` in `s` ends in a return of which `returned` holds, or in
an error of which `failed` holds. -/
def Meets (program : EStateM ε σ α) (s : σ) (returned : α → σ → Prop)
    (failed : ε → σ → Prop) : Prop :=
  match program s with
  | .ok value s' => returned value s'
  | .error error s' => failed error s'

/-- Runs a program and hands its outcome to the caller as a value. -/
def attempt (program : EStateM ε σ α) : EStateM ε σ (Except ε α) := fun s =>
  match program s with
  | .ok value s' => .ok (.ok value) s'
  | .error error s' => .ok (.error error) s'

/-- Fails unless the condition holds. -/
def require (condition : Prop) [Decidable condition] (error : ε) :
    EStateM ε σ Unit :=
  if condition then pure () else throw error

namespace Meets

variable {program : EStateM ε σ α} {next : α → EStateM ε σ β}
variable {returned returned' : α → σ → Prop} {failed failed' : ε → σ → Prop}
variable {then' : β → σ → Prop}

theorem pure {value : α} (holds : returned value s) :
    Meets (Pure.pure value : EStateM ε σ α) s returned failed :=
  holds

theorem throw {error : ε} (holds : failed error s) :
    Meets (throw error : EStateM ε σ α) s returned failed :=
  holds

theorem bind (first : Meets program s
      (fun value s' => Meets (next value) s' then' failed) failed) :
    Meets (program >>= next) s then' failed := by
  unfold Meets at first ⊢
  change match EStateM.bind program next s with
    | .ok value s' => then' value s'
    | .error error s' => failed error s'
  unfold EStateM.bind
  cases result : program s with
  | ok value s' =>
      rw [result] at first
      exact first
  | error error s' =>
      rw [result] at first
      exact first

theorem mono (holds : Meets program s returned failed)
    (onReturn : ∀ value s', returned value s' → returned' value s')
    (onError : ∀ error s', failed error s' → failed' error s') :
    Meets program s returned' failed' := by
  unfold Meets at *
  cases result : program s with
  | ok value s' =>
      rw [result] at holds
      exact onReturn value s' holds
  | error error s' =>
      rw [result] at holds
      exact onError error s' holds

/-- A known outcome of a first part, followed by the rest of a program. -/
theorem seq (first : Meets program s returned failed')
    (rest : ∀ value s', returned value s' →
      Meets (next value) s' then' failed)
    (onError : ∀ error s', failed' error s' → failed error s') :
    Meets (program >>= next) s then' failed :=
  bind (first.mono rest onError)

theorem get {returned : σ → σ → Prop} (holds : returned s s) :
    Meets (MonadState.get : EStateM ε σ σ) s returned failed :=
  holds

theorem modify {change : σ → σ} {returned : Unit → σ → Prop}
    (holds : returned () (change s)) :
    Meets (modify change : EStateM ε σ Unit) s returned failed :=
  holds

theorem attempt {returned : Except ε α → σ → Prop}
    (holds : Meets program s (fun value s' => returned (.ok value) s')
      fun error s' => returned (.error error) s') :
    Meets (attempt program) s returned failed := by
  unfold Meets Katela.attempt at *
  cases result : program s with
  | ok value s' =>
      rw [result] at holds
      exact holds
  | error error s' =>
      rw [result] at holds
      exact holds

theorem require {condition : Prop} [Decidable condition] {error : ε}
    {returned : Unit → σ → Prop} (yes : condition → returned () s)
    (no : ¬ condition → failed error s) :
    Meets (require condition error : EStateM ε σ Unit) s returned failed := by
  unfold Katela.require
  split
  · exact yes ‹_›
  · exact no ‹_›

theorem ite {condition : Prop} [Decidable condition]
    {other : EStateM ε σ α}
    (yes : condition → Meets program s returned failed)
    (no : ¬ condition → Meets other s returned failed) :
    Meets (if condition then program else other) s returned failed := by
  split
  · exact yes ‹_›
  · exact no ‹_›

/-- A program of which the outcome is known. -/
theorem of_ok {value : α} {s' : σ} (run : program s = .ok value s')
    (holds : returned value s') : Meets program s returned failed := by
  unfold Meets
  rw [run]
  exact holds

/-- A program meets what its own run shows. -/
theorem run : Meets program s (fun value s' => program s = .ok value s')
    fun error s' => program s = .error error s' := by
  unfold Meets
  cases program s with
  | ok value s' => rfl
  | error error s' => rfl

/-- What a program meets holds of each of its outcomes. -/
theorem ok_of_run {value : α} {s' : σ} (holds : Meets program s returned failed)
    (run : program s = .ok value s') : returned value s' := by
  unfold Meets at holds
  rw [run] at holds
  exact holds

theorem error_of_run {error : ε} {s' : σ}
    (holds : Meets program s returned failed)
    (run : program s = .error error s') : failed error s' := by
  unfold Meets at holds
  rw [run] at holds
  exact holds

/-- Two facts about one program hold together. -/
theorem and (first : Meets program s returned failed)
    (second : Meets program s returned' failed') :
    Meets program s (fun value s' => returned value s' ∧ returned' value s')
      fun error s' => failed error s' ∧ failed' error s' := by
  unfold Meets at *
  cases result : program s with
  | ok value s' =>
      rw [result] at first second
      exact ⟨first, second⟩
  | error error s' =>
      rw [result] at first second
      exact ⟨first, second⟩

end Meets

/-! ## Invariants -/

/-- Every outcome of the program, from every state with the property, has the
property again. -/
def Keeps (Holds : σ → Prop) (program : EStateM ε σ α) : Prop :=
  ∀ s, Holds s → Meets program s (fun _ s' => Holds s') fun _ s' => Holds s'

namespace Keeps

variable {Holds : σ → Prop} {program : EStateM ε σ α}
variable {next : α → EStateM ε σ β}

theorem pure (value : α) : Keeps Holds (Pure.pure value : EStateM ε σ α) :=
  fun _ holds => holds

theorem throw (error : ε) : Keeps Holds (throw error : EStateM ε σ α) :=
  fun _ holds => holds

theorem get : Keeps Holds (MonadState.get : EStateM ε σ σ) :=
  fun _ holds => holds

theorem bind (first : Keeps Holds program) (rest : ∀ value, Keeps Holds (next value)) :
    Keeps Holds (program >>= next) :=
  fun s holds => (first s holds).seq (fun value s' => rest value s')
    fun _ _ still => still

theorem attempt (keeps : Keeps Holds program) : Keeps Holds (attempt program) :=
  fun s holds => .attempt (keeps s holds)

theorem require {condition : Prop} [Decidable condition] {error : ε} :
    Keeps Holds (require condition error : EStateM ε σ Unit) :=
  fun _ holds => .require (fun _ => holds) fun _ => holds

theorem ite {condition : Prop} [Decidable condition] {other : EStateM ε σ α}
    (yes : Keeps Holds program) (no : Keeps Holds other) :
    Keeps Holds (if condition then program else other) := by
  split
  · exact yes
  · exact no

end Keeps

/-- As `Keeps`, and what the program returns has a property of its own. -/
def Yields (Holds : σ → Prop) (Result : α → Prop) (program : EStateM ε σ α) : Prop :=
  ∀ s, Holds s → Meets program s (fun value s' => Holds s' ∧ Result value)
    fun _ s' => Holds s'

namespace Yields

variable {Holds : σ → Prop} {Result Result' : α → Prop} {Then : β → Prop}
variable {program : EStateM ε σ α} {next : α → EStateM ε σ β}

theorem pure {value : α} (result : Result value) :
    Yields Holds Result (Pure.pure value : EStateM ε σ α) :=
  fun _ holds => ⟨holds, result⟩

theorem throw {error : ε} : Yields Holds Result (throw error : EStateM ε σ α) :=
  fun _ holds => holds

theorem get : Yields Holds Holds (MonadState.get : EStateM ε σ σ) :=
  fun _ holds => ⟨holds, holds⟩

theorem modify {change : σ → σ} (keeps : ∀ s, Holds s → Holds (change s)) :
    Yields Holds (fun _ => True) (modify change : EStateM ε σ Unit) :=
  fun s holds => ⟨keeps s holds, trivial⟩

theorem bind (first : Yields Holds Result program)
    (rest : ∀ value, Result value → Yields Holds Then (next value)) :
    Yields Holds Then (program >>= next) :=
  fun s holds => (first s holds).seq (fun value s' met => rest value met.2 s' met.1)
    fun _ _ still => still

theorem mono (yields : Yields Holds Result program)
    (weaker : ∀ value, Result value → Result' value) : Yields Holds Result' program :=
  fun s holds => (yields s holds).mono (fun value _ met => ⟨met.1, weaker value met.2⟩)
    fun _ _ still => still

theorem attempt (yields : Yields Holds Result program) :
    Yields Holds (fun outcome => ∀ value, outcome = .ok value → Result value)
      (attempt program) := by
  intro s holds
  refine .attempt ((yields s holds).mono ?_ ?_)
  · rintro value s' ⟨still, result⟩
    refine ⟨still, fun other equal => ?_⟩
    cases equal
    exact result
  · intro error s' still
    exact ⟨still, fun other impossible => by cases impossible⟩

theorem require {condition : Prop} [Decidable condition] {error : ε} :
    Yields Holds (fun _ => condition) (require condition error : EStateM ε σ Unit) :=
  fun _ holds => .require (fun yes => ⟨holds, yes⟩) fun _ => holds

theorem ite {condition : Prop} [Decidable condition] {other : EStateM ε σ α}
    (yes : condition → Yields Holds Result program)
    (no : ¬ condition → Yields Holds Result other) :
    Yields Holds Result (if condition then program else other) := by
  split
  · exact yes ‹_›
  · exact no ‹_›

end Yields

end Katela
