import Mathlib.Init

/-!
# Runs of a system that may fault

An action takes a state to outcomes: a fault, a next state, or the end of the session,
behind which nothing is performed. A run is safe when no action faults and every state
on the way is good, whichever outcomes occur. It meets a guard when each performed
action is admitted by the guard in the state it finds.

Where the guard decides, at the states of an invariant, whether an action keeps the
state good, a run from such a state is safe exactly when it meets the guard.
-/

namespace CppInterpreter.Runs

variable {σ α ε : Type*}

/-- What an action leads to. -/
inductive Outcome (σ ε : Type*) where
  | fault (error : ε)
  | continues (next : σ)
  | ends
deriving DecidableEq, Repr

/-- No fault, and a next state only within a property. -/
def Outcome.Accepted (good : σ → Prop) : Outcome σ ε → Prop
  | .fault _ => False
  | .continues next => good next
  | .ends => True

/-- What is accepted for a property is accepted for a weaker one. -/
theorem Outcome.Accepted.mono {good better : σ → Prop} (weaker : ∀ state, better state → good state)
    {outcome : Outcome σ ε} (accepted : outcome.Accepted better) : outcome.Accepted good := by
  cases outcome with
  | fault error => exact accepted
  | continues next => exact weaker next accepted
  | ends => exact accepted

/-- The system in which an action has the one outcome that a function computes. -/
def performing (perform : σ → α → Outcome σ ε) (state : σ) (action : α) (outcome : Outcome σ ε) :
    Prop :=
  outcome = perform state action

variable (step : σ → α → Outcome σ ε → Prop)

/-- No action faults, and every state on the way is good. -/
def Safe (good : σ → Prop) : σ → List α → Prop
  | state, [] => good state
  | state, action :: rest =>
    good state ∧ ∀ outcome, step state action outcome →
      outcome.Accepted fun next => Safe good next rest

/-- Each performed action is admitted in the state it finds. -/
def Meets (guard : σ → α → Prop) : σ → List α → Prop
  | _, [] => True
  | state, action :: rest =>
    ∀ outcome, step state action outcome → guard state action ∧
      match outcome with
      | .continues next => Meets guard next rest
      | .fault _ | .ends => True

variable {step}

/-- A safe run begins in a good state. -/
theorem Safe.good {good : σ → Prop} {state : σ} {actions : List α}
    (safe : Safe step good state actions) : good state := by
  cases actions with
  | nil => exact safe
  | cons action rest => exact safe.1

/-- A guard that decides each step decides whole runs.

The states of a run satisfy an invariant that implies the property. Where the invariant
holds, the guard admits a step exactly when the step keeps the property, and then the
step keeps the invariant as well. -/
theorem safe_iff_meets {good invariant : σ → Prop} {guard : σ → α → Prop}
    (sound : ∀ state, invariant state → good state)
    (decides : ∀ state action outcome, invariant state → step state action outcome →
      (guard state action ↔ outcome.Accepted good))
    (inherits : ∀ state action outcome, invariant state → step state action outcome →
      outcome.Accepted good → outcome.Accepted invariant)
    (actions : List α) {state : σ} (initial : invariant state) :
    Safe step good state actions ↔ Meets step guard state actions := by
  induction actions generalizing state with
  | nil => exact iff_of_true (sound state initial) trivial
  | cons action rest inductionHypothesis =>
    simp only [Safe, Meets, sound state initial, true_and]
    apply forall_congr'
    intro outcome
    apply imp_congr_right
    intro performed
    rw [decides state action outcome initial performed]
    have inherited := inherits state action outcome initial performed
    cases outcome with
    | fault error => simp [Outcome.Accepted]
    | ends => simp [Outcome.Accepted]
    | continues next =>
      constructor
      · intro safe
        have kept : good next := safe.good
        exact ⟨kept, (inductionHypothesis (inherited kept)).mp safe⟩
      · rintro ⟨kept, meets⟩
        exact (inductionHypothesis (inherited kept)).mpr meets

section Answers

variable {β : Type*}

/-- The answers to successive actions, where each is answered with a next state. -/
def answers (answer : σ → α → σ × β) : σ → List α → List β
  | _, [] => []
  | state, action :: rest => (answer state action).2 :: answers answer (answer state action).1 rest

/-- A wrong answer is a fault. -/
def checking [DecidableEq β] (answer : σ → α → σ × β) (expected : α → β) (state : σ) (action : α) :
    Outcome σ β :=
  if (answer state action).2 = expected action then .continues (answer state action).1
  else .fault (answer state action).2

/-- All answers are the expected ones exactly when a run in which wrong answers are faults
is safe. -/
theorem answers_eq_iff_safe [DecidableEq β] (answer : σ → α → σ × β) (expected : α → β)
    (actions : List α) (state : σ) : answers answer state actions = actions.map expected ↔
      Safe (performing (checking answer expected)) (fun _ => True) state actions := by
  induction actions generalizing state with
  | nil => exact iff_of_true rfl trivial
  | cons action rest inductionHypothesis =>
    simp only [answers, List.map_cons, List.cons.injEq, Safe, performing, forall_eq, true_and,
      inductionHypothesis, checking]
    split
    · next right => exact and_iff_right right
    · next wrong => exact iff_of_false (fun both => wrong both.1) id

end Answers

end CppInterpreter.Runs
