import Mathlib.Order.WellFounded

/-!
# Loops that may fail to return

A loop body maps a state either to the next state or to the value with which the
loop is left. Running a body consumes one unit of fuel for each execution, so an
exhausted budget is distinguishable from every returned value. Returning and
termination quantify over the budget: they are properties of the loop alone.

Termination is accessibility of the initial state under the body's own steps.
Two consequences are used throughout: an invariant that always continues rules
termination out, and two loops related by an abstraction function terminate
together.
-/

namespace CppInterpreter.Loops

variable {σ ρ τ θ : Type*}

/-- Execute the body until it leaves the loop or the budget is exhausted. -/
def run (body : σ → σ ⊕ ρ) : Nat → σ → Option ρ
  | 0, _ => none
  | fuel + 1, state =>
    match body state with
    | .inl next => run body fuel next
    | .inr result => some result

/-- Some budget suffices to leave the loop with this value. -/
def Returns (body : σ → σ ⊕ ρ) (state : σ) (result : ρ) : Prop :=
  ∃ fuel, run body fuel state = some result

/-- The loop is left after finitely many executions of its body. -/
def Terminates (body : σ → σ ⊕ ρ) (state : σ) : Prop := ∃ result, Returns body state result

/-- The relation from a state to the one it continues with, in the orientation
of a decreasing order. -/
def Continues (body : σ → σ ⊕ ρ) (next state : σ) : Prop := body state = .inl next

/-- A body that leaves the loop returns exactly its own value. -/
theorem returns_of_leaves {body : σ → σ ⊕ ρ} {state : σ} {left : ρ}
    (leaves : body state = .inr left) (result : ρ) :
    Returns body state result ↔ result = left := by
  constructor
  · rintro ⟨fuel, finished⟩
    cases fuel with
    | zero => simp [run] at finished
    | succ fuel =>
      simp only [run, leaves, Option.some.injEq] at finished
      exact finished.symm
  · rintro rfl
    exact ⟨1, by simp [run, leaves]⟩

/-- A continuing body hands the loop over to its next state: one further unit of
fuel translates the budgets into one another. -/
theorem returns_of_continues {body : σ → σ ⊕ ρ} {state next : σ}
    (continues : body state = .inl next) (result : ρ) :
    Returns body state result ↔ Returns body next result := by
  constructor
  · rintro ⟨fuel, finished⟩
    cases fuel with
    | zero => simp [run] at finished
    | succ fuel => exact ⟨fuel, by simpa only [run, continues] using finished⟩
  · rintro ⟨fuel, finished⟩
    exact ⟨fuel + 1, by simpa only [run, continues] using finished⟩

/-- A larger budget changes nothing about a loop that has been left. -/
theorem run_mono {body : σ → σ ⊕ ρ} {fuel more : Nat} {state : σ} {result : ρ}
    (finished : run body fuel state = some result) (enough : fuel ≤ more) :
    run body more state = some result := by
  induction fuel generalizing more state with
  | zero => cases finished
  | succ fuel inductionHypothesis =>
    obtain ⟨more, rfl⟩ := Nat.exists_eq_add_of_lt enough
    rw [show fuel + more + 1 = (fuel + more) + 1 from rfl]
    cases stepped : body state with
    | inl next =>
      simp only [run, stepped] at finished ⊢
      exact inductionHypothesis finished (Nat.le_add_right fuel more)
    | inr left => simpa only [run, stepped] using finished

/-- A loop returns one value at most. -/
theorem returns_unique {body : σ → σ ⊕ ρ} {state : σ} {first second : ρ}
    (one : Returns body state first) (two : Returns body state second) : first = second := by
  obtain ⟨fuel, finished⟩ := one
  induction fuel generalizing state with
  | zero => cases finished
  | succ fuel inductionHypothesis =>
    cases stepped : body state with
    | inl next =>
      have later : run body fuel next = some first := by simpa only [run, stepped] using finished
      exact inductionHypothesis ((returns_of_continues stepped second).mp two) later
    | inr left =>
      have ended : left = first := by simpa only [run, stepped, Option.some.injEq] using finished
      exact ended.symm.trans ((returns_of_leaves stepped second).mp two).symm

/-- A continuing body terminates exactly when its next state does. -/
theorem terminates_of_continues {body : σ → σ ⊕ ρ} {state next : σ}
    (continues : body state = .inl next) :
    Terminates body state ↔ Terminates body next :=
  exists_congr (returns_of_continues continues)

/-- A body that leaves the loop terminates. -/
theorem terminates_of_leaves {body : σ → σ ⊕ ρ} {state : σ} {left : ρ}
    (leaves : body state = .inr left) : Terminates body state :=
  ⟨left, (returns_of_leaves leaves left).mpr rfl⟩

/-- Termination is accessibility of the state under the body's own steps.

A finished budget bounds the chain of continuations. Conversely an accessible
state either leaves the loop or continues with a state that terminates. -/
theorem terminates_iff_acc (body : σ → σ ⊕ ρ) (state : σ) :
    Terminates body state ↔ Acc (Continues body) state := by
  constructor
  · rintro ⟨result, fuel, finished⟩
    induction fuel generalizing state with
    | zero => simp [run] at finished
    | succ fuel inductionHypothesis =>
      refine Acc.intro state fun next continues => ?_
      have stepped : body state = .inl next := continues
      exact inductionHypothesis next (by simpa only [run, stepped] using finished)
  · intro accessible
    induction accessible with
    | intro state _ inductionHypothesis =>
      cases stepped : body state with
      | inl next => exact (terminates_of_continues stepped).mpr (inductionHypothesis next stepped)
      | inr left => exact terminates_of_leaves stepped

/-- An invariant whose states always continue within it never leaves the loop. -/
theorem diverges {body : σ → σ ⊕ ρ} (invariant : σ → Prop)
    (continues : ∀ state, invariant state → ∃ next, body state = .inl next ∧ invariant next)
    (state : σ) (initial : invariant state) : ¬ Terminates body state := by
  rw [terminates_iff_acc]
  intro accessible
  induction accessible with
  | intro state _ inductionHypothesis =>
    obtain ⟨next, stepped, kept⟩ := continues state initial
    exact inductionHypothesis next stepped kept

/-- Two loops terminate together when an abstraction function carries every
continuing step of the first to a continuing step of the second, and every exit
to an exit. Determinism of the bodies makes these two premises sufficient. -/
theorem terminates_iff_abstract {body : σ → σ ⊕ ρ} {target : τ → τ ⊕ θ} (abstraction : σ → τ)
    (invariant : σ → Prop)
    (continues : ∀ state next, invariant state → body state = .inl next →
      target (abstraction state) = .inl (abstraction next) ∧ invariant next)
    (leaves : ∀ state result, invariant state → body state = .inr result →
      ∃ left, target (abstraction state) = .inr left)
    (state : σ) (initial : invariant state) :
    Terminates body state ↔ Terminates target (abstraction state) := by
  constructor
  · rw [terminates_iff_acc]
    intro accessible
    induction accessible with
    | intro state _ inductionHypothesis =>
      cases stepped : body state with
      | inl next =>
        obtain ⟨followed, kept⟩ := continues state next initial stepped
        exact (terminates_of_continues followed).mpr (inductionHypothesis next stepped kept)
      | inr result =>
        obtain ⟨left, exits⟩ := leaves state result initial stepped
        exact terminates_of_leaves exits
  · intro terminated
    rw [terminates_iff_acc] at terminated
    generalize same : abstraction state = abstract at terminated
    induction terminated generalizing state with
    | intro abstract _ inductionHypothesis =>
      cases stepped : body state with
      | inl next =>
        obtain ⟨followed, kept⟩ := continues state next initial stepped
        exact (terminates_of_continues stepped).mpr
          (inductionHypothesis (abstraction next) (same ▸ followed) next kept rfl)
      | inr result => exact terminates_of_leaves stepped

end CppInterpreter.Loops
