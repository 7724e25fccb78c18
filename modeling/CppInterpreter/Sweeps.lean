import Mathlib.Data.List.Basic

/-!
# Rewrites that report their changes

A rewrite returns a value and reports whether it changed it. It settles when its report
is exact and nothing is left to change afterwards. Lists are swept value by value,
either independently or with a state that each rewrite hands to the next; a sweep
reports whether any rewrite did.

Independent sweeps settle when their rewrites do. A sweep with a state is compared
with an independent one through an invariant on the state and the values that remain.
-/

namespace CppInterpreter.Sweeps

variable {α σ : Type*}

/-- The report of the first run is exact, and a second run right after it, perhaps with
other answers from outside, neither changes nor reports anything. -/
structure Settles (run rerun : α → Bool × α) : Prop where
  reports : ∀ value, (run value).1 = true ↔ (run value).2 ≠ value
  again : ∀ value, rerun (run value).2 = (false, (run value).2)

/-- A guarded change settles when it is one and takes its value out of the guard. -/
theorem guarded_settles {run : α → Bool × α} (guard : α → Bool) (change : α → α)
    (eq : ∀ value, run value = if guard value then (true, change value) else (false, value))
    (changes : ∀ value, guard value = true → guard (change value) = false) :
    Settles run run where
  reports value := by
    cases guarded : guard value with
    | true =>
      have different : change value ≠ value := by
        intro same
        simpa [same, guarded] using changes value guarded
      simp [eq, guarded, different]
    | false => simp [eq, guarded]
  again value := by
    cases guarded : guard value with
    | true => simp [eq, guarded, changes value guarded]
    | false => simp [eq, guarded]

/-- A sweep that rewrites each value by itself. -/
def each (rewrite : α → Bool × α) (values : List α) : Bool × List α :=
  ((values.map rewrite).any (·.1), (values.map rewrite).map (·.2))

@[simp] theorem each_nil (rewrite : α → Bool × α) : each rewrite [] = (false, []) := rfl

@[simp] theorem each_cons (rewrite : α → Bool × α) (value : α) (rest : List α) :
    each rewrite (value :: rest) =
      ((rewrite value).1 || (each rewrite rest).1, (rewrite value).2 :: (each rewrite rest).2) := rfl

/-- A sweep settles when the rewrite of single values does. -/
theorem each_settles {run rerun : α → Bool × α} (settles : Settles run rerun) :
    Settles (each run) (each rerun) where
  reports values := by
    induction values with
    | nil => simp
    | cons value rest inductionHypothesis =>
      simp only [each_cons, Bool.or_eq_true, settles.reports, inductionHypothesis, ne_eq,
        List.cons.injEq, not_and_or]
  again values := by
    induction values with
    | nil => rfl
    | cons value rest inductionHypothesis =>
      simp [settles.again, inductionHypothesis]

/-- A sweep whose rewrites hand a state on. -/
def thread (rewrite : σ → α → Bool × α × σ) : σ → List α → Bool × List α × σ
  | state, [] => (false, [], state)
  | state, value :: rest =>
    let (changed, value, state) := rewrite state value
    let (ret, values, state) := thread rewrite state rest
    (changed || ret, value :: values, state)

section Thread

variable {rewrite : σ → α → Bool × α × σ}

/-- The report of a sweep is exact when that of each rewrite is. -/
theorem thread_reports
    (reports : ∀ state value, (rewrite state value).1 = true ↔ (rewrite state value).2.1 ≠ value)
    (state : σ) (values : List α) :
    (thread rewrite state values).1 = true ↔ (thread rewrite state values).2.1 ≠ values := by
  induction values generalizing state with
  | nil => simp [thread]
  | cons value rest inductionHypothesis =>
    simp only [thread, Bool.or_eq_true, reports, inductionHypothesis, ne_eq, List.cons.injEq,
      not_and_or]

/-- Values that no rewrite touches are left alone, and so is the state. -/
theorem thread_untouched {values : List α}
    (untouched : ∀ value ∈ values, ∀ state, rewrite state value = (false, value, state)) (state : σ) :
    thread rewrite state values = (false, values, state) := by
  induction values with
  | nil => rfl
  | cons value rest inductionHypothesis =>
    obtain ⟨here, later⟩ := List.forall_mem_cons.mp untouched
    simp [thread, here state, inductionHypothesis later]

/-- What every rewrite establishes holds of all values of a sweep. -/
theorem thread_establishes (p : α → Prop) (establishes : ∀ state value, p (rewrite state value).2.1)
    (state : σ) (values : List α) : ∀ value ∈ (thread rewrite state values).2.1, p value := by
  induction values generalizing state with
  | nil => simp [thread]
  | cons value rest inductionHypothesis =>
    exact List.forall_mem_cons.mpr ⟨establishes state value, inductionHypothesis _⟩

/-- A sweep agrees with an independent one when an invariant, kept by each rewrite, makes
it independent of the state. -/
theorem thread_eq_each {independent : α → Bool × α} (invariant : σ → List α → Prop)
    (step : ∀ state value rest, invariant state (value :: rest) → ∃ next,
      rewrite state value = ((independent value).1, (independent value).2, next) ∧ invariant next rest)
    (state : σ) (values : List α) (initially : invariant state values) : ∃ next,
      thread rewrite state values = ((each independent values).1, (each independent values).2, next) ∧
        invariant next [] := by
  induction values generalizing state with
  | nil => exact ⟨state, rfl, initially⟩
  | cons value rest inductionHypothesis =>
    obtain ⟨next, rewritten, kept⟩ := step state value rest initially
    obtain ⟨last, swept, lasting⟩ := inductionHypothesis next kept
    exact ⟨last, by simp [thread, rewritten, swept], lasting⟩

end Thread

end CppInterpreter.Sweeps
