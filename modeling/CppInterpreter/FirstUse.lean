import Mathlib.Logic.Function.Basic

/-!
# Caches that keep the first value

A cache entry is made at the first request for its key, from the value that this
request carries, and serves every later request for the key whatever it carries. Each
request is served its own value exactly when requests for one key agree, among
themselves and with what the cache holds already.
-/

namespace CppInterpreter.FirstUse

variable {κ ν : Type*}

/-- The value that a request is served. -/
def serve (cache : κ → Option ν) (request : κ × ν) : ν := (cache request.1).getD request.2

/-- The cache after a request. -/
def remember [DecidableEq κ] (cache : κ → Option ν) (request : κ × ν) : κ → Option ν :=
  Function.update cache request.1 (some (serve cache request))

/-- Every request in turn is served its own value. -/
def Faithful [DecidableEq κ] : (κ → Option ν) → List (κ × ν) → Prop
  | _, [] => True
  | cache, request :: rest =>
    serve cache request = request.2 ∧ Faithful (remember cache request) rest

/-- A request is served its own value when the entry, if any, agrees. -/
theorem serve_eq_iff (cache : κ → Option ν) (request : κ × ν) :
    serve cache request = request.2 ↔ ∀ stored, cache request.1 = some stored → stored = request.2 := by
  cases entry : cache request.1 <;> simp [serve, entry]

/-- A request that is served its own value leaves it as the entry, so a later request
agrees with the cache when it agreed before and agrees with that value too. -/
theorem remembered_iff [DecidableEq κ] {cache : κ → Option ν} {request : κ × ν}
    (served : serve cache request = request.2) (later : κ × ν) :
    (∀ stored, remember cache request later.1 = some stored → stored = later.2) ↔
      (∀ stored, cache later.1 = some stored → stored = later.2) ∧
        (request.1 = later.1 → request.2 = later.2) := by
  by_cases same : request.1 = later.1
  · have agrees := (serve_eq_iff cache request).mp served
    rw [same] at agrees
    simp only [remember, served, same, Function.update_self, Option.some.injEq, forall_eq',
      true_implies]
    constructor
    · intro equal
      exact ⟨fun stored entry => (agrees stored entry).trans equal, equal⟩
    · exact And.right
  · simp [remember, Function.update_of_ne (Ne.symm same), same]

/-- Requests are served faithfully exactly when each agrees with the entry that the
cache starts with and any two for one key agree. -/
theorem faithful_iff [DecidableEq κ] (cache : κ → Option ν) (requests : List (κ × ν)) :
    Faithful cache requests ↔
      (∀ request ∈ requests, ∀ stored, cache request.1 = some stored → stored = request.2) ∧
        requests.Pairwise fun earlier later => earlier.1 = later.1 → earlier.2 = later.2 := by
  induction requests generalizing cache with
  | nil => simp [Faithful]
  | cons request rest inductionHypothesis =>
    simp only [Faithful, inductionHypothesis, List.forall_mem_cons, List.pairwise_cons,
      ← serve_eq_iff cache request, and_assoc]
    apply and_congr_right
    intro served
    simp only [remembered_iff served, ← and_assoc, ← forall₂_and]

end CppInterpreter.FirstUse
