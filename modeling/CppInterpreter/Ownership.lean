import Mathlib.Data.List.Nodup
import Mathlib.Data.List.Perm.Basic

/-!
# Owned resources

Resources are acquired fresh and released by their owners. Those that exist are the ones
that nobody here owns, and the owned ones, each of them once. Acquiring and releasing keep
it so.
-/

namespace CppInterpreter.Ownership

variable {ρ : Type*}

/-- The existing resources are the others and the owned ones, without duplicates. -/
structure Owns (others existing owned : List ρ) : Prop where
  accounted : existing.Perm (others ++ owned)
  distinct : existing.Nodup

variable {others existing owned : List ρ}

/-- At the beginning nothing is owned. -/
theorem owns_nothing (distinct : others.Nodup) : Owns others others [] :=
  ⟨by rw [List.append_nil], distinct⟩

/-- Owned resources exist. -/
theorem Owns.exists {resource : ρ} (owns : Owns others existing owned) (member : resource ∈ owned) :
    resource ∈ existing :=
  owns.accounted.mem_iff.mpr (List.mem_append_right others member)

/-- Resources may change their owners. -/
theorem Owns.regroup {regrouped : List ρ} (owns : Owns others existing owned)
    (same : owned.Perm regrouped) : Owns others existing regrouped :=
  ⟨owns.accounted.trans (same.append_left others), owns.distinct⟩

/-- A resource is acquired that did not exist before. -/
theorem Owns.acquire {resource : ρ} (owns : Owns others existing owned)
    (fresh : resource ∉ existing) : Owns others (resource :: existing) (resource :: owned) :=
  ⟨(owns.accounted.cons resource).trans List.perm_middle.symm, List.nodup_cons.mpr ⟨fresh, owns.distinct⟩⟩

variable [BEq ρ] [LawfulBEq ρ]

/-- An owned resource is released. -/
theorem Owns.release {resource : ρ} (owns : Owns others existing (resource :: owned)) :
    Owns others (existing.erase resource) owned := by
  refine ⟨?_, owns.distinct.erase resource⟩
  have moved : existing.Perm (resource :: (others ++ owned)) := owns.accounted.trans List.perm_middle
  simpa using moved.erase resource

/-- Several owned resources are released one after the other. -/
theorem Owns.release_all (released : List ρ) (owns : Owns others existing (released ++ owned)) :
    Owns others (released.foldl List.erase existing) owned := by
  induction released generalizing existing with
  | nil => exact owns
  | cons resource rest inductionHypothesis => exact inductionHypothesis owns.release

end CppInterpreter.Ownership
