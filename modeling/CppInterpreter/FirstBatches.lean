import Mathlib.Data.List.Basic

/-!
# Batches that are checked against what is there

Items come in batches. Those of a batch that are not known are appended, and become known
with the whole batch; so a batch is not checked against itself.

The order in which items appear first is that of all batches behind each other. An item is
listed as often as in the first batch that has it.
-/

namespace CppInterpreter.FirstBatches

variable {α : Type*} [BEq α] [LawfulBEq α]

/-- The items of a batch that are not known are appended. -/
def accept (known batch : List α) : List α := known ++ batch.filter (· ∉ known)

/-- Batches are accepted one after the other. -/
def acceptAll (known : List α) (batches : List (List α)) : List α := batches.foldl accept known

variable {known batch : List α} {item : α}

/-- What is accepted was known, or is in the batch. -/
theorem mem_accept : item ∈ accept known batch ↔ item ∈ known ∨ item ∈ batch := by
  by_cases old : item ∈ known <;> simp [accept, old]

/-- Leaving known items out does not change which items come first. -/
theorem eraseDups_accept (known batch later : List α) :
    (accept known batch ++ later).eraseDups = (known ++ batch ++ later).eraseDups := by
  have fresh : (batch.filter (· ∉ known)).removeAll known = batch.removeAll known := by
    simp [List.removeAll, List.filter_filter]
  have front : (accept known batch).eraseDups = (known ++ batch).eraseDups := by
    rw [accept, List.eraseDups_append, List.eraseDups_append, fresh]
  have behind : later.removeAll (accept known batch) = later.removeAll (known ++ batch) := by
    apply List.filter_congr
    intro item _
    have same : item ∈ accept known batch ↔ item ∈ known ++ batch := by
      rw [mem_accept, List.mem_append]
    simp [same]
  rw [List.eraseDups_append, List.eraseDups_append, front, behind]

/-- The items come first in the order of all batches. -/
theorem eraseDups_acceptAll (batches : List (List α)) (known : List α) :
    (acceptAll known batches).eraseDups = (known ++ batches.flatten).eraseDups := by
  induction batches generalizing known with
  | nil => simp [acceptAll]
  | cons batch rest inductionHypothesis =>
    have later := inductionHypothesis (accept known batch)
    rw [eraseDups_accept, List.append_assoc] at later
    exact later

/-- A known item is not listed again, and a new one as often as in its batch. -/
theorem count_accept (known batch : List α) (item : α) :
    (accept known batch).count item = if item ∈ known then known.count item else batch.count item := by
  rw [accept, List.count_append]
  split
  · next old =>
    have absent : item ∉ batch.filter (· ∉ known) := by
      simp [old]
    rw [List.count_eq_zero_of_not_mem absent, Nat.add_zero]
  · next new =>
    rw [List.count_eq_zero_of_not_mem new, Nat.zero_add]
    exact List.count_filter (by simpa using new)

/-- An item is listed as often as in the first batch that has it. -/
theorem count_acceptAll (batches : List (List α)) (known : List α) (item : α) :
    (acceptAll known batches).count item =
      ((known :: batches).find? (item ∈ ·)).elim 0 (·.count item) := by
  induction batches generalizing known with
  | nil =>
    by_cases old : item ∈ known
    · simp [acceptAll, old]
    · simp [acceptAll, old, List.count_eq_zero_of_not_mem old]
  | cons batch rest inductionHypothesis =>
    have later := inductionHypothesis (accept known batch)
    rw [acceptAll, List.foldl_cons]
    rw [acceptAll] at later
    rw [later]
    by_cases old : item ∈ known
    · simp [mem_accept, old, count_accept]
    · by_cases new : item ∈ batch
      · simp [mem_accept, old, new, count_accept]
      · simp [mem_accept, old, new]

/-- No more items are listed than come in. -/
theorem length_acceptAll (batches : List (List α)) (known : List α) :
    (acceptAll known batches).length ≤ known.length + batches.flatten.length := by
  induction batches generalizing known with
  | nil => simp [acceptAll]
  | cons batch rest inductionHypothesis =>
    have later := inductionHypothesis (accept known batch)
    have fewer := List.length_filter_le (· ∉ known) batch
    have accepted : (accept known batch).length ≤ known.length + batch.length := by
      rw [accept, List.length_append]
      exact Nat.add_le_add_left fewer known.length
    rw [acceptAll, List.foldl_cons, List.flatten_cons, List.length_append]
    rw [acceptAll] at later
    omega

end CppInterpreter.FirstBatches
