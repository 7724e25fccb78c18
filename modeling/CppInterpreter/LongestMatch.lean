import Mathlib.Data.List.Basic

/-!
# Longest matches

A lexical grammar says which lists are words of which kind. A longest match is a word
at the beginning of a list that no other word there exceeds. In an unambiguous grammar
it determines its kind as well as its length.
-/

namespace CppInterpreter.LongestMatch

variable {κ α : Type*} {words : κ → List α → Prop}

/-- A word at the beginning of a list that is as long as any other word there. -/
structure Longest (words : κ → List α → Prop) (input : List α) (kind : κ) (word : List α) : Prop where
  begins : word <+: input
  belongs : words kind word
  longest : ∀ otherKind other, other <+: input → words otherKind other → other.length ≤ word.length

/-- No word has two kinds. -/
def Unambiguous (words : κ → List α → Prop) : Prop :=
  ∀ kind other word, words kind word → words other word → kind = other

/-- An unambiguous grammar has one longest match at most. -/
theorem Longest.unique (unambiguous : Unambiguous words) {input first second : List α}
    {kind other : κ} (one : Longest words input kind first)
    (two : Longest words input other second) : kind = other ∧ first = second := by
  have lengths : first.length = second.length :=
    Nat.le_antisymm (two.longest kind first one.begins one.belongs)
      (one.longest other second two.begins two.belongs)
  have same : first = second :=
    (List.prefix_of_prefix_length_le one.begins two.begins (Nat.le_of_eq lengths)).eq_of_length lengths
  exact ⟨unambiguous kind other first one.belongs (same ▸ two.belongs), same⟩

/-- A stretch of one class at the beginning of a list is contained in the longest one. -/
theorem length_le_takeWhile {p : α → Bool} {word input : List α} (begins : word <+: input)
    (inside : ∀ item ∈ word, p item = true) : word.length ≤ (input.takeWhile p).length := by
  obtain ⟨rest, rfl⟩ := begins
  rw [List.takeWhile_append_of_pos inside, List.length_append]
  exact Nat.le_add_right _ _

end CppInterpreter.LongestMatch
