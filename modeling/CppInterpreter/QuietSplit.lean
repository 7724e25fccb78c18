import CppInterpreter.SplitPaths

/-!
# What a quiet split appends

A call of `SplitPaths` that is not verbose computes the nonempty components of its string,
split at the leftmost occurrences of the delimiter. It returns whether all of them are
directories, and appends to the paths it is given what its mode asks for: all components,
the directories among them, or the directories before the first missing component.
-/

namespace CppInterpreter.SplitPaths

open Bytes DelimiterSplit

/-- What each mode appends of the components of a string. -/
def SplitMode.appends (mode : SplitMode) (isDirectory : Bytes → Bool) (components : List Bytes) :
    List Bytes :=
  match mode with
  | .kAllowNonExistant => components
  | .kPruneNonExistant => components.filter isDirectory
  | .kFailNonExistant => components.takeWhile isDirectory

section Quiet

variable {α : Type*} {isDirectory : Bytes → Bool} {mode : SplitMode} {delim : Delimiter UInt8}

/-- When the members of a list that fail a test are those from the first one on, the other
members stand before it. -/
theorem filter_eq_takeWhile {p : α → Bool} {list : List α}
    (last : list.filter (fun item => !p item) = list.dropWhile p) :
    list.filter p = list.takeWhile p := by
  induction list with
  | nil => rfl
  | cons head tail inductionHypothesis =>
    cases holds : p head with
    | true =>
      rw [List.filter_cons_of_pos holds, List.takeWhile_cons_of_pos holds, inductionHypothesis]
      simpa [List.filter_cons, List.dropWhile_cons, holds] using last
    | false =>
      have failing : tail.filter (fun item => !p item) = tail := by
        simpa [List.filter_cons, List.dropWhile_cons, holds] using last
      have none_ : tail.filter p = [] := by
        simpa [List.filter_eq_nil_iff] using List.filter_eq_self.mp failing
      rw [List.filter_cons_of_neg (by simp [holds]), List.takeWhile_cons_of_neg (by simp [holds]), none_]

/-- A tolerated call appends what its mode asks for. -/
theorem recorded_appends {pathStr : Bytes} (paths : List Bytes)
    (tolerated : Tolerated isDirectory mode delim pathStr) :
    recorded isDirectory mode false paths (components delim pathStr) =
      ⟨(components delim pathStr).all isDirectory,
        paths ++ mode.appends isDirectory (components delim pathStr), []⟩ := by
  cases mode with
  | kAllowNonExistant => simp [recorded, SplitMode.appends]
  | kPruneNonExistant => simp [recorded, SplitMode.appends]
  | kFailNonExistant =>
    have appended := filter_eq_takeWhile (missing_is_last tolerated rfl)
    simp [recorded, SplitMode.appends, appended]

/-- A quiet call returns whether all components are directories, and appends to the paths
what its mode asks for. -/
theorem split_computes (isDirectory : Bytes → Bool) (mode : SplitMode) (delim : Delimiter UInt8)
    (fuel : Nat) (pathStr : Bytes) (paths : List Bytes) :
    splitPaths isDirectory mode delim false fuel pathStr paths =
      some ⟨(components delim pathStr).all isDirectory,
        paths ++ mode.appends isDirectory (components delim pathStr), []⟩ := by
  by_cases tolerated : Tolerated isDirectory mode delim pathStr
  · rw [split_tolerated fuel pathStr paths tolerated, recorded_appends paths tolerated]
  · have failing := failing_of_rejected tolerated
    obtain ⟨front, left, same, directories, _, more, present, missing, outcome⟩ :=
      split_missing false fuel pathStr paths tolerated
    have following : components delim left.pathStr =
        (split left.pathStr delim).1 :: components delim (split left.pathStr delim).2 := by
      rw [components_split more, nonempty_cons present]
      rfl
    have incomplete : (components delim pathStr).all isDirectory = false := by
      simp [same, following, missing]
    have appended : mode.appends isDirectory (components delim pathStr) = front := by
      rw [failing, SplitMode.appends, same, List.takeWhile_append_of_pos directories, following,
        List.takeWhile_cons_of_neg (by simp [missing]), List.append_nil]
    rw [outcome, incomplete, appended]
    rfl

end Quiet

end CppInterpreter.SplitPaths
