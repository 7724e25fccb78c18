import CppInterpreter.DumpIncludePaths
import CppInterpreter.FirstBatches

/-!
# Sessions that add include paths

Calls of `AddIncludePaths` follow each other, and `CopyIncludePaths` lists what they have added.
A call checks its paths against the entries that were there before it, so a path is an entry as
often as in the first call that asks for it, whatever later calls ask for. The entries are
searched in the order in which the paths were asked for first.
-/

namespace CppInterpreter.AddIncludePaths

open Bytes CopyIncludePaths DelimiterSplit FirstBatches HeaderSearchOptions SplitPaths

/-- The paths that a call asks for. -/
def Call.asked (call : Call) : List Bytes := requested call.pathStr call.delim

/-- Calls one after the other, each with the same budget. -/
def addAll (fuel : Nat) : HeaderSearchOptions → List Call → Option HeaderSearchOptions
  | opts, [] => some opts
  | opts, call :: rest => do
    let (added, _) ← addIncludePaths call.isDirectory fuel call.pathStr opts call.delim
    addAll fuel added rest

/-- A session appends angled entries. Their paths are accepted call by call. -/
theorem addAll_eq (fuel : Nat) (calls : List Call) (opts : HeaderSearchOptions) :
    ∃ new, addAll fuel opts calls =
        some { opts with userEntries := opts.userEntries ++ new.map angledEntry } ∧
      opts.userPaths ++ new = acceptAll opts.userPaths (calls.map Call.asked) := by
  induction calls generalizing opts with
  | nil => exact ⟨[], by simp [addAll], by simp [acceptAll]⟩
  | cons call rest inductionHypothesis =>
    obtain ⟨log, returned⟩ :=
      addIncludePaths_eq call.isDirectory fuel call.pathStr opts call.delim
    obtain ⟨next, same⟩ : ∃ next, next = { opts with userEntries :=
        opts.userEntries ++ (checkedPaths opts call.asked).map angledEntry } := ⟨_, rfl⟩
    obtain ⟨new, added, accepted⟩ := inductionHypothesis next
    have paths : next.userPaths = accept opts.userPaths call.asked := by
      rw [same, userPaths, List.map_append, map_path_angledEntry, checkedPaths_eq]
      rfl
    refine ⟨checkedPaths opts call.asked ++ new, ?_, ?_⟩
    · rw [addAll, returned]
      change addAll fuel _ rest = _
      rw [Call.asked] at same
      rw [← same, added, same]
      simp [Call.asked]
    · rw [List.map_cons, acceptAll, List.foldl_cons, ← paths]
      refine Eq.trans ?_ accepted
      rw [same, userPaths, userPaths, List.map_append, map_path_angledEntry, List.append_assoc]

/-- What a session adds to options without entries is listed without flags and without the
system. -/
theorem copy_added {opts : HeaderSearchOptions} {paths : List Bytes}
    (entries : opts.userEntries = paths.map angledEntry) (counted : paths.length < 2 ^ 32) :
    copyIncludePaths opts [] false false = .ok paths := by
  have angled : FrameworksAngled opts.userEntries := by
    intro E present isFramework
    rw [entries] at present
    obtain ⟨path, _, rfl⟩ := List.mem_map.mp present
    cases isFramework
  have all : visited opts = paths.map angledEntry := by
    rw [visited, entries, List.length_map, UInt32.toNat_ofNat_of_lt' counted]
    exact List.take_of_length_le (by rw [List.length_map])
  have listed : written opts false = paths.map angledEntry := by
    rw [written, all]
    apply List.filter_eq_self.mpr
    intro E present
    obtain ⟨path, _, rfl⟩ := List.mem_map.mp present
    rfl
  rw [copyIncludePaths_eq angled, rendered_plain, listed, map_path_angledEntry, List.nil_append]

/-- Whatever calls of `AddIncludePaths` follow each other on options without entries, the list
that `CopyIncludePaths` writes afterwards, without flags and without the system, has the paths in
the order in which they were asked for first, and each of them as often as the first call that
asks for it. -/
theorem session_listed (fuel : Nat) (fresh : HeaderSearchOptions) (vacant : fresh.userEntries = [])
    (calls : List Call) (counted : (calls.flatMap Call.asked).length < 2 ^ 32) :
    ∃ added list, addAll fuel fresh calls = some added ∧
      copyIncludePaths added [] false false = .ok list ∧
      list.eraseDups = (calls.flatMap Call.asked).eraseDups ∧
      ∀ path, list.count path =
        ((calls.map Call.asked).find? (path ∈ ·)).elim 0 (·.count path) := by
  obtain ⟨new, returned, accepted⟩ := addAll_eq fuel calls fresh
  have unknown : fresh.userPaths = [] := by rw [userPaths, vacant, List.map_nil]
  rw [unknown, List.nil_append] at accepted
  have few : new.length < 2 ^ 32 := by
    have bound := length_acceptAll (calls.map Call.asked) []
    rw [← accepted, ← List.flatMap_def, List.length_nil, Nat.zero_add] at bound
    exact Nat.lt_of_le_of_lt bound counted
  refine ⟨_, new, returned, copy_added (by rw [vacant, List.nil_append]) few, ?_, ?_⟩
  · rw [accepted, eraseDups_acceptAll, List.nil_append, List.flatMap_def]
  · intro path
    rw [accepted, count_acceptAll]
    simp

/-- Two calls, the first of which repeats a path. -/
def repeatingCalls : List Call := [envCall "a:b:a", envCall "b:c"]

/-- They ask for the paths between the delimiters. -/
theorem repeatingCalls_asked : repeatingCalls.map Call.asked =
    [[text "a", text "b", text "a"], [text "b", text "c"]] := by
  have colon : kEnvDelim.text = [':'.toUInt8] := by decide
  have joined : ∀ items : List Bytes, (∀ item ∈ items, ':'.toUInt8 ∉ item) →
      components kEnvDelim ([':'.toUInt8].intercalate items) = nonempty items :=
    fun _ free => components_intercalate colon free
  have first : components kEnvDelim (text "a:b:a") = [text "a", text "b", text "a"] :=
    joined [text "a", text "b", text "a"] (by decide)
  have second : components kEnvDelim (text "b:c") = [text "b", text "c"] :=
    joined [text "b", text "c"] (by decide)
  change [components kEnvDelim (text "a:b:a"), components kEnvDelim (text "b:c")] = _
  rw [first, second]

/-- The list after these calls. -/
theorem repeating_listed : ∃ added list, addAll 0 noEntries repeatingCalls = some added ∧
    copyIncludePaths added [] false false = .ok list ∧
    list.eraseDups = (repeatingCalls.flatMap Call.asked).eraseDups ∧
    ∀ path, list.count path =
      ((repeatingCalls.map Call.asked).find? (path ∈ ·)).elim 0 (·.count path) := by
  have few : (repeatingCalls.flatMap Call.asked).length < 2 ^ 32 := by
    rw [List.flatMap_def, repeatingCalls_asked]
    decide
  exact session_listed 0 noEntries rfl repeatingCalls few

end CppInterpreter.AddIncludePaths
