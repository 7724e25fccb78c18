import CppInterpreter.HeaderSearchOptions
import CppInterpreter.Runs
import CppInterpreter.SplitPaths

/-!
# Adding include paths

`AddIncludePaths` splits a string at a delimiter, drops the pieces that are user entries
already, and appends the others as entries. The pieces are checked against the entries
that were there before the call, so a piece that is new and occurs twice is added twice.
-/

namespace CppInterpreter.AddIncludePaths

open Bytes DelimiterSplit HeaderSearchOptions Runs SplitPaths

/-- A delimiter is a C string; the null pointer and the empty string are none. -/
def delimiter? (delim : Option Bytes) : Option (Delimiter UInt8) :=
  match delim with
  | none => none
  | some delim => if nonempty : cStr delim ≠ [] then some ⟨cStr delim, nonempty⟩ else none

/-- The entry that is added for a path. -/
def angledEntry (path : Bytes) : Entry := ⟨path, .Angled, false, true⟩

/-- The paths that are no user entries. -/
def checkedPaths (opts : HeaderSearchOptions) (paths : List Bytes) : List Bytes :=
  paths.filter fun path => !opts.userEntries.any fun entry => entry.path = path

/-- The lines of a verbose call. -/
def addedLog (pathsChecked : List Bytes) : List Bytes :=
  text "Added include paths:\n" :: pathsChecked.map fun path => text "  " ++ path ++ text "\n"

/-- The pieces of the string with the lines that the split logs. Without a delimiter the
string is the only piece. -/
def splitString (isDirectory : Bytes → Bool) (fuel : Nat) (pathStr : Bytes) (verbose : Bool) :
    Option (Delimiter UInt8) → Option (List Bytes × List Bytes)
  | none => some ([pathStr], [])
  | some delim =>
    (splitPaths isDirectory .kAllowNonExistant delim verbose fuel pathStr []).map fun outcome =>
      (outcome.paths, outcome.log.map LogLine.render)

/-- `AddIncludePaths`, with what it logs. The budget is that of the split. -/
def addIncludePaths (isDirectory : Bytes → Bool) (fuel : Nat) (pathStr : Bytes)
    (opts : HeaderSearchOptions) (delim : Option Bytes) :
    Option (HeaderSearchOptions × List Bytes) := do
  let (paths, log) ← splitString isDirectory fuel pathStr opts.verbose (delimiter? delim)
  let pathsChecked := checkedPaths opts paths
  let added := pathsChecked.foldl (fun opts path => opts.addPath path .Angled false true) opts
  return (added, log ++ if opts.verbose then addedLog pathsChecked else [])

/-- The paths that a call asks for: the components of the string, or the string itself. -/
def requested (pathStr : Bytes) (delim : Option Bytes) : List Bytes :=
  match delimiter? delim with
  | some delim => components delim pathStr
  | none => [pathStr]

/-- A call, with the file system as the call finds it. -/
structure Call where
  isDirectory : Bytes → Bool
  pathStr : Bytes
  delim : Option Bytes

/-- The system of all calls. A call that exhausts its budget faults. -/
def adding (opts : HeaderSearchOptions) (call : Call) (outcome : Outcome HeaderSearchOptions Unit) :
    Prop :=
  ∃ fuel, outcome =
    match addIncludePaths call.isDirectory fuel call.pathStr opts call.delim with
    | some (added, _) => .continues added
    | none => .fault ()

/-- The user entries have pairwise distinct paths. -/
def DistinctPaths (opts : HeaderSearchOptions) : Prop := opts.userPaths.Nodup

/-- A path that a call asks for more than once is an entry already. -/
def RepeatsKnown (opts : HeaderSearchOptions) (call : Call) : Prop :=
  ∀ path, 1 < (requested call.pathStr call.delim).count path → path ∈ opts.userPaths

/-- The mode that tolerates missing directories appends every component and logs none. -/
theorem recorded_all (isDirectory : Bytes → Bool) (verbose : Bool) (components : List Bytes) :
    recorded isDirectory .kAllowNonExistant verbose [] components =
      ⟨components.all isDirectory, components, []⟩ := by
  simp [recorded]

/-- The added entries have the paths that they are added for. -/
theorem map_path_angledEntry (paths : List Bytes) : (paths.map angledEntry).map Entry.path = paths := by
  rw [List.map_map]
  exact List.map_id paths

/-- Adding paths one by one appends an entry for each of them and changes nothing else. -/
theorem addPaths_eq (paths : List Bytes) (opts : HeaderSearchOptions) :
    paths.foldl (fun opts path => opts.addPath path .Angled false true) opts =
      { opts with userEntries := opts.userEntries ++ paths.map angledEntry } := by
  induction paths generalizing opts with
  | nil => simp
  | cons path rest inductionHypothesis =>
    rw [List.foldl_cons, inductionHypothesis, addPath, List.append_assoc]
    rfl

/-- The check compares with the paths of the user entries. -/
theorem mem_checkedPaths {opts : HeaderSearchOptions} {paths : List Bytes} {path : Bytes} :
    path ∈ checkedPaths opts paths ↔ path ∈ paths ∧ path ∉ opts.userPaths := by
  simp [checkedPaths, userPaths]

/-- The split of a call yields what the call asks for, with any budget. -/
theorem splitString_requested (isDirectory : Bytes → Bool) (fuel : Nat) (pathStr : Bytes)
    (verbose : Bool) (delim : Option Bytes) :
    splitString isDirectory fuel pathStr verbose (delimiter? delim) =
      some (requested pathStr delim, []) := by
  unfold requested
  cases delimiter? delim with
  | none => rfl
  | some delim =>
    have tolerated : Tolerated isDirectory .kAllowNonExistant delim pathStr := nofun
    rw [splitString, split_tolerated fuel pathStr [] tolerated, recorded_all]
    rfl

/-- A call returns with any budget. It appends entries for those of the paths it asks for
that are no entries yet. -/
theorem addIncludePaths_eq (isDirectory : Bytes → Bool) (fuel : Nat) (pathStr : Bytes)
    (opts : HeaderSearchOptions) (delim : Option Bytes) :
    ∃ log, addIncludePaths isDirectory fuel pathStr opts delim =
      some ({ opts with userEntries := opts.userEntries ++
        (checkedPaths opts (requested pathStr delim)).map angledEntry }, log) := by
  simp only [addIncludePaths, splitString_requested, ← addPaths_eq]
  exact ⟨_, rfl⟩

/-- The paths of the entries after a call are the old ones and those that are new. -/
theorem addIncludePaths_appends (isDirectory : Bytes → Bool) (fuel : Nat) (pathStr : Bytes)
    (opts : HeaderSearchOptions) (delim : Option Bytes) :
    ∃ added log, addIncludePaths isDirectory fuel pathStr opts delim = some (added, log) ∧
      added.userPaths = opts.userPaths ++ checkedPaths opts (requested pathStr delim) := by
  obtain ⟨log, returned⟩ := addIncludePaths_eq isDirectory fuel pathStr opts delim
  refine ⟨_, log, returned, ?_⟩
  simp only [userPaths, List.map_append, map_path_angledEntry]

/-- The appended paths are pairwise distinct exactly when the repeated ones are known. -/
theorem checkedPaths_nodup (opts : HeaderSearchOptions) (paths : List Bytes) :
    (checkedPaths opts paths).Nodup ↔ ∀ path, 1 < paths.count path → path ∈ opts.userPaths := by
  rw [List.nodup_iff_count]
  apply forall_congr'
  intro path
  by_cases known : path ∈ opts.userPaths
  · have absent : path ∉ checkedPaths opts paths := by
      intro kept
      exact (mem_checkedPaths.mp kept).2 known
    simp [List.count_eq_zero_of_not_mem absent, known]
  · have kept : (checkedPaths opts paths).count path = paths.count path := by
      apply List.count_filter
      simpa [userPaths] using known
    rw [kept]
    simp [known]

/-- The entries stay distinct in a call exactly when each path it repeats is known. -/
theorem distinct_added_iff {opts : HeaderSearchOptions} (distinct : DistinctPaths opts)
    (paths : List Bytes) : (opts.userPaths ++ checkedPaths opts paths).Nodup ↔
      ∀ path, 1 < paths.count path → path ∈ opts.userPaths := by
  rw [List.nodup_append, ← checkedPaths_nodup]
  constructor
  · rintro ⟨_, fresh, _⟩
    exact fresh
  · intro fresh
    refine ⟨distinct, fresh, ?_⟩
    rintro path entry _ kept rfl
    exact (mem_checkedPaths.mp kept).2 entry

/-- One call leaves distinct entries exactly when each path it repeats is known. -/
theorem adding_accepted {opts : HeaderSearchOptions} (distinct : DistinctPaths opts) {call : Call}
    {outcome : Outcome HeaderSearchOptions Unit} (performed : adding opts call outcome) :
    RepeatsKnown opts call ↔ outcome.Accepted DistinctPaths := by
  obtain ⟨fuel, rfl⟩ := performed
  obtain ⟨added, log, returned, appended⟩ :=
    addIncludePaths_appends call.isDirectory fuel call.pathStr opts call.delim
  rw [returned]
  change RepeatsKnown opts call ↔ added.userPaths.Nodup
  rw [appended, distinct_added_iff distinct, RepeatsKnown]

/-- Starting from distinct entries, the entries are distinct after each call of a
sequence exactly when no call repeats a path that is new to it. -/
theorem paths_distinct_iff (opts : HeaderSearchOptions) (distinct : DistinctPaths opts)
    (calls : List Call) :
    Safe adding DistinctPaths opts calls ↔ Meets adding RepeatsKnown opts calls := by
  apply safe_iff_meets
  · exact fun _ => id
  · intro opts call outcome distinct performed
    exact adding_accepted distinct performed
  · exact fun _ _ _ _ _ => id
  · exact distinct

/-- What a call does to the options: the old entries stay in front and nothing but the
entries changes; every path that is asked for is an entry; the new entries are angled ones for
exactly those of the paths that were no entries, in order; and the same call, whatever the
directories are then, adds nothing. -/
structure Completes (opts : HeaderSearchOptions) (pathStr : Bytes) (delim : Option Bytes)
    (added : HeaderSearchOptions) (new : List Entry) : Prop where
  appends : added = { opts with userEntries := opts.userEntries ++ new }
  complete : ∀ path ∈ requested pathStr delim, ∃ entry ∈ added.userEntries, entry.path = path
  angled : ∀ entry ∈ new, entry.group = .Angled ∧ entry.isFramework = false
  ordered : new.map Entry.path = (requested pathStr delim).filter (· ∉ opts.userPaths)
  again : ∀ isDirectory fuel, ∃ log,
    addIncludePaths isDirectory fuel pathStr added delim = some (added, log)

/-- The check keeps the paths that are no entries. -/
theorem checkedPaths_eq (opts : HeaderSearchOptions) (paths : List Bytes) :
    checkedPaths opts paths = paths.filter (· ∉ opts.userPaths) := by
  apply List.filter_congr
  intro path _
  rw [Bool.eq_iff_iff]
  simp [userPaths]

/-- Where all paths are entries the check keeps none. -/
theorem checkedPaths_known {opts : HeaderSearchOptions} {paths : List Bytes}
    (known : ∀ path ∈ paths, path ∈ opts.userPaths) : checkedPaths opts paths = [] := by
  apply List.eq_nil_iff_forall_not_mem.mpr
  intro path kept
  obtain ⟨present, unknown⟩ := mem_checkedPaths.mp kept
  exact unknown (known path present)

/-- A call for paths that are entries changes nothing. -/
theorem addIncludePaths_known {opts : HeaderSearchOptions} {pathStr : Bytes} {delim : Option Bytes}
    (known : ∀ path ∈ requested pathStr delim, path ∈ opts.userPaths)
    (isDirectory : Bytes → Bool) (fuel : Nat) :
    ∃ log, addIncludePaths isDirectory fuel pathStr opts delim = some (opts, log) := by
  obtain ⟨log, returned⟩ := addIncludePaths_eq isDirectory fuel pathStr opts delim
  rw [checkedPaths_known known, List.map_nil, List.append_nil] at returned
  exact ⟨log, returned⟩

/-- `AddIncludePaths` is complete, keeps the old entries, adds nothing but what is missing, and
adds nothing when it is called again. -/
theorem addIncludePaths_completes (isDirectory : Bytes → Bool) (fuel : Nat)
    (opts : HeaderSearchOptions) (pathStr : Bytes) (delim : Option Bytes) :
    ∃ added log new, addIncludePaths isDirectory fuel pathStr opts delim = some (added, log) ∧
      Completes opts pathStr delim added new := by
  obtain ⟨log, returned⟩ := addIncludePaths_eq isDirectory fuel pathStr opts delim
  obtain ⟨added, same⟩ : ∃ added, added = { opts with userEntries := opts.userEntries ++
      (checkedPaths opts (requested pathStr delim)).map angledEntry } := ⟨_, rfl⟩
  rw [← same] at returned
  have known : ∀ path ∈ requested pathStr delim, path ∈ added.userPaths := by
    intro path asked
    simp only [same, userPaths, List.map_append, map_path_angledEntry, List.mem_append]
    by_cases old : path ∈ opts.userPaths
    · exact Or.inl old
    · exact Or.inr (mem_checkedPaths.mpr ⟨asked, old⟩)
  refine ⟨added, log, _, returned, same, ?_, ?_, ?_, addIncludePaths_known known⟩
  · intro path asked
    exact List.mem_map.mp (known path asked)
  · intro entry new
    obtain ⟨path, _, rfl⟩ := List.mem_map.mp new
    exact ⟨rfl, rfl⟩
  · rw [map_path_angledEntry, checkedPaths_eq]

/-- Default options, without user entries. -/
def noEntries : HeaderSearchOptions := ⟨text "/", [], [], [], true, true, false, false⟩

/-- A call for a string with the delimiter of environment variables. -/
def envCall (pathStr : String) : Call := ⟨fun _ => true, text pathStr, some (text ":")⟩

/-- The equivalence for two calls with a common path. -/
theorem common_path_distinct :
    Safe adding DistinctPaths noEntries [envCall "a:b", envCall "b"] ↔
      Meets adding RepeatsKnown noEntries [envCall "a:b", envCall "b"] :=
  paths_distinct_iff noEntries List.nodup_nil [envCall "a:b", envCall "b"]

/-- A path that is new and occurs twice in one string is added twice. -/
theorem repeated_path_duplicated : DistinctPaths noEntries ∧
    ¬ Safe adding DistinctPaths noEntries [envCall "a:a"] := by
  have distinct : DistinctPaths noEntries := List.nodup_nil
  refine ⟨distinct, ?_⟩
  intro safe
  have first : cut kEnvDelim (text "a:a") = some (text "a", text "a") := by decide
  have last : cut kEnvDelim (text "a") = none := by decide
  have twice : requested (text "a:a") (some (text ":")) = [text "a", text "a"] := by
    change components kEnvDelim (text "a:a") = _
    rw [components, pieces_cut first, pieces_uncut last]
    decide
  have repeats := (adding_accepted distinct ⟨0, rfl⟩).mpr (safe.2 _ ⟨0, rfl⟩)
  have known := repeats (text "a") (by simp only [envCall, twice]; decide)
  exact absurd known (by decide)

end CppInterpreter.AddIncludePaths
