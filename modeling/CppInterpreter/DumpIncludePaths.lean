import CppInterpreter.AddIncludePaths
import CppInterpreter.CopyIncludePaths
import CppInterpreter.DelimiterSplit
import CppInterpreter.Loops

/-!
# Dumping include paths

`DumpIncludePaths` prints the list that `CopyIncludePaths` makes, a line for each string. The
index of its loop has 32 bits, as the size of the vector that holds the list.

A dump for the system with flags can be read back: its lines are decoded as the list is. This
gives the settings exactly when no path among them contains a newline and 32 bits count the
user entries. A dump without the system and without flags can be added again, with the newline
as the delimiter: this gives the paths exactly when none of them is empty or contains a newline.
-/

namespace CppInterpreter.CopyIncludePaths

open Bytes PrefixCodes DelimiterSplit

/-- The variables of the loop: the index, and what has been printed. -/
structure Printing where
  i : UInt32
  out : Bytes

/-- The loop: one test of the condition and, while it holds, one line. -/
def printBody (incPaths : List Bytes) (state : Printing) : Printing ⊕ Bytes :=
  match incPaths[state.i.toNat]? with
  | some path => .inl ⟨state.i + 1, state.out ++ path ++ text "\n"⟩
  | none => .inr state.out

/-- `DumpIncludePaths`, if its loop ends. -/
def dumpIncludePaths (opts : HeaderSearchOptions) (withSystem withFlags : Bool) (fuel : Nat) :
    Except FatalError (Option Bytes) :=
  (copyIncludePaths opts [] withSystem withFlags).map fun incPaths =>
    Loops.run (printBody incPaths) fuel ⟨0, []⟩

/-- What `DumpIncludePaths` prints. -/
def Dumps (opts : HeaderSearchOptions) (withSystem withFlags : Bool) (dump : Bytes) : Prop :=
  ∃ least, ∀ fuel, least ≤ fuel → dumpIncludePaths opts withSystem withFlags fuel = .ok (some dump)

/-- A line for each string. -/
def lines (incPaths : List Bytes) : Bytes := incPaths.flatMap (· ++ text "\n")

/-- The newline. -/
def newline : UInt8 := '\n'.toUInt8

/-- The end of a line. -/
def lineEnd : Delimiter UInt8 := ⟨text "\n", by decide⟩

/-- The lines of a dump. Nothing follows the last newline. -/
def readLines (dump : Bytes) : List Bytes := (pieces lineEnd dump).dropLast

/-- The settings that a dump with flags expresses. -/
def readSettings (dump : Bytes) : Option Settings :=
  (decode searchCode (readLines dump)).map recover

/-- No path of the settings contains a newline. -/
structure Settings.Plain (settings : Settings) : Prop where
  sysroot : newline ∉ settings.sysroot
  entries : ∀ directory ∈ settings.entries, newline ∉ directory.path
  resourceDir : newline ∉ settings.resourceDir
  moduleCachePath : newline ∉ settings.moduleCachePath

section Printing

variable {incPaths : List Bytes}

/-- From an index on, the loop prints the strings that are left. -/
theorem print_returns (counted : incPaths.length < 2 ^ 32) {i : UInt32} (out : Bytes)
    (inside : i.toNat ≤ incPaths.length) :
    Loops.Returns (printBody incPaths) ⟨i, out⟩ (out ++ lines (incPaths.drop i.toNat)) := by
  induction measured : incPaths.length - i.toNat generalizing i out with
  | zero =>
    have outside : incPaths.length ≤ i.toNat := by omega
    have leaves : printBody incPaths ⟨i, out⟩ = .inr out := by
      simp only [printBody, List.getElem?_eq_none outside]
    rw [Loops.returns_of_leaves leaves, List.drop_eq_nil_of_le outside, lines, List.flatMap_nil,
      List.append_nil]
  | succ left inductionHypothesis =>
    have within : i.toNat < incPaths.length := by omega
    have next : (i + 1).toNat = i.toNat + 1 := by
      rw [UInt32.toNat_add]
      exact Nat.mod_eq_of_lt (by simp only [UInt32.toNat_one]; omega)
    have continues : printBody incPaths ⟨i, out⟩ =
        .inl ⟨i + 1, out ++ incPaths[i.toNat] ++ text "\n"⟩ := by
      simp only [printBody, List.getElem?_eq_getElem within]
    rw [Loops.returns_of_continues continues]
    have later : Loops.Returns (printBody incPaths) ⟨i + 1, out ++ incPaths[i.toNat] ++ text "\n"⟩
        (out ++ incPaths[i.toNat] ++ text "\n" ++ lines (incPaths.drop (i + 1).toNat)) :=
      inductionHypothesis _ (by omega) (by omega)
    rw [List.drop_eq_getElem_cons within, lines, List.flatMap_cons]
    simpa only [next, lines, List.append_assoc] using later

/-- The loop prints a line for each string. -/
theorem print_whole (counted : incPaths.length < 2 ^ 32) :
    Loops.Returns (printBody incPaths) ⟨0, []⟩ (lines incPaths) := by
  simpa using print_returns counted (i := 0) [] (Nat.zero_le _)

/-- Lines are strings that are joined by newlines, with nothing behind the last one. -/
theorem lines_eq_intercalate (incPaths : List Bytes) :
    lines incPaths = [newline].intercalate (incPaths ++ [[]]) := by
  induction incPaths with
  | nil => rfl
  | cons path rest inductionHypothesis =>
    obtain ⟨next, others, split⟩ : ∃ next others, rest ++ [[]] = next :: others :=
      List.exists_cons_of_ne_nil (by simp)
    rw [List.cons_append, split, List.intercalate_cons_cons, ← split, ← inductionHypothesis, lines,
      List.flatMap_cons]
    rfl

/-- The lines of a dump are the strings, if none of them contains a newline. -/
theorem readLines_lines (plain : ∀ path ∈ incPaths, newline ∉ path) :
    readLines (lines incPaths) = incPaths := by
  have free : ∀ item ∈ incPaths ++ [[]], newline ∉ item := by
    intro item member
    rcases List.mem_append.mp member with path | last
    · exact plain item path
    · simp [List.mem_singleton.mp last]
  rw [readLines, lines_eq_intercalate, pieces_intercalate rfl free (by simp), List.dropLast_concat]

/-- No line that is read contains a newline. -/
theorem readLines_plain (dump : Bytes) : ∀ line ∈ readLines dump, newline ∉ line :=
  fun line member => pieces_free rfl dump line (List.mem_of_mem_dropLast member)

end Printing

section Reading

variable {found : List (Item searchCode)}

/-- An argument of an option is one of the strings. -/
theorem mem_encode_of_argument {item : Item searchCode} {path : Bytes} (member : item ∈ found)
    (inside : path ∈ item.arguments) : path ∈ encode found :=
  List.mem_flatMap.mpr ⟨item, member, List.mem_append_right _ inside⟩

/-- The path behind a flag is plain where the strings are, and its default is. -/
theorem argument_plain (plain : ∀ path ∈ encode found, newline ∉ path) (flag : Flag) {default : Bytes}
    (harmless : newline ∉ default) : newline ∉ (argument flag found).getD default := by
  cases behind : argument flag found with
  | none => exact harmless
  | some path =>
    obtain ⟨item, member, given⟩ := List.exists_of_findSome?_eq_some behind
    split at given
    · exact plain path (mem_encode_of_argument member (List.mem_of_head? given))
    · cases given

/-- The settings that plain strings express are plain. -/
theorem recover_plain (plain : ∀ path ∈ encode found, newline ∉ path) : (recover found).Plain where
  sysroot := argument_plain plain .sysroot (by decide)
  entries := by
    intro directory member
    obtain ⟨item, present, added⟩ := List.mem_filterMap.mp member
    unfold directoryOf at added
    split at added
    · next placement path keyword arguments =>
      obtain rfl := Option.some.inj added
      exact plain path (mem_encode_of_argument present (by simp [arguments]))
    · cases added
  resourceDir := argument_plain plain .resourceDir (by decide)
  moduleCachePath := argument_plain plain .moduleCachePath (by decide)

/-- An option under a condition is present under that condition. -/
theorem mem_optional {present : Bool} {item other : Item searchCode} :
    item ∈ optional present other ↔ present = true ∧ item = other := by
  cases present <;> simp [optional]

/-- No flag contains a newline. -/
theorem words_plain (flag : Flag) : ∀ word ∈ flag.words, newline ∉ word := by
  have all : ∀ flag ∈ flags, ∀ word ∈ flag.words, newline ∉ word := by decide +kernel
  exact all flag (mem_flags flag)

/-- The list of plain settings is plain. -/
theorem items_plain {opts : HeaderSearchOptions} (plain : (settings opts).Plain) :
    ∀ path ∈ encode (items opts true), newline ∉ path := by
  have entries : ∀ E ∈ opts.userEntries, newline ∉ E.path := fun E member =>
    plain.entries (directory E) (List.mem_map_of_mem member)
  have arguments : ∀ item ∈ items opts true, ∀ path ∈ item.arguments, newline ∉ path := by
    intro item present
    simp only [items, trailerItems, ↓reduceIte, List.mem_append, mem_optional, List.mem_map] at present
    obtain (⟨-, rfl⟩ | ⟨E, visited, rfl⟩) |
      (((((⟨-, rfl⟩ | ⟨-, rfl⟩) | ⟨-, rfl⟩) | ⟨-, rfl⟩) | ⟨-, rfl⟩) | ⟨-, rfl⟩) := present
    · simpa using (show newline ∉ opts.sysroot from plain.sysroot)
    · simpa [entryItem] using entries E (List.mem_of_mem_take (List.mem_of_mem_filter visited))
    · simpa using (show newline ∉ opts.resourceDir from plain.resourceDir)
    · simpa using (show newline ∉ opts.moduleCachePath from plain.moduleCachePath)
    all_goals simp
  intro path member
  obtain ⟨item, present, inside⟩ := List.mem_flatMap.mp member
  rcases List.mem_append.mp inside with word | argument
  · exact words_plain item.keyword path word
  · exact arguments item present path argument

end Reading

section Dumping

variable {opts : HeaderSearchOptions} {withSystem withFlags : Bool}

/-- The dump has a line for each string of the list. -/
theorem dumps_lines (angled : FrameworksAngled opts.userEntries)
    (counted : (rendered withFlags (items opts withSystem)).length < 2 ^ 32) :
    Dumps opts withSystem withFlags (lines (rendered withFlags (items opts withSystem))) := by
  obtain ⟨least, ends⟩ := print_whole counted
  refine ⟨least, fun fuel enough => ?_⟩
  rw [dumpIncludePaths, copyIncludePaths_eq angled, List.nil_append]
  exact congrArg (fun result => Except.ok result) (Loops.run_mono ends enough)

/-- The settings are read from the lines of the list exactly when they are plain and 32 bits
count the entries. -/
theorem readSettings_lines (angled : FrameworksAngled opts.userEntries) :
    readSettings (lines (encode (items opts true))) = some (settings opts) ↔
      (settings opts).Plain ∧ opts.userEntries.length < 2 ^ 32 := by
  rw [← visited_iff]
  constructor
  · intro read
    obtain ⟨found, decoded, recovered⟩ := Option.map_eq_some_iff.mp read
    have plain : (settings opts).Plain := by
      rw [← recovered]
      apply recover_plain
      rw [encode_decode decoded]
      exact readLines_plain _
    rw [readLines_lines (items_plain plain), decode_encode] at decoded
    obtain rfl := Option.some.inj decoded
    refine ⟨plain, ?_⟩
    rw [← recover_entries angled, recovered]
    rfl
  · rintro ⟨plain, all⟩
    rw [readSettings, readLines_lines (items_plain plain), decode_encode, Option.map_some,
      recover_items angled, all]
    rfl

/-- Of options without stray frameworks, whose list the vector can hold, the dump for the
system with flags ends. The settings are read from it exactly when none of their paths
contains a newline and there are fewer than 2^32 user entries. -/
theorem dump_recovers_iff (opts : HeaderSearchOptions) (angled : FrameworksAngled opts.userEntries)
    (counted : (encode (items opts true)).length < 2 ^ 32) :
    ∃ dump, Dumps opts true true dump ∧ (readSettings dump = some (settings opts) ↔
      (settings opts).Plain ∧ opts.userEntries.length < 2 ^ 32) :=
  ⟨_, dumps_lines angled counted, readSettings_lines angled⟩

/-- A path that looks like a flag is read from its dump. -/
theorem repeated_twice_dumped : ∃ dump, Dumps (repeated 2) true true dump ∧
    (readSettings dump = some (settings (repeated 2)) ↔
      (settings (repeated 2)).Plain ∧ (repeated 2).userEntries.length < 2 ^ 32) :=
  dump_recovers_iff (repeated 2) (repeated_angled 2) (by decide +kernel)

end Dumping

section Adding

open AddIncludePaths HeaderSearchOptions

variable {opts : HeaderSearchOptions}

/-- Without flags and without the system, the list has the paths of the entries. -/
theorem rendered_plain (opts : HeaderSearchOptions) :
    rendered false (items opts false) = (written opts false).map Entry.path := by
  have entries : ∀ entries : List Entry, directories (entries.map entryItem) = entries.map Entry.path := by
    intro entries
    induction entries with
    | nil => rfl
    | cons E entries inductionHypothesis =>
      simpa [directories, entryItem] using inductionHypothesis
  simp only [rendered, Bool.false_eq_true, ↓reduceIte, items, List.append_nil, directories_append,
    directories_optional, entries]
  simp [directories]

/-- The components of a dump, with the newline as the delimiter, are the strings exactly when
none of them is empty or contains a newline. -/
theorem components_lines_iff (paths : List Bytes) :
    components lineEnd (lines paths) = paths ↔ ∀ path ∈ paths, path ≠ [] ∧ newline ∉ path := by
  constructor
  · intro same path member
    rw [← same, components, mem_nonempty] at member
    exact ⟨member.2, pieces_free rfl _ path member.1⟩
  · intro plain
    have free : ∀ item ∈ paths ++ [[]], newline ∉ item := by
      intro item member
      rcases List.mem_append.mp member with path | last
      · exact (plain item path).2
      · simp [List.mem_singleton.mp last]
    rw [lines_eq_intercalate, components_intercalate rfl free, nonempty_append, nonempty_cons_nil,
      nonempty_nil, List.append_nil]
    exact List.filter_eq_self.mpr fun path member => decide_eq_true (plain path member).1

/-- The newline is a delimiter. -/
theorem requested_lines (pathStr : Bytes) :
    requested pathStr (some (text "\n")) = components lineEnd pathStr := rfl

/-- The dump of the paths without the system and without flags can be added to options without
entries, with the newline as the delimiter. This gives the paths that were dumped, in order,
exactly when none of them is empty or contains a newline. -/
theorem dump_added_iff (opts fresh : HeaderSearchOptions) (angled : FrameworksAngled opts.userEntries)
    (counted : (written opts false).length < 2 ^ 32) (vacant : fresh.userEntries = [])
    (isDirectory : Bytes → Bool) (fuel : Nat) :
    ∃ dump added log, Dumps opts false false dump ∧
      addIncludePaths isDirectory fuel dump fresh (some (text "\n")) = some (added, log) ∧
      (added.userPaths = (written opts false).map Entry.path ↔
        ∀ E ∈ written opts false, E.path ≠ [] ∧ newline ∉ E.path) := by
  have paths := rendered_plain opts
  have dumps : Dumps opts false false (lines (rendered false (items opts false))) :=
    dumps_lines angled (by rwa [paths, List.length_map])
  rw [paths] at dumps
  obtain ⟨added, log, returned, appended⟩ := addIncludePaths_appends isDirectory fuel
    (lines ((written opts false).map Entry.path)) fresh (some (text "\n"))
  refine ⟨_, added, log, dumps, returned, ?_⟩
  have unknown : fresh.userPaths = [] := by rw [userPaths, vacant, List.map_nil]
  have checked : ∀ paths, checkedPaths fresh paths = paths := by
    intro paths
    simp [checkedPaths, vacant]
  rw [appended, unknown, List.nil_append, checked, requested_lines, components_lines_iff,
    List.forall_mem_map]

/-- A path that is dumped twice is added twice. -/
theorem repeated_twice_added : ∃ dump added log, Dumps (repeated 2) false false dump ∧
    addIncludePaths (fun _ => true) 0 dump (repeated 0) (some (text "\n")) = some (added, log) ∧
    (added.userPaths = (written (repeated 2) false).map Entry.path ↔
      ∀ E ∈ written (repeated 2) false, E.path ≠ [] ∧ newline ∉ E.path) :=
  dump_added_iff (repeated 2) (repeated 0) (repeated_angled 2) (by decide +kernel) rfl (fun _ => true) 0

end Adding

end CppInterpreter.CopyIncludePaths
