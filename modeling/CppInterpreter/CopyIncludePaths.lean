import Mathlib.Algebra.Group.Nat.Defs
import CppInterpreter.HeaderSearchOptions
import CppInterpreter.PrefixCodes

/-!
# Copying include paths

`CopyIncludePaths` writes search options into one flat list of strings: the system root,
the user entries in order, and the directories and switches that belong to the system.
Flags are written with `withFlags` only, and entries of system groups as well as what
follows the entries with `withSystem` only.

With flags the list is a code: each flag stands for one option, and the flags that take a
path take exactly one. The loop counts the entries with 32 bits, so it passes over those
from 2^32 on, and over all of them where their number is a multiple of 2^32.
-/

namespace CppInterpreter.CopyIncludePaths

open Bytes HeaderSearchOptions PrefixCodes

/-- `llvm::report_fatal_error`. -/
structure FatalError where
  reason : String
deriving DecidableEq, Repr

/-- One round of the loop over the user entries. -/
def copyEntry (withSystem withFlags : Bool) (incpaths : List Bytes) (E : Entry) :
    Except FatalError (List Bytes) :=
  if E.isFramework ∧ E.group ≠ .Angled then .error ⟨"Invalid option set!"⟩
  else
    let flag (name : String) : List Bytes := if withFlags then [text name] else []
    match E.group with
    | .After => .ok (incpaths ++ flag "-idirafter" ++ [E.path])
    | .Quoted => .ok (incpaths ++ flag "-iquote" ++ [E.path])
    | .System =>
      if !withSystem then .ok incpaths
      else .ok (incpaths ++ flag "-isystem" ++ [E.path])
    | .IndexHeaderMap =>
      if !withSystem then .ok incpaths
      else .ok (incpaths ++ flag "-index-header-map" ++ flag (if E.isFramework then "-F" else "-I") ++
        [E.path])
    | .CSystem =>
      if !withSystem then .ok incpaths
      else .ok (incpaths ++ flag "-c-isystem" ++ [E.path])
    | .ExternCSystem =>
      if !withSystem then .ok incpaths
      else .ok (incpaths ++ flag "-extern-c-isystem" ++ [E.path])
    | .CXXSystem =>
      if !withSystem then .ok incpaths
      else .ok (incpaths ++ flag "-cxx-isystem" ++ [E.path])
    | .ObjCSystem =>
      if !withSystem then .ok incpaths
      else .ok (incpaths ++ flag "-objc-isystem" ++ [E.path])
    | .ObjCXXSystem =>
      if !withSystem then .ok incpaths
      else .ok (incpaths ++ flag "-objcxx-isystem" ++ [E.path])
    | .Angled => .ok (incpaths ++ flag (if E.isFramework then "-F" else "-I") ++ [E.path])

/-- The entries that the loop visits: its bound `e` is an `unsigned`. -/
def visited (opts : HeaderSearchOptions) : List Entry :=
  opts.userEntries.take (UInt32.ofNat opts.userEntries.length).toNat

/-- What is appended behind the entries. -/
def copyTrailers (opts : HeaderSearchOptions) (incpaths : List Bytes) (withSystem withFlags : Bool) :
    List Bytes :=
  let incpaths := if withSystem ∧ opts.resourceDir ≠ [] then
      incpaths ++ ((if withFlags then [text "-resource-dir"] else []) ++ [opts.resourceDir])
    else incpaths
  let incpaths := if withSystem ∧ withFlags ∧ opts.moduleCachePath ≠ [] then
      incpaths ++ [text "-fmodule-cache-path", opts.moduleCachePath]
    else incpaths
  let incpaths := if withSystem ∧ withFlags ∧ !opts.useStandardSystemIncludes then
      incpaths ++ [text "-nostdinc"]
    else incpaths
  let incpaths := if withSystem ∧ withFlags ∧ !opts.useStandardCXXIncludes then
      incpaths ++ [text "-nostdinc++"]
    else incpaths
  let incpaths := if withSystem ∧ withFlags ∧ opts.useLibcxx then
      incpaths ++ [text "-stdlib=libc++"]
    else incpaths
  if withSystem ∧ withFlags ∧ opts.verbose then incpaths ++ [text "-v"] else incpaths

/-- `CopyIncludePaths`. -/
def copyIncludePaths (opts : HeaderSearchOptions) (incpaths : List Bytes)
    (withSystem withFlags : Bool) : Except FatalError (List Bytes) := do
  let incpaths := if withFlags ∧ opts.sysroot ≠ text "/" then
      incpaths ++ [text "-isysroot", opts.sysroot]
    else incpaths
  let incpaths ← (visited opts).foldlM (copyEntry withSystem withFlags) incpaths
  return copyTrailers opts incpaths withSystem withFlags

/-- No entry outside the angled group is a framework. -/
def FrameworksAngled (entries : List Entry) : Prop :=
  ∀ entry ∈ entries, entry.isFramework = true → entry.group = .Angled

/-- Where an entry is searched. Only the angled group holds frameworks. -/
inductive Placement where
  | plain (group : IncludeDirGroup)
  | framework
deriving DecidableEq, Repr

def Placement.group : Placement → IncludeDirGroup
  | .plain group => group
  | .framework => .Angled

def Placement.isFramework : Placement → Bool
  | .plain _ => false
  | .framework => true

/-- The options that the list expresses. -/
inductive Flag where
  | sysroot
  | entry (placement : Placement)
  | resourceDir
  | moduleCachePath
  | nostdinc
  | nostdincxx
  | libcxx
  | verbose
deriving DecidableEq, Repr

/-- The strings that express an option. -/
def Flag.words : Flag → List Bytes
  | .sysroot => [text "-isysroot"]
  | .entry .framework => [text "-F"]
  | .entry (.plain .Angled) => [text "-I"]
  | .entry (.plain .IndexHeaderMap) => [text "-index-header-map", text "-I"]
  | .entry (.plain .After) => [text "-idirafter"]
  | .entry (.plain .Quoted) => [text "-iquote"]
  | .entry (.plain .System) => [text "-isystem"]
  | .entry (.plain .CSystem) => [text "-c-isystem"]
  | .entry (.plain .ExternCSystem) => [text "-extern-c-isystem"]
  | .entry (.plain .CXXSystem) => [text "-cxx-isystem"]
  | .entry (.plain .ObjCSystem) => [text "-objc-isystem"]
  | .entry (.plain .ObjCXXSystem) => [text "-objcxx-isystem"]
  | .resourceDir => [text "-resource-dir"]
  | .moduleCachePath => [text "-fmodule-cache-path"]
  | .nostdinc => [text "-nostdinc"]
  | .nostdincxx => [text "-nostdinc++"]
  | .libcxx => [text "-stdlib=libc++"]
  | .verbose => [text "-v"]

/-- The number of paths behind an option. -/
def Flag.paths : Flag → Nat
  | .sysroot | .entry _ | .resourceDir | .moduleCachePath => 1
  | .nostdinc | .nostdincxx | .libcxx | .verbose => 0

/-- All options. -/
def flags : List Flag :=
  [.sysroot, .entry .framework, .entry (.plain .Angled), .entry (.plain .IndexHeaderMap),
    .entry (.plain .After), .entry (.plain .Quoted), .entry (.plain .System),
    .entry (.plain .CSystem), .entry (.plain .ExternCSystem), .entry (.plain .CXXSystem),
    .entry (.plain .ObjCSystem), .entry (.plain .ObjCXXSystem), .resourceDir, .moduleCachePath,
    .nostdinc, .nostdincxx, .libcxx, .verbose]

/-- Every option is listed. -/
theorem mem_flags (flag : Flag) : flag ∈ flags := by
  cases flag with
  | entry placement =>
    cases placement with
    | plain group => cases group <;> decide
    | framework => decide
  | _ => decide

/-- The options as a code, in which no flag begins another one. -/
def searchCode : Code Flag Bytes where
  keywords := flags
  text := Flag.words
  arity := Flag.paths
  complete := mem_flags
  nonempty flag := by
    have all : ∀ flag ∈ flags, flag.words ≠ [] := by decide
    exact all flag (mem_flags flag)
  prefixFree flag other := by
    have all : ∀ flag ∈ flags, ∀ other ∈ flags, flag.words <+: other.words → flag = other := by
      decide +kernel
    exact all flag (mem_flags flag) other (mem_flags other)

/-- The groups whose entries are left out without `withSystem`. -/
def isSystem : IncludeDirGroup → Bool
  | .After | .Quoted | .Angled => false
  | .System | .IndexHeaderMap | .CSystem | .ExternCSystem | .CXXSystem | .ObjCSystem | .ObjCXXSystem => true

/-- The placement of an entry, where frameworks are angled. -/
def placement (E : Entry) : Placement := if E.isFramework then .framework else .plain E.group

/-- The option that an entry is written as. -/
def entryItem (E : Entry) : Item searchCode := ⟨.entry (placement E), [E.path], rfl⟩

/-- An option that is present under a condition. -/
def optional (present : Bool) (item : Item searchCode) : List (Item searchCode) :=
  if present then [item] else []

/-- The options behind the entries. -/
def trailerItems (opts : HeaderSearchOptions) : List (Item searchCode) :=
  optional (opts.resourceDir ≠ []) ⟨.resourceDir, [opts.resourceDir], rfl⟩ ++
    optional (opts.moduleCachePath ≠ []) ⟨.moduleCachePath, [opts.moduleCachePath], rfl⟩ ++
    optional (!opts.useStandardSystemIncludes) ⟨.nostdinc, [], rfl⟩ ++
    optional (!opts.useStandardCXXIncludes) ⟨.nostdincxx, [], rfl⟩ ++
    optional opts.useLibcxx ⟨.libcxx, [], rfl⟩ ++ optional opts.verbose ⟨.verbose, [], rfl⟩

/-- The entries that the loop writes. -/
def written (opts : HeaderSearchOptions) (withSystem : Bool) : List Entry :=
  (visited opts).filter fun E => withSystem || !isSystem E.group

/-- The options in the order in which they are written. -/
def items (opts : HeaderSearchOptions) (withSystem : Bool) : List (Item searchCode) :=
  optional (opts.sysroot ≠ text "/") ⟨.sysroot, [opts.sysroot], rfl⟩ ++
    (written opts withSystem).map entryItem ++ if withSystem then trailerItems opts else []

/-- The arguments of entries and of the resource directory. -/
def directories (items : List (Item searchCode)) : List Bytes :=
  items.flatMap fun item =>
    match item.keyword with
    | .entry _ | .resourceDir => item.arguments
    | _ => []

/-- What is written for options, with their flags or without. -/
def rendered (withFlags : Bool) (items : List (Item searchCode)) : List Bytes :=
  if withFlags then encode items else directories items

/-- The directories of two sequences follow each other. -/
theorem directories_append (front back : List (Item searchCode)) :
    directories (front ++ back) = directories front ++ directories back := List.flatMap_append

/-- What is written for two sequences follows each other. -/
theorem rendered_append (withFlags : Bool) (front back : List (Item searchCode)) :
    rendered withFlags (front ++ back) = rendered withFlags front ++ rendered withFlags back := by
  cases withFlags <;> simp [rendered, directories_append]

/-- An option under a condition is written with its flag under that condition. -/
theorem encode_optional (present : Bool) (item : Item searchCode) :
    encode (optional present item) = if present then item.write else [] := by
  cases present <;> simp [optional]

/-- An option under a condition is written without its flag under that condition. -/
theorem directories_optional (present : Bool) (item : Item searchCode) :
    directories (optional present item) = if present then directories [item] else [] := by
  cases present <;> rfl

/-- What is appended under a condition may be chosen before it is appended. -/
theorem append_if {p : Prop} [Decidable p] (front back : List Bytes) :
    (if p then front ++ back else front) = front ++ if p then back else [] := by
  split <;> simp

section Writing

variable {withSystem withFlags : Bool} {incpaths : List Bytes}

/-- A round of the loop writes one option for its entry, or none for an entry of a system
group that is left out. -/
theorem copyEntry_eq {E : Entry} (angled : E.isFramework = true → E.group = .Angled) :
    copyEntry withSystem withFlags incpaths E = .ok (incpaths ++
      rendered withFlags (optional (withSystem || !isSystem E.group) (entryItem E))) := by
  obtain ⟨path, group, isFramework, ignoreSysRoot⟩ := E
  have angled : isFramework = true → group = .Angled := angled
  cases isFramework with
  | true =>
    obtain rfl := angled rfl
    cases withFlags <;>
      simp [copyEntry, rendered, optional, entryItem, placement, isSystem, directories, Item.write,
        searchCode, Flag.words]
  | false =>
    cases group <;> cases withSystem <;> cases withFlags <;>
      simp [copyEntry, rendered, optional, entryItem, placement, isSystem, directories, Item.write,
        searchCode, Flag.words]

/-- The loop writes the entries in order. -/
theorem foldlM_copyEntry {entries : List Entry} (angled : FrameworksAngled entries) :
    entries.foldlM (copyEntry withSystem withFlags) incpaths = .ok (incpaths ++ rendered withFlags
      ((entries.filter fun E => withSystem || !isSystem E.group).map entryItem)) := by
  induction entries generalizing incpaths with
  | nil => cases withFlags <;> simp [rendered, directories, pure, Except.pure]
  | cons E entries inductionHypothesis =>
    obtain ⟨here, later⟩ := List.forall_mem_cons.mp angled
    rw [List.foldlM_cons, copyEntry_eq here]
    simp only [bind, Except.bind, inductionHypothesis later, List.append_assoc, ← rendered_append]
    cases kept : withSystem || !isSystem E.group <;> simp [kept, optional]

/-- A framework outside the angled group is refused. -/
theorem copyEntry_stray {E : Entry} (isFramework : E.isFramework = true) (group : E.group ≠ .Angled) :
    copyEntry withSystem withFlags incpaths E = .error ⟨"Invalid option set!"⟩ :=
  if_pos ⟨isFramework, group⟩

/-- The loop stops at the first framework outside the angled group. -/
theorem foldlM_copyEntry_stray {entries : List Entry} (stray : ¬ FrameworksAngled entries) :
    entries.foldlM (copyEntry withSystem withFlags) incpaths = .error ⟨"Invalid option set!"⟩ := by
  induction entries generalizing incpaths with
  | nil => exact absurd (fun _ present => nomatch present) stray
  | cons E entries inductionHypothesis =>
    rw [List.foldlM_cons]
    by_cases here : E.isFramework = true → E.group = .Angled
    · rw [copyEntry_eq here]
      exact inductionHypothesis fun later => stray (List.forall_mem_cons.mpr ⟨here, later⟩)
    · rw [Classical.not_imp] at here
      rw [copyEntry_stray here.1 here.2]
      rfl

/-- Behind the entries, the options of the system are written. -/
theorem copyTrailers_eq (opts : HeaderSearchOptions) :
    copyTrailers opts incpaths withSystem withFlags =
      incpaths ++ rendered withFlags (if withSystem then trailerItems opts else []) := by
  cases withSystem with
  | false => cases withFlags <;> simp [copyTrailers, rendered, directories]
  | true =>
    cases withFlags with
    | false =>
      simp only [copyTrailers, trailerItems, rendered, directories_append, directories_optional,
        append_if, Bool.false_eq_true, false_and, and_false, ↓reduceIte, true_and]
      simp [directories]
    | true =>
      simp only [copyTrailers, trailerItems, rendered, encode_append, encode_optional, ↓reduceIte,
        true_and, append_if]
      simp [Item.write, searchCode, Flag.words]

/-- In front of the entries, the system root is written. -/
theorem sysroot_eq (opts : HeaderSearchOptions) :
    (if withFlags ∧ opts.sysroot ≠ text "/" then incpaths ++ [text "-isysroot", opts.sysroot]
      else incpaths) = incpaths ++
        rendered withFlags (optional (opts.sysroot ≠ text "/") ⟨.sysroot, [opts.sysroot], rfl⟩) := by
  cases withFlags with
  | false =>
    simp only [rendered, directories_optional, Bool.false_eq_true, false_and, ↓reduceIte]
    simp [directories]
  | true =>
    simp only [rendered, encode_optional, append_if, true_and, ↓reduceIte]
    simp [Item.write, searchCode, Flag.words]

/-- The function appends what is written for its options, with flags or without. -/
theorem copyIncludePaths_eq {opts : HeaderSearchOptions} (angled : FrameworksAngled opts.userEntries) :
    copyIncludePaths opts incpaths withSystem withFlags =
      .ok (incpaths ++ rendered withFlags (items opts withSystem)) := by
  have visitedAngled : FrameworksAngled (visited opts) :=
    fun E present => angled E (List.mem_of_mem_take present)
  simp only [copyIncludePaths]
  rw [sysroot_eq, foldlM_copyEntry visitedAngled]
  simp only [bind, Except.bind, pure, Except.pure, copyTrailers_eq, items, rendered_append, written,
    List.append_assoc]

/-- The function reports a fatal error exactly when a visited entry is a framework outside the
angled group. -/
theorem copyIncludePaths_fatal_iff (opts : HeaderSearchOptions) :
    copyIncludePaths opts incpaths withSystem withFlags = .error ⟨"Invalid option set!"⟩ ↔
      ¬ FrameworksAngled (visited opts) := by
  simp only [copyIncludePaths]
  constructor
  · intro fatal angled
    rw [foldlM_copyEntry angled] at fatal
    cases fatal
  · intro stray
    rw [foldlM_copyEntry_stray stray]
    rfl

end Writing

/-- The group and the path of an entry, and whether it is a framework. -/
structure Directory where
  group : IncludeDirGroup
  isFramework : Bool
  path : Bytes
deriving DecidableEq, Repr

/-- What the list expresses of the search options. -/
structure Settings where
  sysroot : Bytes
  entries : List Directory
  resourceDir : Bytes
  moduleCachePath : Bytes
  useStandardSystemIncludes : Bool
  useStandardCXXIncludes : Bool
  useLibcxx : Bool
  verbose : Bool
deriving DecidableEq, Repr

/-- The directory of an entry. -/
def directory (E : Entry) : Directory := ⟨E.group, E.isFramework, E.path⟩

/-- The settings of search options. -/
def settings (opts : HeaderSearchOptions) : Settings where
  sysroot := opts.sysroot
  entries := opts.userEntries.map directory
  resourceDir := opts.resourceDir
  moduleCachePath := opts.moduleCachePath
  useStandardSystemIncludes := opts.useStandardSystemIncludes
  useStandardCXXIncludes := opts.useStandardCXXIncludes
  useLibcxx := opts.useLibcxx
  verbose := opts.verbose

/-- The path behind a flag. -/
def argument (flag : Flag) (items : List (Item searchCode)) : Option Bytes :=
  items.findSome? fun item => if item.keyword = flag then item.arguments.head? else none

/-- A flag is given. -/
def given (flag : Flag) (items : List (Item searchCode)) : Bool :=
  items.any fun item => item.keyword = flag

/-- The directory that an option adds. -/
def directoryOf (item : Item searchCode) : Option Directory :=
  match item.keyword, item.arguments with
  | .entry placement, [path] => some ⟨placement.group, placement.isFramework, path⟩
  | _, _ => none

/-- The settings that options express. A path that is not given has its default. -/
def recover (items : List (Item searchCode)) : Settings where
  sysroot := (argument .sysroot items).getD (text "/")
  entries := items.filterMap directoryOf
  resourceDir := (argument .resourceDir items).getD []
  moduleCachePath := (argument .moduleCachePath items).getD []
  useStandardSystemIncludes := !given .nostdinc items
  useStandardCXXIncludes := !given .nostdincxx items
  useLibcxx := given .libcxx items
  verbose := given .verbose items

section Recovering

/-- The path behind a flag is the one of its first occurrence. -/
theorem argument_append (flag : Flag) (front back : List (Item searchCode)) :
    argument flag (front ++ back) = (argument flag front).or (argument flag back) :=
  List.findSome?_append

/-- An optional flag has its path when it is present. -/
theorem argument_optional (flag : Flag) (present : Bool) (item : Item searchCode) :
    argument flag (optional present item) =
      if present ∧ item.keyword = flag then item.arguments.head? else none := by
  cases present <;> simp [argument, optional]

/-- No entry gives a path to another flag. -/
theorem argument_entries {flag : Flag} (other : ∀ placement, flag ≠ .entry placement)
    (entries : List Entry) : argument flag (entries.map entryItem) = none := by
  simp [argument, entryItem, List.findSome?_eq_none_iff, (other _).symm]

/-- A flag is given when it is given in one of two sequences. -/
theorem given_append (flag : Flag) (front back : List (Item searchCode)) :
    given flag (front ++ back) = (given flag front || given flag back) := List.any_append

/-- An optional flag is given when it is present. -/
theorem given_optional (flag : Flag) (present : Bool) (item : Item searchCode) :
    given flag (optional present item) = (present && item.keyword = flag) := by
  cases present <;> simp [given, optional]

/-- No entry gives another flag. -/
theorem given_entries {flag : Flag} (other : ∀ placement, flag ≠ .entry placement)
    (entries : List Entry) : given flag (entries.map entryItem) = false := by
  simp [given, entryItem, (other _).symm]

/-- An optional flag adds its directory when it is present. -/
theorem directoryOf_optional (present : Bool) (item : Item searchCode) :
    (optional present item).filterMap directoryOf =
      if present then (directoryOf item).toList else [] := by
  cases present
  · rfl
  · cases added : directoryOf item <;> simp [optional, added]

/-- Each entry adds its own directory. -/
theorem directoryOf_entryItem {E : Entry} (angled : E.isFramework = true → E.group = .Angled) :
    directoryOf (entryItem E) = some (directory E) := by
  cases isFramework : E.isFramework with
  | true => simp [directoryOf, entryItem, placement, directory, isFramework, angled isFramework,
      Placement.group, Placement.isFramework]
  | false => simp [directoryOf, entryItem, placement, directory, isFramework, Placement.group,
      Placement.isFramework]

/-- A path that is left out where it is the default is recovered. -/
theorem getD_unless (path default : Bytes) :
    (if path = default then none else some path).getD default = path := by
  split
  · next same => exact same.symm
  · rfl

/-- The paths and switches apart from the entries are recovered. -/
theorem recover_others (opts : HeaderSearchOptions) :
    { recover (items opts true) with entries := [] } = { settings opts with entries := [] } := by
  simp only [recover, settings, items, trailerItems, argument_append, argument_optional, given_append,
    given_optional, argument_entries, given_entries, ne_eq, reduceCtorEq, not_false_eq_true,
    implies_true, ↓reduceIte]
  simp [getD_unless]

/-- The visited entries are recovered in order. -/
theorem recover_entries {opts : HeaderSearchOptions} (angled : FrameworksAngled opts.userEntries) :
    (recover (items opts true)).entries = (visited opts).map directory := by
  have all : written opts true = visited opts := by simp [written]
  have each : ((visited opts).map entryItem).filterMap directoryOf = (visited opts).map directory := by
    rw [List.filterMap_map, ← List.filterMap_eq_map]
    exact List.filterMap_congr fun E present =>
      directoryOf_entryItem (angled E (List.mem_of_mem_take present))
  simp [recover, items, trailerItems, all, each, directoryOf_optional, directoryOf]

/-- The settings are recovered from the options that are written for the system, as far as
the loop visits the entries. -/
theorem recover_items {opts : HeaderSearchOptions} (angled : FrameworksAngled opts.userEntries) :
    recover (items opts true) =
      { settings opts with entries := (visited opts).map directory } := by
  calc recover (items opts true)
      = { { recover (items opts true) with entries := [] } with
          entries := (recover (items opts true)).entries } := rfl
    _ = { settings opts with entries := (visited opts).map directory } := by
      rw [recover_others, recover_entries angled]

/-- The loop visits all entries exactly when 32 bits count them. -/
theorem visited_iff (opts : HeaderSearchOptions) :
    (visited opts).map directory = opts.userEntries.map directory ↔
      opts.userEntries.length < 2 ^ 32 := by
  constructor
  · intro same
    have lengths := congrArg List.length same
    have bound := (UInt32.ofNat opts.userEntries.length).toNat_lt
    simp only [visited, List.length_map, List.length_take] at lengths
    omega
  · intro short
    rw [visited, UInt32.toNat_ofNat_of_lt' short, List.take_length]

end Recovering

/-- The list with flags expresses the settings of its options. In both modes of `withSystem`,
the list without flags is the sequence of the directories in the list with flags. -/
def Faithful (opts : HeaderSearchOptions) : Prop :=
  (∃ list items, copyIncludePaths opts [] true true = .ok list ∧
    decode searchCode list = some items ∧ recover items = settings opts) ∧
  ∀ withSystem, ∃ list items, copyIncludePaths opts [] withSystem true = .ok list ∧
    decode searchCode list = some items ∧
    copyIncludePaths opts [] withSystem false = .ok (directories items)

section Fidelity

variable {opts other : HeaderSearchOptions}

/-- With flags the list is the code of the options. -/
theorem copyIncludePaths_flags (angled : FrameworksAngled opts.userEntries) (withSystem : Bool) :
    copyIncludePaths opts [] withSystem true = .ok (encode (items opts withSystem)) := by
  rw [copyIncludePaths_eq angled]
  rfl

/-- Without flags the list is the sequence of the directories. -/
theorem copyIncludePaths_plain (angled : FrameworksAngled opts.userEntries) (withSystem : Bool) :
    copyIncludePaths opts [] withSystem false = .ok (directories (items opts withSystem)) := by
  rw [copyIncludePaths_eq angled]
  rfl

/-- The list expresses the settings of its options exactly when 32 bits count the entries. -/
theorem faithful_iff (angled : FrameworksAngled opts.userEntries) :
    Faithful opts ↔ opts.userEntries.length < 2 ^ 32 := by
  rw [← visited_iff]
  constructor
  · rintro ⟨⟨list, found, copied, decoded, recovered⟩, _⟩
    rw [copyIncludePaths_flags angled] at copied
    obtain rfl := Except.ok.inj copied
    rw [decode_encode] at decoded
    obtain rfl := Option.some.inj decoded
    rw [← recover_entries angled, recovered]
    rfl
  · intro all
    constructor
    · refine ⟨_, _, copyIncludePaths_flags angled true, decode_encode _, ?_⟩
      rw [recover_items angled, all]
      rfl
    · exact fun withSystem => ⟨_, _, copyIncludePaths_flags angled withSystem, decode_encode _,
        copyIncludePaths_plain angled withSystem⟩

/-- Options whose settings are expressed by the same list have the same settings. -/
theorem settings_eq_of_same_list (one : Faithful opts) (two : Faithful other)
    (same : copyIncludePaths opts [] true true = copyIncludePaths other [] true true) :
    settings opts = settings other := by
  obtain ⟨⟨_, found, copied, decoded, recovered⟩, _⟩ := one
  obtain ⟨⟨_, otherFound, otherCopied, otherDecoded, otherRecovered⟩, _⟩ := two
  rw [copied, otherCopied] at same
  obtain rfl := Except.ok.inj same
  rw [decoded] at otherDecoded
  obtain rfl := Option.some.inj otherDecoded
  rw [← recovered, otherRecovered]

end Fidelity

/-- Of options without stray frameworks, the list expresses the settings, and its two modes
agree, exactly when there are fewer than 2^32 user entries. Among such options, the same
list means the same settings. -/
theorem list_faithful_iff (opts : HeaderSearchOptions) (angled : FrameworksAngled opts.userEntries) :
    (Faithful opts ↔ opts.userEntries.length < 2 ^ 32) ∧
      ∀ other, FrameworksAngled other.userEntries → opts.userEntries.length < 2 ^ 32 →
        other.userEntries.length < 2 ^ 32 →
        copyIncludePaths opts [] true true = copyIncludePaths other [] true true →
        settings opts = settings other := by
  refine ⟨faithful_iff angled, ?_⟩
  intro other otherAngled short otherShort same
  exact settings_eq_of_same_list ((faithful_iff angled).mpr short)
    ((faithful_iff otherAngled).mpr otherShort) same

/-- The defaults of the search options, with a path that is added a number of times. -/
def repeated (count : Nat) : HeaderSearchOptions where
  sysroot := text "/"
  userEntries := List.replicate count ⟨text "-I", .Angled, false, true⟩
  resourceDir := []
  moduleCachePath := []
  useStandardSystemIncludes := true
  useStandardCXXIncludes := true
  useLibcxx := false
  verbose := false

/-- A repeated path is no framework. -/
theorem repeated_angled (count : Nat) : FrameworksAngled (repeated count).userEntries := by
  intro E present isFramework
  rw [List.eq_of_mem_replicate present] at isFramework
  cases isFramework

/-- A path that looks like a flag is told from flags. -/
theorem repeated_twice_faithful :
    (Faithful (repeated 2) ↔ (repeated 2).userEntries.length < 2 ^ 32) ∧
      ∀ other, FrameworksAngled other.userEntries → (repeated 2).userEntries.length < 2 ^ 32 →
        other.userEntries.length < 2 ^ 32 →
        copyIncludePaths (repeated 2) [] true true = copyIncludePaths other [] true true →
        settings (repeated 2) = settings other :=
  list_faithful_iff (repeated 2) (repeated_angled 2)

/-- A number of entries that 32 bits take for zero leaves the same list as none. -/
theorem repeated_unvisited {count : Nat} (multiple : count % 2 ^ 32 = 0) :
    copyIncludePaths (repeated count) [] true true = copyIncludePaths (repeated 0) [] true true := by
  have narrowed : (UInt32.ofNat count).toNat = 0 := by
    rw [UInt32.toNat_ofNat']
    exact multiple
  have none : visited (repeated count) = visited (repeated 0) := by
    simp only [visited, repeated, List.length_replicate, narrowed, List.take_zero, List.replicate_zero,
      List.take_nil]
  rw [copyIncludePaths_flags (repeated_angled count), copyIncludePaths_flags (repeated_angled 0)]
  simp only [items, written, none]
  rfl

/-- Entries in such a number are lost. -/
theorem repeated_lost {count : Nat} (multiple : count % 2 ^ 32 = 0) (present : count ≠ 0) :
    FrameworksAngled (repeated count).userEntries ∧ FrameworksAngled (repeated 0).userEntries ∧
      copyIncludePaths (repeated count) [] true true = copyIncludePaths (repeated 0) [] true true ∧
      settings (repeated count) ≠ settings (repeated 0) := by
  refine ⟨repeated_angled count, repeated_angled 0, repeated_unvisited multiple, ?_⟩
  intro same
  have lengths := congrArg (fun settings => settings.entries.length) same
  simp only [settings, repeated, List.length_map, List.length_replicate] at lengths
  exact present lengths

/-- Options with 2^32 entries give the same list as options without entries. -/
theorem many_entries_lost : FrameworksAngled (repeated (2 ^ 32)).userEntries ∧
    FrameworksAngled (repeated 0).userEntries ∧
    copyIncludePaths (repeated (2 ^ 32)) [] true true = copyIncludePaths (repeated 0) [] true true ∧
    settings (repeated (2 ^ 32)) ≠ settings (repeated 0) :=
  repeated_lost (Nat.mod_self _) (by decide)

end CppInterpreter.CopyIncludePaths
