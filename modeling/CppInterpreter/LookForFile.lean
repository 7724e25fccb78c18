import CppInterpreter.Strings

/-!
# Looking for a file

`LookForFile` asks whether a path is a regular file. If it is none, the file manager may
complete the path, and then each directory that the arguments name with `-I` or `/I` is
tried in front of it. A directory stands behind its flag in the same argument, or is the
next argument, which is passed over then. The first regular file replaces the path.

The loop over the arguments is modeled with the position of its iterator, so that reading
behind the last argument is a fault. The view in which it is proved correct is the list of
all candidates. The path is read as a C string behind a directory, and nowhere else: a path
with a NUL is found without what stands behind the NUL.
-/

namespace CppInterpreter.LookForFile

open Bytes

/-- A C string. -/
structure CString where
  bytes : Bytes
  nulFree : 0 ∉ bytes
deriving DecidableEq

/-- What the system tells about paths: the regular files, the absolute paths, and how
`llvm::sys::path::append` joins two of them. -/
structure FileSystem where
  isRegularFile : Bytes → Bool
  isAbsolute : Bytes → Bool
  append : Bytes → Bytes → Bytes

/-- `clang::FileManager`, as far as `FixupRelativePath`. It returns the new path when it
changes the path. -/
structure FileManager where
  fixupRelativePath : Bytes → Option Bytes

/-- The argument vector is read behind its last element. -/
structure PastEnd where
  it : Nat
deriving DecidableEq, Repr

/-- What a call returns, the path that it leaves, and the lines that it logs. -/
structure Lookup where
  found : Bool
  path : Bytes
  log : List Bytes
deriving DecidableEq

/-- `LogFileStatus`. -/
def logFileStatus (verb fileType path : Bytes) : Bytes :=
  verb ++ text " " ++ fileType ++ text " '" ++ path ++ text "'\n"

/-- The line that is logged about a path, where there is a file type. -/
def statusLine (verb : String) (fileType : Option Bytes) (path : Bytes) : List Bytes :=
  fileType.toList.map fun fileType => logFileStatus (text verb) fileType path

/-- `*It`. -/
def argAt (args : List CString) (it : Nat) : Except PastEnd CString :=
  match args[it]? with
  | none => .error ⟨it⟩
  | some arg => .ok arg

/-- The test of an argument for `-I` and `/I`. -/
def CString.isIncludeFlag (arg : CString) : Bool :=
  startswith arg.bytes (text "-I") || startswith arg.bytes (text "/I")

/-- The directory that belongs to a flag, and the position of the argument that it ends.
A flag that is the last argument, and nothing but a flag, has none. -/
def directoryAt (args : List CString) (it : Nat) (arg : CString) :
    Except PastEnd (Option (Bytes × Nat)) :=
  if arg.bytes.drop 2 = [] then
    if args.length ≤ it + 1 then .ok none
    else (argAt args (it + 1)).map fun next => some (next.bytes, it + 1)
  else .ok (some (arg.bytes.drop 2, it))

/-- The variables of the loop, with the lines logged so far. -/
structure State where
  it : Nat
  log : List Bytes

section Calls

variable (fs : FileSystem) (args : List CString) (path : Bytes) (fileType : Option Bytes)

/-- One test of the loop condition and, before the end, one execution of the loop body. -/
def body (state : State) : State ⊕ Except PastEnd Lookup :=
  if state.it < args.length then
    match argAt args state.it with
    | .error fault => .inr (.error fault)
    | .ok arg =>
      if arg.isIncludeFlag then
        match directoryAt args state.it arg with
        | .error fault => .inr (.error fault)
        | .ok none => .inr (.ok ⟨false, path, state.log⟩)
        | .ok (some (directory, it)) =>
          let filePath := fs.append directory (cStr path)
          if fs.isRegularFile filePath then
            .inr (.ok ⟨true, filePath, state.log ++ statusLine "Using" fileType filePath⟩)
          else .inl ⟨it + 1, state.log ++ statusLine "Ignoring" fileType filePath⟩
      else .inl { state with it := state.it + 1 }
  else .inr (.ok ⟨false, path, state.log⟩)

variable {fs args path fileType}

/-- A directory never ends before its flag. -/
theorem directoryAt_advances {it next : Nat} {arg : CString} {directory : Bytes}
    (found : directoryAt args it arg = .ok (some (directory, next))) : it ≤ next := by
  unfold directoryAt at found
  split at found
  · split at found
    · cases found
    · cases read : argAt args (it + 1) with
      | error fault => simp [read, Except.map] at found
      | ok arg =>
        simp only [read, Except.map, Except.ok.injEq, Option.some.injEq, Prod.mk.injEq] at found
        omega
  · simp only [Except.ok.injEq, Option.some.injEq, Prod.mk.injEq] at found
    omega

/-- The iterator advances whenever the loop goes on. -/
theorem body_advances {state next : State} (continues : body fs args path fileType state = .inl next) :
    state.it < args.length ∧ state.it < next.it := by
  unfold body at continues
  split at continues
  · next inside =>
    refine ⟨inside, ?_⟩
    split at continues
    · cases continues
    · split at continues
      · split at continues
        · cases continues
        · cases continues
        · next found =>
          dsimp only at continues
          split at continues
          · cases continues
          · cases continues
            exact Nat.lt_succ_of_le (directoryAt_advances found)
      · cases continues
        exact Nat.lt_succ_self _
  · cases continues

variable (fs args path fileType)

/-- The loop over the arguments. -/
def searchArgs (state : State) : Except PastEnd Lookup :=
  match _step : body fs args path fileType state with
  | .inr result => result
  | .inl next => searchArgs next
termination_by args.length - state.it
decreasing_by
  have advances := body_advances _step
  omega

/-- `LookForFile`. -/
def lookForFile (fm : Option FileManager) : Except PastEnd Lookup :=
  if fs.isRegularFile path then .ok ⟨true, path, statusLine "Using" fileType path⟩
  else
    let log := statusLine "Ignoring" fileType path
    match fm with
    | some fm =>
      match fm.fixupRelativePath path with
      | some filePath =>
        if fs.isRegularFile filePath then
          .ok ⟨true, filePath, log ++ statusLine "Using" fileType filePath⟩
        else
          let ignoring := if filePath ≠ path then statusLine "Ignoring" fileType filePath else []
          searchArgs fs args path fileType ⟨0, log ++ ignoring⟩
      | none => searchArgs fs args path fileType ⟨0, log⟩
    | none =>
      if fs.isAbsolute path then .ok ⟨false, path, log⟩
      else searchArgs fs args path fileType ⟨0, log⟩

end Calls

/-- The directories that the arguments give, in order. -/
def directories : List CString → List Bytes
  | [] => []
  | arg :: rest =>
    if arg.isIncludeFlag then
      if arg.bytes.drop 2 = [] then
        match rest with
        | [] => []
        | next :: rest => next.bytes :: directories rest
      else arg.bytes.drop 2 :: directories rest
    else directories rest

/-- The paths that a call tries, in order. An absolute path is not looked for in directories
when there is no file manager. Behind a directory the path is read as a C string. -/
def candidates (fs : FileSystem) (args : List CString) (path : Bytes) (fm : Option FileManager) :
    List Bytes :=
  path :: (fm.bind fun fm => fm.fixupRelativePath path).toList ++
    if fm.isNone && fs.isAbsolute path then []
    else (directories args).map fun directory => fs.append directory (cStr path)

/-- The candidates with the whole path behind each directory. -/
def wholeCandidates (fs : FileSystem) (args : List CString) (path : Bytes) (fm : Option FileManager) :
    List Bytes :=
  path :: (fm.bind fun fm => fm.fixupRelativePath path).toList ++
    if fm.isNone && fs.isAbsolute path then []
    else (directories args).map fun directory => fs.append directory path

section Search

variable {fs : FileSystem} {args : List CString} {path : Bytes} {fileType : Option Bytes}

/-- The loop returns what its body returns, and otherwise goes on. -/
theorem searchArgs_returns {state : State} {result : Except PastEnd Lookup}
    (returns : body fs args path fileType state = .inr result) :
    searchArgs fs args path fileType state = result := by
  rw [searchArgs]
  split
  · next same => exact Sum.inr.inj (same.symm.trans returns)
  · next same => cases same.symm.trans returns

theorem searchArgs_continues {state next : State}
    (continues : body fs args path fileType state = .inl next) :
    searchArgs fs args path fileType state = searchArgs fs args path fileType next := by
  rw [searchArgs]
  split
  · next same => cases same.symm.trans continues
  · next same => rw [Sum.inl.inj (same.symm.trans continues)]

/-- What stands behind a flag in the same argument is a directory. -/
theorem directories_attached {arg : CString} {rest : List CString} (flag : arg.isIncludeFlag = true)
    (attached : arg.bytes.drop 2 ≠ []) :
    directories (arg :: rest) = arg.bytes.drop 2 :: directories rest := by
  rw [directories.eq_def]
  simp only [flag, attached, ↓reduceIte]

/-- Other arguments give no directory. -/
theorem directories_other {arg : CString} {rest : List CString} (other : arg.isIncludeFlag = false) :
    directories (arg :: rest) = directories rest := by
  rw [directories.eq_def]
  simp only [other, Bool.false_eq_true, ↓reduceIte]

/-- A call answers with a hit, or that there is none. -/
def Answers (path : Bytes) (hit : Option Bytes) (result : Except PastEnd Lookup) : Prop :=
  ∃ log, result = .ok ⟨hit.isSome, hit.getD path, log⟩

/-- The argument at a position is the first of the remaining ones. -/
theorem argAt_remaining {arg : CString} {rest : List CString} {it : Nat}
    (remaining : args.drop it = arg :: rest) :
    it < args.length ∧ argAt args it = .ok arg ∧ args.drop (it + 1) = rest := by
  have inside : it < args.length := by
    by_contra outside
    rw [List.drop_of_length_le (Nat.le_of_not_lt outside)] at remaining
    cases remaining
  rw [List.drop_eq_getElem_cons inside, List.cons.injEq] at remaining
  refine ⟨inside, ?_, remaining.2⟩
  rw [argAt, List.getElem?_eq_getElem inside, remaining.1]

/-- Trying a directory ends the loop with a regular file, or passes on to the next argument. -/
theorem answers_directory {arg : CString} {rest : List CString} {it next : Nat} {directory : Bytes}
    (remaining : args.drop it = arg :: rest) (flag : arg.isIncludeFlag = true)
    (found : directoryAt args it arg = .ok (some (directory, next))) {others : List Bytes}
    (later : ∀ log, Answers path (others.find? fs.isRegularFile)
      (searchArgs fs args path fileType ⟨next + 1, log⟩)) (log : List Bytes) :
    Answers path ((fs.append directory (cStr path) :: others).find? fs.isRegularFile)
      (searchArgs fs args path fileType ⟨it, log⟩) := by
  obtain ⟨inside, read, _⟩ := argAt_remaining remaining
  cases regular : fs.isRegularFile (fs.append directory (cStr path)) with
  | true =>
    rw [List.find?_cons_of_pos regular]
    have returns : body fs args path fileType ⟨it, log⟩ = .inr (.ok ⟨true,
        fs.append directory (cStr path),
        log ++ statusLine "Using" fileType (fs.append directory (cStr path))⟩) := by
      simp only [body, inside, ↓reduceIte, read, flag, found, regular]
    exact ⟨_, searchArgs_returns returns⟩
  | false =>
    rw [List.find?_cons_of_neg (by simp [regular])]
    have continues : body fs args path fileType ⟨it, log⟩ = .inl ⟨next + 1,
        log ++ statusLine "Ignoring" fileType (fs.append directory (cStr path))⟩ := by
      simp only [body, inside, ↓reduceIte, read, flag, found, regular, Bool.false_eq_true]
    rw [searchArgs_continues continues]
    exact later _

/-- The loop answers with the first regular file in the remaining directories. -/
theorem searchArgs_answers {rest : List CString} {it : Nat} (remaining : args.drop it = rest)
    (log : List Bytes) :
    Answers path (((directories rest).map fun directory => fs.append directory (cStr path)).find?
      fs.isRegularFile) (searchArgs fs args path fileType ⟨it, log⟩) := by
  induction rest using directories.induct generalizing it log with
  | case1 =>
    have done : ¬ it < args.length := Nat.not_lt_of_le (List.drop_eq_nil_iff.mp remaining)
    have returns : body fs args path fileType ⟨it, log⟩ = .inr (.ok ⟨false, path, log⟩) := by
      simp only [body, done, ↓reduceIte]
    exact ⟨log, searchArgs_returns returns⟩
  | case2 arg flag bare =>
    -- The flag is the last argument.
    obtain ⟨inside, read, last⟩ := argAt_remaining remaining
    have returns : body fs args path fileType ⟨it, log⟩ = .inr (.ok ⟨false, path, log⟩) := by
      simp only [body, inside, ↓reduceIte, read, flag, directoryAt, bare, List.drop_eq_nil_iff.mp last]
    simp only [directories, flag, bare, ↓reduceIte]
    exact ⟨log, searchArgs_returns returns⟩
  | case3 arg flag bare next rest inductionHypothesis =>
    obtain ⟨_, _, following⟩ := argAt_remaining remaining
    obtain ⟨more, read, behind⟩ := argAt_remaining following
    have found : directoryAt args it arg = .ok (some (next.bytes, it + 1)) := by
      simp only [directoryAt, bare, ↓reduceIte, Nat.not_le_of_lt more, read]
      rfl
    simp only [directories, flag, bare, ↓reduceIte, List.map_cons]
    exact answers_directory remaining flag found (inductionHypothesis behind) log
  | case4 arg rest flag attached inductionHypothesis =>
    obtain ⟨_, _, following⟩ := argAt_remaining remaining
    have found : directoryAt args it arg = .ok (some (arg.bytes.drop 2, it)) := by
      simp only [directoryAt, attached, ↓reduceIte]
    rw [directories_attached flag attached, List.map_cons]
    exact answers_directory remaining flag found (inductionHypothesis following) log
  | case5 arg rest noFlag inductionHypothesis =>
    have other : arg.isIncludeFlag = false := Bool.eq_false_iff.mpr noFlag
    obtain ⟨inside, read, following⟩ := argAt_remaining remaining
    have continues : body fs args path fileType ⟨it, log⟩ = .inl ⟨it + 1, log⟩ := by
      simp only [body, inside, ↓reduceIte, read, other, Bool.false_eq_true]
    rw [directories_other other, searchArgs_continues continues]
    exact inductionHypothesis following log

/-- A path that is no regular file leaves the answer to the other candidates. -/
theorem candidates_find? (irregular : fs.isRegularFile path = false) (fm : Option FileManager) :
    (candidates fs args path fm).find? fs.isRegularFile =
      ((fm.bind fun fm => fm.fixupRelativePath path).toList ++
        if fm.isNone && fs.isAbsolute path then []
        else (directories args).map fun directory => fs.append directory (cStr path)).find?
          fs.isRegularFile := by
  rw [candidates, List.cons_append, List.find?_cons_of_neg (by simp [irregular])]

/-- A call answers with the first candidate that is a regular file. -/
theorem lookForFile_answers (fs : FileSystem) (args : List CString) (path : Bytes)
    (fileType : Option Bytes) (fm : Option FileManager) :
    Answers path ((candidates fs args path fm).find? fs.isRegularFile)
      (lookForFile fs args path fileType fm) := by
  have searched : ∀ log, Answers path (((directories args).map fun directory =>
      fs.append directory (cStr path)).find? fs.isRegularFile)
        (searchArgs fs args path fileType ⟨0, log⟩) := searchArgs_answers List.drop_zero
  cases regular : fs.isRegularFile path with
  | true =>
    rw [candidates, List.cons_append, List.find?_cons_of_pos regular]
    simp only [lookForFile, regular, ↓reduceIte]
    exact ⟨_, rfl⟩
  | false =>
    rw [candidates_find? regular]
    simp only [lookForFile, regular, Bool.false_eq_true, ↓reduceIte]
    cases fm with
    | none =>
      cases absolute : fs.isAbsolute path with
      | true => exact ⟨_, rfl⟩
      | false => simpa [absolute] using searched _
    | some fm =>
      cases fixed : fm.fixupRelativePath path with
      | none => simpa [fixed] using searched _
      | some filePath =>
        cases found : fs.isRegularFile filePath with
        | true => simp [fixed, found, Answers]
        | false => simpa [fixed, found] using searched _

/-- A call finds something exactly when some candidate is a regular file. It leaves the first
such candidate, or the path unchanged. -/
structure LooksUp (fs : FileSystem) (args : List CString) (path : Bytes) (fm : Option FileManager)
    (lookup : Lookup) : Prop where
  found_iff : lookup.found = true ↔ ∃ candidate ∈ candidates fs args path fm, fs.isRegularFile candidate = true
  first : lookup.found = true → ∃ before after,
    candidates fs args path fm = before ++ lookup.path :: after ∧
      fs.isRegularFile lookup.path = true ∧ ∀ candidate ∈ before, fs.isRegularFile candidate = false
  unchanged : lookup.found = false → lookup.path = path

/-- `LookForFile` does not read behind the arguments. It returns the first hit in its search
order, or leaves the path as it was. -/
theorem lookForFile_looksUp (fs : FileSystem) (args : List CString) (path : Bytes)
    (fileType : Option Bytes) (fm : Option FileManager) :
    ∃ lookup, lookForFile fs args path fileType fm = .ok lookup ∧ LooksUp fs args path fm lookup := by
  obtain ⟨log, returned⟩ := lookForFile_answers fs args path fileType fm
  refine ⟨_, returned, ?_, ?_, ?_⟩
  · rw [List.find?_isSome]
  · intro found
    obtain ⟨hit, same⟩ := Option.isSome_iff_exists.mp found
    obtain ⟨regular, before, after, split, irregular⟩ := List.find?_eq_some_iff_append.mp same
    rw [same, Option.getD_some]
    refine ⟨before, after, split, regular, ?_⟩
    intro candidate earlier
    simpa using irregular candidate earlier
  · intro missed
    rw [Option.isSome_eq_false_iff, Option.isNone_iff_eq_none] at missed
    rw [missed, Option.getD_none]

/-- A path without a NUL is tried as a whole. -/
theorem candidates_whole (nulFree : 0 ∉ path) (fm : Option FileManager) :
    candidates fs args path fm = wholeCandidates fs args path fm := by
  rw [candidates, wholeCandidates, cStr_nulFree nulFree]

/-- With and without a file manager a call answers alike, and a path that is no regular file
is not found and left alone. -/
def Alike (fs : FileSystem) (args : List CString) (path : Bytes) (fileType : Option Bytes)
    (fm : FileManager) : Prop :=
  ∃ found final,
    (∃ log, lookForFile fs args path fileType (some fm) = .ok ⟨found, final, log⟩) ∧
      (∃ log, lookForFile fs args path fileType none = .ok ⟨found, final, log⟩) ∧
      (fs.isRegularFile path = false → found = false ∧ final = path)

/-- Without a file manager an absolute path is the only candidate. -/
theorem candidates_without (absolute : fs.isAbsolute path = true) :
    candidates fs args path none = [path] := by
  simp [candidates, absolute]

/-- With a file manager that leaves a path alone the directories are tried. -/
theorem candidates_with {fm : FileManager} (untouched : fm.fixupRelativePath path = none) :
    candidates fs args path (some fm) =
      path :: (directories args).map fun directory => fs.append directory (cStr path) := by
  simp [candidates, untouched]

/-- An absolute path is looked up alike exactly when it is a regular file, or is none in any
of the directories that the arguments give. -/
theorem absolute_alike_iff (fs : FileSystem) (fm : FileManager)
    (untouched : ∀ path, fs.isAbsolute path = true → fm.fixupRelativePath path = none)
    (args : List CString) (path : Bytes) (absolute : fs.isAbsolute path = true)
    (fileType : Option Bytes) :
    Alike fs args path fileType fm ↔
      fs.isRegularFile path = true ∨
        ∀ directory ∈ directories args, fs.isRegularFile (fs.append directory (cStr path)) = false := by
  obtain ⟨log, with_⟩ := lookForFile_answers fs args path fileType (some fm)
  obtain ⟨other, without⟩ := lookForFile_answers fs args path fileType none
  rw [candidates_with (untouched path absolute)] at with_
  rw [candidates_without absolute] at without
  cases regular : fs.isRegularFile path with
  | true =>
    rw [List.find?_cons_of_pos regular] at with_ without
    refine iff_of_true ⟨true, path, ⟨log, with_⟩, ⟨other, without⟩, ?_⟩ (Or.inl rfl)
    intro irregular
    cases regular.symm.trans irregular
  | false =>
    have irregular : ¬ fs.isRegularFile path = true := by simp [regular]
    rw [List.find?_cons_of_neg irregular] at with_ without
    simp only [Bool.false_eq_true, false_or]
    constructor
    · rintro ⟨found, final, ⟨_, called⟩, _, failed⟩ directory given
      obtain ⟨rfl, rfl⟩ := failed regular
      have missed := congrArg Lookup.found (Except.ok.inj (with_.symm.trans called))
      simpa using List.find?_eq_none.mp (by simpa using missed) _ (List.mem_map_of_mem given)
    · intro missing
      have missed : ((directories args).map fun directory => fs.append directory (cStr path)).find?
          fs.isRegularFile = none := by
        apply List.find?_eq_none.mpr
        intro candidate tried
        obtain ⟨directory, given, rfl⟩ := List.mem_map.mp tried
        simp [missing directory given]
      rw [missed] at with_
      exact ⟨false, path, ⟨log, with_⟩, ⟨other, without⟩, fun _ => ⟨rfl, rfl⟩⟩

end Search

/-- `llvm::sys::path::append` for paths with slashes. -/
def posixAppend (directory component : Bytes) : Bytes :=
  if component = [] then directory
  else if directory.getLast? = some '/'.toUInt8 then
    directory ++ component.dropWhile (· = '/'.toUInt8)
  else if component.head? = some '/'.toUInt8 ∨ directory = [] then directory ++ component
  else directory ++ text "/" ++ component

/-- A file system with slashes that holds some regular files. -/
def posix (files : List Bytes) : FileSystem where
  isRegularFile path := cStr path ∈ files
  isAbsolute path := path.head? = some '/'.toUInt8
  append := posixAppend

/-- A flag with another directory. -/
def directoryFlag : CString := ⟨text "-Id", by decide⟩

/-- A path with a NUL in its middle. -/
def nulPath : Bytes := text "a" ++ 0 :: text "b"

/-- What stands behind a NUL is not part of the path that is found. -/
theorem nul_path_cut :
    (∃ log, lookForFile (posix [text "d/a"]) [directoryFlag] nulPath none none =
        .ok ⟨true, text "d/a", log⟩) ∧
      (wholeCandidates (posix [text "d/a"]) [directoryFlag] nulPath none).find?
        (posix [text "d/a"]).isRegularFile = some (text "d/" ++ nulPath) ∧
      ¬ Answers nulPath ((wholeCandidates (posix [text "d/a"]) [directoryFlag] nulPath none).find?
          (posix [text "d/a"]).isRegularFile)
        (lookForFile (posix [text "d/a"]) [directoryFlag] nulPath none none) := by
  have hit : (candidates (posix [text "d/a"]) [directoryFlag] nulPath none).find?
      (posix [text "d/a"]).isRegularFile = some (text "d/a") := by decide
  have wholeHit : (wholeCandidates (posix [text "d/a"]) [directoryFlag] nulPath none).find?
      (posix [text "d/a"]).isRegularFile = some (text "d/" ++ nulPath) := by decide
  have found := lookForFile_answers (posix [text "d/a"]) [directoryFlag] nulPath none none
  rw [hit] at found
  refine ⟨found, wholeHit, ?_⟩
  rw [wholeHit]
  rintro ⟨_, called⟩
  obtain ⟨_, returned⟩ := found
  have same : text "d/a" = text "d/" ++ nulPath :=
    congrArg Lookup.path (Except.ok.inj (returned.symm.trans called))
  revert same
  decide

/-- A file manager in a working directory completes relative paths. -/
def working (directory : Bytes) : FileManager where
  fixupRelativePath path :=
    if path.head? = some '/'.toUInt8 then none else some (posixAppend directory path)

/-- The file manager leaves absolute paths alone. -/
theorem working_untouched (files : List Bytes) (directory path : Bytes)
    (absolute : (posix files).isAbsolute path = true) :
    (working directory).fixupRelativePath path = none :=
  if_pos (of_decide_eq_true absolute)

/-- A flag with a directory. -/
def includeFlag : CString := ⟨text "-I/usr", by decide⟩

/-- The equivalence for an absolute path that is a regular file. -/
theorem regular_alike :
    Alike (posix [text "/a.h"]) [includeFlag] (text "/a.h") none (working (text "/")) ↔
      (posix [text "/a.h"]).isRegularFile (text "/a.h") = true ∨
        ∀ directory ∈ directories [includeFlag], (posix [text "/a.h"]).isRegularFile
          ((posix [text "/a.h"]).append directory (cStr (text "/a.h"))) = false :=
  absolute_alike_iff (posix [text "/a.h"]) (working (text "/"))
    (working_untouched [text "/a.h"] (text "/")) [includeFlag] (text "/a.h") (by decide) none

/-- An absolute path is looked for in a directory, with a file manager only. -/
theorem absolute_in_directory :
    (posix [text "/usr/a.h"]).isAbsolute (text "/a.h") = true ∧
      (∃ log, lookForFile (posix [text "/usr/a.h"]) [includeFlag] (text "/a.h") none
        (some (working (text "/"))) = .ok ⟨true, text "/usr/a.h", log⟩) ∧
      lookForFile (posix [text "/usr/a.h"]) [includeFlag] (text "/a.h") none none =
        .ok ⟨false, text "/a.h", []⟩ ∧
      ¬ Alike (posix [text "/usr/a.h"]) [includeFlag] (text "/a.h") none (working (text "/")) := by
  have found : ∃ log, lookForFile (posix [text "/usr/a.h"]) [includeFlag] (text "/a.h") none
      (some (working (text "/"))) = .ok ⟨true, text "/usr/a.h", log⟩ := by
    have answer := lookForFile_answers (posix [text "/usr/a.h"]) [includeFlag] (text "/a.h") none
      (some (working (text "/")))
    have hit : (candidates (posix [text "/usr/a.h"]) [includeFlag] (text "/a.h")
        (some (working (text "/")))).find? (posix [text "/usr/a.h"]).isRegularFile =
          some (text "/usr/a.h") := by decide
    rwa [hit] at answer
  refine ⟨by decide, found, by decide, ?_⟩
  rintro ⟨_, _, ⟨_, called⟩, _, failed⟩
  obtain ⟨log, returned⟩ := found
  obtain ⟨rfl, _⟩ := failed (by decide)
  cases returned.symm.trans called

end CppInterpreter.LookForFile
