import CppInterpreter.Strings

/-!
# Header search options

The options of a header search, as far as the functions on include paths read and write
them: the user entries with their groups, the directories that are named apart from
them, and the flags that select the standard directories.
-/

namespace CppInterpreter

/-- `clang::frontend::IncludeDirGroup`. -/
inductive IncludeDirGroup where
  | Quoted
  | Angled
  | IndexHeaderMap
  | System
  | ExternCSystem
  | CSystem
  | CXXSystem
  | ObjCSystem
  | ObjCXXSystem
  | After
deriving DecidableEq, Repr

namespace HeaderSearchOptions

/-- `clang::HeaderSearchOptions::Entry`. -/
structure Entry where
  path : Bytes
  group : IncludeDirGroup
  isFramework : Bool
  ignoreSysRoot : Bool
deriving DecidableEq, Repr

end HeaderSearchOptions

/-- `clang::HeaderSearchOptions`. -/
structure HeaderSearchOptions where
  sysroot : Bytes
  userEntries : List HeaderSearchOptions.Entry
  resourceDir : Bytes
  moduleCachePath : Bytes
  useStandardSystemIncludes : Bool
  useStandardCXXIncludes : Bool
  useLibcxx : Bool
  verbose : Bool
deriving DecidableEq, Repr

namespace HeaderSearchOptions

/-- `AddPath`. -/
def addPath (opts : HeaderSearchOptions) (path : Bytes) (group : IncludeDirGroup)
    (isFramework ignoreSysRoot : Bool) : HeaderSearchOptions :=
  { opts with userEntries := opts.userEntries ++ [⟨path, group, isFramework, ignoreSysRoot⟩] }

/-- The paths of the user entries. -/
def userPaths (opts : HeaderSearchOptions) : List Bytes := opts.userEntries.map Entry.path

end HeaderSearchOptions

end CppInterpreter
