import CppInterpreter.LookForFile
import CppInterpreter.Ownership

/-!
# The files of stored states

A `ClangInternalState` dumps the internals of the compiler into five temporary files and
removes them when it is destroyed. A comparison stores the present state in a second
object, which takes the place of the one of an earlier comparison and dies with its owner.

The system names the files, and it may fail to create one. No name that it gives exists
already. Whatever objects are constructed, compared and destroyed in whatever order, the
files that exist are those that were there before and those of the live objects.
-/

namespace CppInterpreter.ClangInternalState

open Bytes Ownership

/-- What `llvm::sys::fs::createUniqueFile` answers. -/
inductive Creation where
  | created (path : Bytes)
  | noSuchFileOrDirectory
  | failed
deriving DecidableEq, Repr

/-- Where a byte of the model is a percent sign, the path has a hexadecimal digit. -/
def Fills (model path : UInt8) : Prop :=
  path = model ∨ (model = '%'.toUInt8 ∧ path ∈ text "0123456789abcdef")

/-- The absolute directory for temporary files, and what the clock and the system answer to
each call. A path that is created fills the percent signs of its model, and does not exist
before. -/
structure Environment where
  tempPath : Bytes
  currentTime : Nat → Bytes
  createUniqueFile : Nat → Bytes → List Bytes → Creation
  fills : ∀ call model files path,
    createUniqueFile call model files = .created path → List.Forall₂ Fills model path
  fresh : ∀ call model files path, createUniqueFile call model files = .created path → path ∉ files

/-- The files that exist, the number of files asked for, and the paths that are removed on a
signal. -/
structure World where
  files : List Bytes
  calls : Nat
  onSignal : List Bytes
deriving DecidableEq, Repr

inductive Fault where
  | unsetDescriptor (outFile : Bytes)
  | nullStream (outFile : Bytes)
  | noObject (index : Nat)
deriving DecidableEq, Repr

/-- Whether a stream is returned, and what is stored behind `temp_path_name`. -/
structure OutputFile where
  stream : Bool
  tempPathName : Bytes
deriving DecidableEq, Repr

/-- The model of a path, with eight percent signs. -/
def pathModel (env : Environment) (call : Nat) (outFile : Bytes) : Bytes :=
  LookForFile.posixAppend env.tempPath (text "cppinterp-" ++ outFile) ++ text "-" ++
    env.currentTime call ++ text "-%%%%%%%%"

/-- Any error but one leaves the descriptor unset, and a stream is made of it. -/
def createOutputFile (env : Environment) (outFile : Bytes) (world : World)
    (removeFileOnSignal : Bool) : Except Fault (OutputFile × World) :=
  let returned (output : OutputFile) (files : List Bytes) : OutputFile × World :=
    (output, ⟨files, world.calls + 1,
      if removeFileOnSignal then output.tempPathName :: world.onSignal else world.onSignal⟩)
  match env.createUniqueFile world.calls (pathModel env world.calls outFile) world.files with
  | .created path => .ok (returned ⟨true, path⟩ (path :: world.files))
  | .noSuchFileOrDirectory => .ok (returned ⟨false, []⟩ world.files)
  | .failed => .error (.unsetDescriptor outFile)

/-- The names of the five files. -/
structure Files where
  lookupTables : Bytes
  included : Bytes
  ast : Bytes
  llvmModule : Bytes
  macros : Bytes
deriving DecidableEq, Repr

/-- The names in the order in which the destructor removes the files. -/
def Files.all (files : Files) : List Bytes :=
  [files.lookupTables, files.included, files.ast, files.llvmModule, files.macros]

/-- The streams are dereferenced one after the other; a null stream is a fault. -/
def nullStream (used : List (Bytes × OutputFile)) : Option Fault :=
  (used.find? fun entry => !entry.2.stream).map fun entry => .nullStream entry.1

/-- `store`. All files are created before anything is printed, and the stream for the module
is used only if there is a module. -/
def store (env : Environment) (hasModule : Bool) (world : World) : Except Fault (Files × World) := do
  let (lookup, world) ← createOutputFile env (text "lookup") world true
  let (included, world) ← createOutputFile env (text "included") world true
  let (ast, world) ← createOutputFile env (text "ast") world true
  let (llvmModule, world) ← createOutputFile env (text "module") world true
  let (macros, world) ← createOutputFile env (text "macros") world true
  let used := [(text "lookup", lookup), (text "included", included), (text "ast", ast)] ++
    (if hasModule then [(text "module", llvmModule)] else []) ++ [(text "macros", macros)]
  match nullStream used with
  | some fault => .error fault
  | none =>
    .ok (⟨lookup.tempPathName, included.tempPathName, ast.tempPathName, llvmModule.tempPathName,
      macros.tempPathName⟩, world)

/-- `remove`. There is no file without a name. -/
def removeFile (files : List Bytes) (path : Bytes) : List Bytes :=
  if path = [] then files else files.erase path

/-- A live object. Its comparison partner is never compared itself, and so has none. -/
structure Stored where
  hasModule : Bool
  files : Files
  diffPair : Option Files
deriving DecidableEq, Repr

/-- The destructor body. -/
def removeAll (files : Files) (world : World) : World :=
  { world with files := files.all.foldl removeFile world.files }

/-- `diff_pair_.reset`, which destroys the object that was there. -/
def dropPair (pair : Option Files) (world : World) : World :=
  match pair with
  | none => world
  | some files => removeAll files world

/-- The constructor. -/
def construct (env : Environment) (hasModule : Bool) (world : World) :
    Except Fault (Stored × World) :=
  (store env hasModule world).map fun (files, world) => (⟨hasModule, files, none⟩, world)

/-- A call of `differentContent` by `compare`. -/
structure Comparison where
  file1 : Bytes
  file2 : Bytes
  type : Bytes
deriving DecidableEq, Repr

/-- The comparisons in the order of the source. -/
def comparisons (hasModule : Bool) (mine current : Files) : List Comparison :=
  [⟨mine.lookupTables, current.lookupTables, text "lookup tables"⟩,
    ⟨mine.included, current.included, text "included files"⟩,
    ⟨mine.ast, current.ast, text "AST"⟩] ++
  (if hasModule then [⟨mine.llvmModule, current.llvmModule, text "llvm Module"⟩] else []) ++
  [⟨mine.macros, current.macros, text "Macro Definitions"⟩]

/-- `compare`. The new partner is stored before the old one is destroyed. -/
def compare (env : Environment) (state : Stored) (world : World) :
    Except Fault (Stored × World × List Comparison) :=
  (store env state.hasModule world).map fun (current, world) =>
    ({ state with diffPair := some current }, dropPair state.diffPair world,
      comparisons state.hasModule state.files current)

/-- The destructor: the partner is a member, and goes after the body. -/
def destroy (state : Stored) (world : World) : World :=
  dropPair state.diffPair (removeAll state.files world)

/-- The names of the files that are dumped into and compared. -/
def Files.used (hasModule : Bool) (files : Files) : List Bytes :=
  [files.lookupTables, files.included, files.ast] ++
    (if hasModule then [files.llvmModule] else []) ++ [files.macros]

/-- Both files are there for `diff`. -/
def Comparison.readable (world : World) (comparison : Comparison) : Bool :=
  world.files.contains comparison.file1 && world.files.contains comparison.file2

/-- The live objects, and for each comparison of two files whether both were there. -/
structure Session where
  world : World
  objects : List Stored
  compared : List (Comparison × Bool)
deriving DecidableEq, Repr

inductive Operation where
  | construct (hasModule : Bool)
  | compare (index : Nat)
  | destroy (index : Nat)
deriving DecidableEq, Repr

/-- One operation of a program on its objects. -/
def perform (env : Environment) (session : Session) : Operation → Except Fault Session
  | .construct hasModule =>
    (construct env hasModule session.world).map fun (state, world) =>
      { session with world := world, objects := state :: session.objects }
  | .compare index =>
    match session.objects[index]? with
    | none => .error (.noObject index)
    | some state =>
      (compare env state session.world).map fun (state, world, found) =>
        ⟨world, session.objects.set index state,
          session.compared ++ found.map fun comparison => (comparison, comparison.readable world)⟩
  | .destroy index =>
    match session.objects[index]? with
    | none => .error (.noObject index)
    | some state =>
      .ok { session with
        world := destroy state session.world
        objects := session.objects.eraseIdx index }

/-- A sequence of operations, up to the first fault. -/
def performAll (env : Environment) : Session → List Operation → Except Fault Session
  | session, [] => .ok session
  | session, operation :: rest => perform env session operation >>= (performAll env · rest)

/-- No object yet, and some files of others. -/
def Session.initial (others : List Bytes) : Session := ⟨⟨others, 0, []⟩, [], []⟩

/-- The names under which files were created. -/
def named (paths : List Bytes) : List Bytes := paths.filter (· ≠ [])

/-- The files of an object, and those of its partner. -/
def Stored.owned (state : Stored) : List Bytes :=
  named state.files.all ++ named (state.diffPair.elim [] Files.all)

/-- The files that exist are others, which were there before, and owned ones; these are
removed on a signal, too. -/
structure Accounts (others : List Bytes) (world : World) (owned : List Bytes) : Prop where
  owns : Owns others world.files owned
  registered : owned ⊆ world.onSignal

/-- A computation that succeeds is one that succeeds first, and then its continuation. -/
theorem bind_ok {ε α β : Type} {first : Except ε α} {next : α → Except ε β} {result : β}
    (succeeded : first >>= next = .ok result) : ∃ value, first = .ok value ∧ next value = .ok result := by
  cases first with
  | error fault => cases succeeded
  | ok value => exact ⟨value, rfl, succeeded⟩

section Accounting

variable {env : Environment} {others owned : List Bytes} {world next : World}

/-- No model of a path is empty, and so no created path is. -/
theorem created_named {call : Nat} {outFile path : Bytes} {files : List Bytes}
    (created : env.createUniqueFile call (pathModel env call outFile) files = .created path) :
    path ≠ [] := by
  have lengths := (env.fills _ _ _ _ created).length_eq
  rintro rfl
  simp [pathModel, text] at lengths

/-- A file that is created is owned from then on; where none is created, nothing changes. -/
theorem create_accounts {outFile : Bytes} {output : OutputFile} (accounts : Accounts others world owned)
    (created : createOutputFile env outFile world true = .ok (output, next)) :
    Accounts others next (named [output.tempPathName] ++ owned) := by
  simp only [createOutputFile, ↓reduceIte] at created
  split at created
  · next path made =>
    obtain ⟨rfl, rfl⟩ := Prod.mk.inj (Except.ok.inj created)
    have kept : named [path] = [path] := by simp [named, created_named made]
    rw [kept]
    exact ⟨accounts.owns.acquire (env.fresh _ _ _ _ made),
      List.cons_subset_cons path accounts.registered⟩
  · obtain ⟨rfl, rfl⟩ := Prod.mk.inj (Except.ok.inj created)
    exact ⟨accounts.owns, fun path member => List.mem_cons_of_mem [] (accounts.registered member)⟩
  · cases created

/-- Only the order of the owned files changes. -/
theorem Accounts.regroup {regrouped : List Bytes} (accounts : Accounts others world owned)
    (same : owned.Perm regrouped) : Accounts others world regrouped :=
  ⟨accounts.owns.regroup same, fun _ member => accounts.registered (same.mem_iff.mpr member)⟩

/-- A stored state owns the files that were created for it. -/
theorem store_accounts {hasModule : Bool} {files : Files} (accounts : Accounts others world owned)
    (stored : store env hasModule world = .ok (files, next)) :
    Accounts others next (named files.all ++ owned) := by
  obtain ⟨⟨lookup, first⟩, lookupMade, stored⟩ := bind_ok stored
  obtain ⟨⟨included, second⟩, includedMade, stored⟩ := bind_ok stored
  obtain ⟨⟨ast, third⟩, astMade, stored⟩ := bind_ok stored
  obtain ⟨⟨llvmModule, fourth⟩, moduleMade, stored⟩ := bind_ok stored
  obtain ⟨⟨macros, fifth⟩, macrosMade, stored⟩ := bind_ok stored
  dsimp only at stored
  split at stored
  · cases stored
  obtain ⟨rfl, rfl⟩ := Prod.mk.inj (Except.ok.inj stored)
  have all := create_accounts (create_accounts (create_accounts (create_accounts (create_accounts
    accounts lookupMade) includedMade) astMade) moduleMade) macrosMade
  simp only [← List.append_assoc] at all
  refine all.regroup (List.Perm.append_right owned ?_)
  simp only [named, ← List.filter_append]
  apply List.Perm.filter
  exact List.reverse_perm [lookup.tempPathName, included.tempPathName, ast.tempPathName,
    llvmModule.tempPathName, macros.tempPathName]

/-- An output file with a stream has a name. -/
theorem create_streams {outFile : Bytes} {output : OutputFile}
    (created : createOutputFile env outFile world true = .ok (output, next))
    (stream : output.stream = true) : output.tempPathName ≠ [] := by
  simp only [createOutputFile, ↓reduceIte] at created
  split at created
  · next path made =>
    obtain ⟨rfl, rfl⟩ := Prod.mk.inj (Except.ok.inj created)
    exact created_named made
  · obtain ⟨rfl, rfl⟩ := Prod.mk.inj (Except.ok.inj created)
    cases stream
  · cases created

/-- Where no used stream is null, each of them is there. -/
theorem streams_of_nullStream {used : List (Bytes × OutputFile)} (none_ : nullStream used = none) :
    ∀ entry ∈ used, entry.2.stream = true := by
  rw [nullStream, Option.map_eq_none_iff, List.find?_eq_none] at none_
  intro entry member
  simpa using none_ entry member

/-- A stored state has a file for each dump that it is compared by. -/
theorem store_uses {hasModule : Bool} {files : Files}
    (stored : store env hasModule world = .ok (files, next)) :
    ∀ path ∈ files.used hasModule, path ≠ [] := by
  obtain ⟨⟨lookup, first⟩, lookupMade, stored⟩ := bind_ok stored
  obtain ⟨⟨included, second⟩, includedMade, stored⟩ := bind_ok stored
  obtain ⟨⟨ast, third⟩, astMade, stored⟩ := bind_ok stored
  obtain ⟨⟨llvmModule, fourth⟩, moduleMade, stored⟩ := bind_ok stored
  obtain ⟨⟨macros, fifth⟩, macrosMade, stored⟩ := bind_ok stored
  dsimp only at stored
  split at stored
  · cases stored
  · next none_ =>
    obtain ⟨rfl, rfl⟩ := Prod.mk.inj (Except.ok.inj stored)
    have streams := streams_of_nullStream none_
    cases hasModule <;>
      simp_all [Files.used, create_streams lookupMade, create_streams includedMade,
        create_streams astMade, create_streams moduleMade, create_streams macrosMade]

/-- Removing files erases those that have a name. -/
theorem foldl_removeFile (paths files : List Bytes) :
    paths.foldl removeFile files = (named paths).foldl List.erase files := by
  induction paths generalizing files with
  | nil => rfl
  | cons path rest inductionHypothesis =>
    by_cases unnamed : path = []
    · simp [removeFile, named, unnamed, inductionHypothesis]
    · simp [removeFile, named, unnamed, inductionHypothesis]

/-- A destructor body releases the files of its object. -/
theorem removeAll_accounts (files : Files)
    (accounts : Accounts others world (named files.all ++ owned)) :
    Accounts others (removeAll files world) owned := by
  refine ⟨?_, fun path member => accounts.registered (List.mem_append_right _ member)⟩
  have left := accounts.owns.release_all (named files.all)
  rwa [← foldl_removeFile] at left

/-- Dropping a partner releases its files. -/
theorem dropPair_accounts (pair : Option Files)
    (accounts : Accounts others world (named (pair.elim [] Files.all) ++ owned)) :
    Accounts others (dropPair pair world) owned := by
  cases pair with
  | none => exact accounts
  | some files => exact removeAll_accounts files accounts

/-- What belongs to an object at an index stands in front of what belongs to the others. -/
theorem owned_at {objects : List Stored} {index : Nat} {state : Stored}
    (present : objects[index]? = some state) :
    (objects.flatMap Stored.owned).Perm
      (state.owned ++ (objects.eraseIdx index).flatMap Stored.owned) := by
  obtain ⟨inside, rfl⟩ := List.getElem?_eq_some_iff.mp present
  exact (List.getElem_cons_eraseIdx_perm inside).symm.flatMap_right Stored.owned

/-- A changed object stands in front of the others, too. -/
theorem owned_set {objects : List Stored} {index : Nat} {state : Stored}
    (present : objects[index]? = some state) (changed : Stored) :
    (changed.owned ++ (objects.eraseIdx index).flatMap Stored.owned).Perm
      ((objects.set index changed).flatMap Stored.owned) := by
  obtain ⟨inside, _⟩ := List.getElem?_eq_some_iff.mp present
  exact (List.set_perm_cons_eraseIdx inside changed).symm.flatMap_right Stored.owned

/-- A comparison leaves its object with its own files and those of the new partner. -/
theorem compare_accounts {state : Stored} {current : Files}
    (accounts : Accounts others world (state.owned ++ owned))
    (stored : store env state.hasModule world = .ok (current, next)) :
    Accounts others (dropPair state.diffPair next)
      ({ state with diffPair := some current }.owned ++ owned) := by
  have both := store_accounts accounts stored
  apply dropPair_accounts state.diffPair
  apply both.regroup
  have front : (named current.all ++ state.owned).Perm
      (named (state.diffPair.elim [] Files.all) ++ (named state.files.all ++ named current.all)) := by
    refine List.perm_append_comm.trans ?_
    rw [Stored.owned, List.append_assoc]
    exact List.perm_append_comm_assoc ..
  simpa only [Stored.owned, Option.elim_some, List.append_assoc] using front.append_right owned

/-- The destructor releases what an object owns. -/
theorem destroy_accounts {state : Stored} (accounts : Accounts others world (state.owned ++ owned)) :
    Accounts others (destroy state world) owned := by
  rw [Stored.owned, List.append_assoc] at accounts
  exact dropPair_accounts state.diffPair (removeAll_accounts state.files accounts)

/-- The names of used files are among those of the object. -/
theorem used_named {files : Files} {hasModule : Bool} {path : Bytes}
    (member : path ∈ files.used hasModule) (present : path ≠ []) : path ∈ named files.all := by
  refine List.mem_filter.mpr ⟨?_, by simpa using present⟩
  cases hasModule <;> simp [Files.used, Files.all] at member ⊢ <;> tauto

/-- Only used files are compared. -/
theorem comparisons_used {hasModule : Bool} {mine current : Files} {comparison : Comparison}
    (member : comparison ∈ comparisons hasModule mine current) :
    comparison.file1 ∈ mine.used hasModule ∧ comparison.file2 ∈ current.used hasModule := by
  cases hasModule with
  | false =>
    simp only [comparisons, Bool.false_eq_true, ↓reduceIte, List.append_nil, List.cons_append,
      List.nil_append, List.mem_cons, List.not_mem_nil, or_false] at member
    rcases member with rfl | rfl | rfl | rfl <;> simp [Files.used]
  | true =>
    simp only [comparisons, ↓reduceIte, List.cons_append, List.nil_append, List.mem_cons,
      List.not_mem_nil, or_false] at member
    rcases member with rfl | rfl | rfl | rfl | rfl <;> simp [Files.used]

end Accounting

/-- The files are accounted for, each object has the files that it is compared by, and both
files of each comparison were there. -/
structure Sound (others : List Bytes) (session : Session) : Prop where
  accounts : Accounts others session.world (session.objects.flatMap Stored.owned)
  complete : ∀ state ∈ session.objects, ∀ path ∈ state.files.used state.hasModule, path ≠ []
  readable : ∀ entry ∈ session.compared, entry.2 = true

section Sessions

variable {env : Environment} {others : List Bytes} {session next : Session}

/-- A construction stores a state, and the object is a new one. -/
theorem performed_construct {hasModule : Bool}
    (performed : perform env session (.construct hasModule) = .ok next) : ∃ files world,
      store env hasModule session.world = .ok (files, world) ∧
      next = { session with world := world, objects := ⟨hasModule, files, none⟩ :: session.objects } := by
  unfold perform construct at performed
  cases stored : store env hasModule session.world with
  | error fault => simp [stored, Except.map] at performed
  | ok result =>
    simp only [stored, Except.map, Except.ok.injEq] at performed
    exact ⟨result.1, result.2, rfl, performed.symm⟩

/-- A comparison stores a state, and the object has a new partner. -/
theorem performed_compare {index : Nat} (performed : perform env session (.compare index) = .ok next) :
    ∃ state current world, session.objects[index]? = some state ∧
      store env state.hasModule session.world = .ok (current, world) ∧
      next = ⟨dropPair state.diffPair world,
        session.objects.set index { state with diffPair := some current },
        session.compared ++ (comparisons state.hasModule state.files current).map fun comparison =>
          (comparison, comparison.readable (dropPair state.diffPair world))⟩ := by
  unfold perform at performed
  dsimp only at performed
  split at performed
  · cases performed
  · next state present =>
    unfold compare at performed
    cases stored : store env state.hasModule session.world with
    | error fault => simp [stored, Except.map] at performed
    | ok result =>
      simp only [stored, Except.map, Except.ok.injEq] at performed
      exact ⟨state, result.1, result.2, present, stored, performed.symm⟩

/-- A destruction is one of an object that is there. -/
theorem performed_destroy {index : Nat} (performed : perform env session (.destroy index) = .ok next) :
    ∃ state, session.objects[index]? = some state ∧
      next = { session with
        world := destroy state session.world
        objects := session.objects.eraseIdx index } := by
  unfold perform at performed
  dsimp only at performed
  split at performed
  · cases performed
  · next state present => exact ⟨state, present, (Except.ok.inj performed).symm⟩

/-- A new object owns its files. -/
theorem construct_sound {hasModule : Bool} (sound : Sound others session)
    (performed : perform env session (.construct hasModule) = .ok next) : Sound others next := by
  obtain ⟨files, world, stored, rfl⟩ := performed_construct performed
  refine ⟨?_, ?_, sound.readable⟩
  · simpa [Stored.owned, named] using store_accounts sound.accounts stored
  · exact List.forall_mem_cons.mpr ⟨store_uses stored, sound.complete⟩

/-- A comparison finds all files and exchanges the partner. -/
theorem compare_sound {index : Nat} (sound : Sound others session)
    (performed : perform env session (.compare index) = .ok next) : Sound others next := by
  obtain ⟨state, current, world, present, stored, rfl⟩ := performed_compare performed
  have mine := sound.complete state (List.mem_of_getElem? present)
  have accounts := compare_accounts (sound.accounts.regroup (owned_at present)) stored
  refine ⟨accounts.regroup (owned_set present _), ?_, ?_⟩
  · intro other member
    rcases List.mem_or_eq_of_mem_set member with old | rfl
    · exact sound.complete other old
    · exact mine
  · refine List.forall_mem_append.mpr ⟨sound.readable, List.forall_mem_map.mpr ?_⟩
    intro comparison member
    obtain ⟨first, second⟩ := comparisons_used member
    have here : comparison.file1 ∈ { state with diffPair := some current }.owned :=
      List.mem_append_left _ (used_named first (mine _ first))
    have there : comparison.file2 ∈ { state with diffPair := some current }.owned :=
      List.mem_append_right _ (used_named second (store_uses stored _ second))
    simp only [Comparison.readable, Bool.and_eq_true, List.contains_iff_mem]
    exact ⟨accounts.owns.exists (List.mem_append_left _ here),
      accounts.owns.exists (List.mem_append_left _ there)⟩

/-- A destroyed object leaves no file behind. -/
theorem destroy_sound {index : Nat} (sound : Sound others session)
    (performed : perform env session (.destroy index) = .ok next) : Sound others next := by
  obtain ⟨state, present, rfl⟩ := performed_destroy performed
  refine ⟨destroy_accounts (sound.accounts.regroup (owned_at present)), ?_, sound.readable⟩
  intro other member
  exact sound.complete other (List.mem_of_mem_eraseIdx member)

/-- Every operation keeps the files accounted for. -/
theorem perform_sound {operation : Operation} (sound : Sound others session)
    (performed : perform env session operation = .ok next) : Sound others next := by
  cases operation with
  | construct hasModule => exact construct_sound sound performed
  | compare index => exact compare_sound sound performed
  | destroy index => exact destroy_sound sound performed

/-- Every sequence of operations keeps the files accounted for. -/
theorem performAll_sound {operations : List Operation} (sound : Sound others session)
    (performed : performAll env session operations = .ok next) : Sound others next := by
  induction operations generalizing session with
  | nil => exact Except.ok.inj performed ▸ sound
  | cons operation rest inductionHypothesis =>
    obtain ⟨middle, first, later⟩ := bind_ok performed
    exact inductionHypothesis (perform_sound sound first) later

/-- At the beginning no object owns a file. -/
theorem initial_sound (distinct : others.Nodup) : Sound others (.initial others) where
  accounts := ⟨owns_nothing distinct, List.nil_subset _⟩
  complete := by simp [Session.initial]
  readable := by simp [Session.initial]

/-- A system that creates every file that it is asked for. -/
def Environment.Reliable (env : Environment) : Prop :=
  ∀ call model files, ∃ path, env.createUniqueFile call model files = .created path

/-- An operation is about a live object. -/
def Operation.Applies (session : Session) : Operation → Prop
  | .construct _ => True
  | .compare index | .destroy index => index < session.objects.length

/-- A reliable system returns a stream for each file. -/
theorem create_reliable (reliable : env.Reliable) (outFile : Bytes) (world : World) : ∃ output next,
    createOutputFile env outFile world true = .ok (output, next) ∧ output.stream = true := by
  obtain ⟨path, created⟩ := reliable world.calls (pathModel env world.calls outFile) world.files
  refine ⟨⟨true, path⟩, ⟨path :: world.files, world.calls + 1, path :: world.onSignal⟩, ?_, rfl⟩
  simp [createOutputFile, created]

/-- On a reliable system a state is stored. -/
theorem store_reliable (reliable : env.Reliable) (hasModule : Bool) (world : World) :
    ∃ files next, store env hasModule world = .ok (files, next) := by
  obtain ⟨lookup, first, lookupMade, lookupStream⟩ := create_reliable reliable (text "lookup") world
  obtain ⟨included, second, includedMade, includedStream⟩ :=
    create_reliable reliable (text "included") first
  obtain ⟨ast, third, astMade, astStream⟩ := create_reliable reliable (text "ast") second
  obtain ⟨llvmModule, fourth, moduleMade, moduleStream⟩ :=
    create_reliable reliable (text "module") third
  obtain ⟨macros, fifth, macrosMade, macrosStream⟩ :=
    create_reliable reliable (text "macros") fourth
  have streams : nullStream ([(text "lookup", lookup), (text "included", included), (text "ast", ast)] ++
      (if hasModule then [(text "module", llvmModule)] else []) ++ [(text "macros", macros)]) = none := by
    cases hasModule <;>
      simp [nullStream, lookupStream, includedStream, astStream, moduleStream, macrosStream]
  refine ⟨⟨lookup.tempPathName, included.tempPathName, ast.tempPathName, llvmModule.tempPathName,
    macros.tempPathName⟩, fifth, ?_⟩
  simp only [store, lookupMade, includedMade, astMade, moduleMade, macrosMade, bind, Except.bind, streams]

/-- On a reliable system an operation succeeds exactly when it is about a live object. -/
theorem perform_succeeds_iff (reliable : env.Reliable) (session : Session) (operation : Operation) :
    (∃ next, perform env session operation = .ok next) ↔ operation.Applies session := by
  cases operation with
  | construct hasModule =>
    obtain ⟨files, world, stored⟩ := store_reliable reliable hasModule session.world
    exact iff_of_true (by simp [perform, construct, stored, Except.map]) trivial
  | compare index =>
    cases present : session.objects[index]? with
    | none =>
      have missing := List.getElem?_eq_none_iff.mp present
      simp [perform, Operation.Applies, missing]
    | some state =>
      obtain ⟨inside, _⟩ := List.getElem?_eq_some_iff.mp present
      obtain ⟨files, world, stored⟩ := store_reliable reliable state.hasModule session.world
      exact iff_of_true (by simp [perform, present, compare, stored, Except.map]) inside
  | destroy index =>
    cases present : session.objects[index]? with
    | none =>
      have missing := List.getElem?_eq_none_iff.mp present
      simp [perform, Operation.Applies, missing]
    | some state =>
      obtain ⟨inside, _⟩ := List.getElem?_eq_some_iff.mp present
      exact iff_of_true (by simp [perform, present]) inside

end Sessions

/-- Whatever objects a program constructs, compares and destroys, in whatever order, the files
that exist are those of others and those of the live objects. Each of the latter is
registered for removal on a signal, and no comparison is made with a missing file. -/
theorem files_accounted (env : Environment) {others : List Bytes} (distinct : others.Nodup)
    (operations : List Operation) {session : Session}
    (performed : performAll env (.initial others) operations = .ok session) :
    session.world.files.Perm (others ++ session.objects.flatMap Stored.owned) ∧
      session.world.files.Nodup ∧
      session.objects.flatMap Stored.owned ⊆ session.world.onSignal ∧
      ∀ entry ∈ session.compared, entry.2 = true := by
  have sound := performAll_sound (initial_sound distinct) performed
  exact ⟨sound.accounts.owns.accounted, sound.accounts.owns.distinct, sound.accounts.registered,
    sound.readable⟩

/-- The path that a call of a counter gets: all percent signs become the same digit. -/
def countedPath (call : Nat) (model : Bytes) : Bytes :=
  model.map fun ch =>
    if ch = '%'.toUInt8 then (text "0123456789abcdef").getD (call % 16) '0'.toUInt8 else ch

/-- A system that counts its files, as long as the names are free. -/
def counter : Environment where
  tempPath := text "/tmp"
  currentTime _ := text "12_00_00"
  createUniqueFile call model files :=
    if files.contains (countedPath call model) then .failed else .created (countedPath call model)
  fills := by
    intro call model files path created
    have same : countedPath call model = path := by
      split at created
      · cases created
      · exact Creation.created.inj created
    subst same
    have digits : ∀ index < 16,
        (text "0123456789abcdef").getD index '0'.toUInt8 ∈ text "0123456789abcdef" := by
      decide
    rw [countedPath, List.forall₂_map_right_iff, List.forall₂_same]
    intro ch _
    unfold Fills
    split
    · next percent => exact .inr ⟨percent, digits _ (Nat.mod_lt _ (by decide))⟩
    · exact .inl rfl
  fresh := by
    intro call model files path created present
    split at created
    · cases created
    · next absent =>
      rw [Creation.created.inj created] at absent
      exact absent (by simpa using present)

/-- A state that is compared twice and destroyed leaves the one file that was there. -/
theorem compared_twice_gone : ∃ session,
    performAll counter (.initial [text "/tmp/a"])
        [.construct true, .compare 0, .compare 0, .destroy 0] = .ok session ∧
      session.world.files.Perm [text "/tmp/a"] := by
  have runs : ((performAll counter (.initial [text "/tmp/a"])
      [.construct true, .compare 0, .compare 0, .destroy 0]).toOption.map (·.objects)) = some [] := by
    decide +kernel
  cases performed : performAll counter (.initial [text "/tmp/a"])
      [.construct true, .compare 0, .compare 0, .destroy 0] with
  | error fault => simp [performed, Except.toOption] at runs
  | ok session =>
    have gone : session.objects = [] := by simpa [performed, Except.toOption] using runs
    have files := (files_accounted counter (List.nodup_singleton _) _ performed).1
    exact ⟨session, rfl, by simpa [gone] using files⟩

end CppInterpreter.ClangInternalState
