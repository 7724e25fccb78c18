import CppInterpreter.DiffCommands
import Mathlib.Data.List.Nodup

/-!
# What comparisons report

The program means something simple: an object remembers the dumps that were taken when it
was constructed, and a comparison reports each dump that differs from the present one.

It is implemented by temporary files, whose names the system gives, and by calls of `diff`. Over any
sequence of constructions, comparisons and destructions the files keep the dumps: no object writes
into the file of another, and no file is removed before its last use.
-/

namespace CppInterpreter.ClangInternalState

open Bytes QuotedWords

/-- Five texts, under the names of the files that they are dumped into. -/
abbrev Dumps := Files

/-- What is dumped. There is nothing to dump about a module if there is none. -/
def Dumps.written (hasModule : Bool) (dumps : Dumps) : Dumps :=
  { dumps with llvmModule := if hasModule then dumps.llvmModule else [] }

/-- Write texts into files. -/
def writeAll (entries : List (Bytes × Bytes)) (contents : Bytes → Bytes) : Bytes → Bytes :=
  entries.foldl (fun contents entry => Function.update contents entry.1 entry.2) contents

/-- The dumps of `store`, written into its files. -/
def writeDumps (hasModule : Bool) (files : Files) (dumps : Dumps) (contents : Bytes → Bytes) :
    Bytes → Bytes :=
  writeAll (files.all.zip (dumps.written hasModule).all) contents

/-- The content of a file that exists. -/
def onDisk (world : World) (contents : Bytes → Bytes) (path : Bytes) : Option Bytes :=
  if world.files.contains path then some (contents path) else none

/-- The objects of a program and their files, with the contents, and the log. -/
structure Machine where
  session : Session
  contents : Bytes → Bytes
  log : List LogEntry

/-- An operation, with what the compiler dumps at that time and the functions that its module
has. -/
inductive Request where
  | construct (hasModule : Bool) (dumps : Dumps)
  | compare (index : Nat) (dumps : Dumps) (functions : List Function) (verbose : Bool)
  | destroy (index : Nat)
deriving DecidableEq, Repr

/-- The effect on objects and files. -/
def Request.operation : Request → Operation
  | .construct hasModule _ => .construct hasModule
  | .compare index _ _ _ => .compare index
  | .destroy index => .destroy index

/-- What the compiler and the system provide. The output of a command depends on the contents of
files. -/
structure Platform where
  env : Environment
  growth : Popen.Growth
  shell : (Bytes → Option Bytes) → Bytes → Option Bytes
  builtins : Builtins

/-- One operation. A new state is dumped into its files, and a comparison is made when the
partner has been stored and the old one is gone. -/
def Machine.serve (platform : Platform) (fuel : Nat) (machine : Machine) (request : Request) :
    Except Failure Machine :=
  match perform platform.env machine.session request.operation with
  | .error fault => .error (.file fault)
  | .ok session =>
    match request with
    | .construct hasModule dumps =>
      match session.objects with
      | [] => .error (.file (.noObject 0))
      | state :: _ =>
        .ok ⟨session, writeDumps hasModule state.files dumps machine.contents, machine.log⟩
    | .compare index dumps functions verbose =>
      match session.objects[index]? with
      | some ⟨hasModule, files, some current⟩ =>
        let contents := writeDumps hasModule current dumps machine.contents
        (logChecks platform.growth (platform.shell (onDisk session.world contents)) fuel verbose
          (checks platform.builtins functions hasModule files current)).map fun logged =>
            ⟨session, contents, machine.log ++ logged⟩
      | _ => .error (.file (.noObject index))
    | .destroy _ => .ok { machine with session := session }

/-- A sequence of operations, up to the first failure. -/
def Machine.serveAll (platform : Platform) (fuel : Nat) : Machine → List Request → Except Failure Machine
  | machine, [] => .ok machine
  | machine, request :: rest => machine.serve platform fuel request >>= (serveAll platform fuel · rest)

/-- No object yet, some files of others, and an empty log. -/
def Machine.initial (others : List Bytes) (contents : Bytes → Bytes) : Machine :=
  ⟨.initial others, contents, []⟩

/-- What an object means: the dumps at the time of its construction. -/
structure Snapshot where
  hasModule : Bool
  dumps : Dumps
deriving DecidableEq, Repr

/-- The objects and what has been reported. -/
structure Memory where
  objects : List Snapshot
  reports : List Bytes
deriving DecidableEq, Repr

/-- The dumps that differ. The comparisons are those of texts in the place of files. -/
def reported (diff : Diff) (builtins : Builtins) (functions : List Function) (hasModule : Bool)
    (before after : Dumps) : List Bytes :=
  ((checks builtins functions hasModule before after).filter fun check =>
    diff.differs (patterns check.2) check.1.file1 check.1.file2).map fun check => check.1.type

/-- One operation. A comparison is one with the present dumps. -/
def Memory.serve (diff : Diff) (builtins : Builtins) (memory : Memory) : Request → Option Memory
  | .construct hasModule dumps =>
    some { memory with objects := ⟨hasModule, dumps.written hasModule⟩ :: memory.objects }
  | .compare index dumps functions _ =>
    memory.objects[index]?.map fun snapshot =>
      { memory with
        reports := memory.reports ++
          reported diff builtins functions snapshot.hasModule snapshot.dumps dumps }
  | .destroy index =>
    if index < memory.objects.length then
      some { memory with objects := memory.objects.eraseIdx index }
    else none

/-- A sequence of operations, each about an object that is there. -/
def Memory.serveAll (diff : Diff) (builtins : Builtins) : Memory → List Request → Option Memory
  | memory, [] => some memory
  | memory, request :: rest => memory.serve diff builtins request >>= (serveAll diff builtins · rest)


section Contents

variable {entries : List (Bytes × Bytes)} {contents : Bytes → Bytes}

/-- Writing into files leaves the others as they are. -/
theorem writeAll_other {path : Bytes} (elsewhere : path ∉ entries.map Prod.fst) :
    writeAll entries contents path = contents path := by
  induction entries generalizing contents with
  | nil => rfl
  | cons entry rest inductionHypothesis =>
    rw [List.map_cons, List.mem_cons, not_or] at elsewhere
    obtain ⟨notHere, notLater⟩ := elsewhere
    rw [writeAll, List.foldl_cons, ← writeAll, inductionHypothesis notLater,
      Function.update_of_ne notHere]

/-- Of files with different names each one has its own text. -/
theorem writeAll_written {path content : Bytes} (distinct : (entries.map Prod.fst).Nodup)
    (member : (path, content) ∈ entries) : writeAll entries contents path = content := by
  induction entries generalizing contents with
  | nil => cases member
  | cons entry rest inductionHypothesis =>
    obtain ⟨apart, others⟩ := List.nodup_cons.mp distinct
    rw [writeAll, List.foldl_cons, ← writeAll]
    rcases List.mem_cons.mp member with rfl | later
    · rw [writeAll_other apart, Function.update_self]
    · exact inductionHypothesis others later

/-- The contents of five files. -/
def Files.read (contents : Bytes → Bytes) (files : Files) : Dumps where
  lookupTables := contents files.lookupTables
  included := contents files.included
  ast := contents files.ast
  llvmModule := contents files.llvmModule
  macros := contents files.macros

/-- What an object means, by the contents of its files. -/
def Stored.view (contents : Bytes → Bytes) (state : Stored) : Snapshot :=
  ⟨state.hasModule, (state.files.read contents).written state.hasModule⟩

/-- The five files are dumped into and then hold what is dumped. -/
theorem read_writeDumps {hasModule : Bool} {files : Files} (distinct : files.all.Nodup)
    (dumps : Dumps) :
    files.read (writeDumps hasModule files dumps contents) = dumps.written hasModule := by
  have names : (files.all.zip (dumps.written hasModule).all).map Prod.fst = files.all :=
    List.map_fst_zip (Nat.le_refl 5)
  have holds : ∀ entry ∈ files.all.zip (dumps.written hasModule).all,
      writeDumps hasModule files dumps contents entry.1 = entry.2 :=
    fun entry member => writeAll_written (names ▸ distinct) member
  simp only [Files.all, List.zip_cons_cons, List.zip_nil_right, List.forall_mem_cons] at holds
  obtain ⟨lookup, included, ast, llvmModule, macros, _⟩ := holds
  simp only [Files.read, lookup, included, ast, llvmModule, macros]

/-- Only what is used of an object's files matters to what it means. -/
theorem view_congr {state : Stored} {changed : Bytes → Bytes}
    (same : ∀ path ∈ state.files.used state.hasModule, changed path = contents path) :
    state.view changed = state.view contents := by
  unfold Stored.view
  cases present : state.hasModule <;>
    simp_all [Files.used, Files.read, Dumps.written]

end Contents

section Storing

variable {env : Environment} {others owned : List Bytes} {world next : World} {hasModule : Bool}
  {files : Files}

/-- Files with different names, one of which may have none, are different. -/
theorem all_nodup (distinct : (named files.all).Nodup)
    (present : ∀ path ∈ files.used hasModule, path ≠ []) : files.all.Nodup := by
  by_cases unnamed : files.llvmModule = []
  · simp_all [Files.used, Files.all, named]
  · have complete : named files.all = files.all := by
      simp_all [Files.used, Files.all, named]
    rwa [complete] at distinct

/-- The files of a stored state are five different ones, and none of those that are owned. -/
theorem store_fresh (accounts : Accounts others world owned)
    (stored : store env hasModule world = .ok (files, next)) :
    files.all.Nodup ∧ ∀ path ∈ owned, path ≠ [] → path ∉ files.all := by
  have owns := (store_accounts accounts stored).owns
  have apart := (owns.accounted.nodup_iff.mp owns.distinct).of_append_right
  obtain ⟨mine, _, disjoint⟩ := List.nodup_append.mp apart
  refine ⟨all_nodup mine (store_uses stored), ?_⟩
  intro path member nonempty inside
  exact disjoint path (List.mem_filter.mpr ⟨inside, by simpa using nonempty⟩) path member rfl

end Storing

section Names

/-- What the files are created for. -/
def outFiles : List Bytes :=
  [text "lookup", text "included", text "ast", text "module", text "macros"]

/-- Paths that the system creates for the files have a property. -/
def Environment.Names (env : Environment) (p : Bytes → Prop) : Prop :=
  ∀ call files path, ∀ outFile ∈ outFiles,
    env.createUniqueFile call (pathModel env call outFile) files = .created path → p path

/-- Every file that an object owns or that was compared was created by the system. -/
structure NamesOf (p : Bytes → Prop) (session : Session) : Prop where
  owned : ∀ state ∈ session.objects, ∀ path ∈ state.owned, p path
  compared : ∀ entry ∈ session.compared, p entry.1.file1 ∧ p entry.1.file2

variable {env : Environment} {others : List Bytes} {session next : Session} {p : Bytes → Prop}
  (names : env.Names p)
include names

/-- An output file has no name, or one that the system gave. -/
theorem create_names {outFile : Bytes} {world after : World} {output : OutputFile}
    (created : createOutputFile env outFile world true = .ok (output, after))
    (listed : outFile ∈ outFiles) : ∀ path ∈ named [output.tempPathName], p path := by
  simp only [createOutputFile, ↓reduceIte] at created
  split at created
  · next path made =>
    obtain ⟨rfl, rfl⟩ := Prod.mk.inj (Except.ok.inj created)
    have given := names _ _ _ _ listed made
    simp [named, given]
  · obtain ⟨rfl, rfl⟩ := Prod.mk.inj (Except.ok.inj created)
    simp [named]
  · cases created

/-- The files of a stored state have names that the system gave. -/
theorem store_names {hasModule : Bool} {files : Files} {world after : World}
    (stored : store env hasModule world = .ok (files, after)) : ∀ path ∈ named files.all, p path := by
  obtain ⟨⟨lookup, first⟩, lookupMade, stored⟩ := bind_ok stored
  obtain ⟨⟨included, second⟩, includedMade, stored⟩ := bind_ok stored
  obtain ⟨⟨ast, third⟩, astMade, stored⟩ := bind_ok stored
  obtain ⟨⟨llvmModule, fourth⟩, moduleMade, stored⟩ := bind_ok stored
  obtain ⟨⟨macros, fifth⟩, macrosMade, stored⟩ := bind_ok stored
  dsimp only at stored
  split at stored
  · cases stored
  · obtain ⟨rfl, rfl⟩ := Prod.mk.inj (Except.ok.inj stored)
    have split_ : ∀ path others, named (path :: others) = named [path] ++ named others := by
      intro path others
      simp only [named, ← List.filter_append, List.singleton_append]
    rw [Files.all, split_, split_ included.tempPathName, split_ ast.tempPathName,
      split_ llvmModule.tempPathName]
    simp only [List.forall_mem_append]
    exact ⟨create_names names lookupMade (by simp [outFiles]),
      create_names names includedMade (by simp [outFiles]),
      create_names names astMade (by simp [outFiles]),
      create_names names moduleMade (by simp [outFiles]),
      create_names names macrosMade (by simp [outFiles])⟩

/-- Every operation keeps it so. -/
theorem perform_names {operation : Operation} (sound : Sound others session)
    (given : NamesOf p session) (performed : perform env session operation = .ok next) :
    NamesOf p next := by
  cases operation with
  | construct hasModule =>
    obtain ⟨files, world, stored, rfl⟩ := performed_construct performed
    refine ⟨List.forall_mem_cons.mpr ⟨?_, given.owned⟩, given.compared⟩
    simpa [Stored.owned, named] using store_names names stored
  | compare index =>
    obtain ⟨state, current, world, present, stored, rfl⟩ := performed_compare performed
    have mine := given.owned state (List.mem_of_getElem? present)
    have complete := sound.complete state (List.mem_of_getElem? present)
    have own := (List.forall_mem_append.mp mine).1
    have fresh := store_names names stored
    constructor
    · intro other member
      rcases List.mem_or_eq_of_mem_set member with old | rfl
      · exact given.owned other old
      · exact List.forall_mem_append.mpr ⟨own, fresh⟩
    · refine List.forall_mem_append.mpr ⟨given.compared, List.forall_mem_map.mpr ?_⟩
      intro comparison member
      obtain ⟨first, second⟩ := comparisons_used member
      exact ⟨own _ (used_named first (complete _ first)),
        fresh _ (used_named second (store_uses stored _ second))⟩
  | destroy index =>
    obtain ⟨state, present, rfl⟩ := performed_destroy performed
    exact ⟨fun state member => given.owned state (List.mem_of_mem_eraseIdx member), given.compared⟩

end Names

/-- A plain directory for temporary files, and a plain time. -/
structure Environment.Plain (env : Environment) : Prop where
  tempPath : PlainPath env.tempPath
  currentTime : ∀ call, Bare posix (env.currentTime call)

/-- A directory and a component make a path of the characters of both. -/
theorem bare_posixAppend {directory component : Bytes} (first : Bare posix directory)
    (second : Bare posix component) : Bare posix (LookForFile.posixAppend directory component) := by
  have slash : Bare posix (text "/") := by unfold Bare; decide +kernel
  unfold LookForFile.posixAppend
  split_ifs
  · exact first
  · exact List.forall_mem_append.mpr
      ⟨first, fun ch member => second ch ((List.dropWhile_sublist _).subset member)⟩
  · exact List.forall_mem_append.mpr ⟨first, second⟩
  · exact List.forall_mem_append.mpr ⟨List.forall_mem_append.mpr ⟨first, slash⟩, second⟩

/-- A path begins as its directory. -/
theorem head_posixAppend {directory : Bytes} {ch : UInt8} (begins : directory.head? = some ch)
    (component : Bytes) : (LookForFile.posixAppend directory component).head? = some ch := by
  unfold LookForFile.posixAppend
  split_ifs <;> simp [begins]

/-- The model of a path is plain. -/
theorem pathModel_plain {env : Environment} (plain : env.Plain) (call : Nat) {outFile : Bytes}
    (listed : outFile ∈ outFiles) : PlainPath (pathModel env call outFile) := by
  have literals : ∀ part ∈ [text "-", text "-%%%%%%%%"], Bare posix part := by unfold Bare; decide +kernel
  have components : ∀ outFile ∈ outFiles, Bare posix (text "cppinterp-" ++ outFile) := by
    unfold Bare
    decide +kernel
  have dash := literals (text "-") (by simp)
  have percents := literals (text "-%%%%%%%%") (by simp)
  constructor
  · simp [pathModel, head_posixAppend plain.tempPath.1]
  · have path := bare_posixAppend plain.tempPath.2 (components outFile listed)
    simp only [Bare, pathModel, List.forall_mem_append] at *
    exact ⟨⟨⟨path, dash⟩, plain.currentTime call⟩, percents⟩

/-- So are the paths that the system creates. -/
theorem created_plain {env : Environment} (plain : env.Plain) : env.Names PlainPath := by
  intro call files path outFile listed created
  have fills := env.fills _ _ _ _ created
  obtain ⟨absolute, bare⟩ := pathModel_plain plain call listed
  have digits : Bare posix (text "0123456789abcdef") := by unfold Bare; decide +kernel
  constructor
  · generalize pathModel env call outFile = model at fills absolute
    cases fills with
    | nil => cases absolute
    | cons first later =>
      obtain rfl := Option.some.inj absolute
      rcases first with same | ⟨percent, _⟩
      · rw [same]
        rfl
      · exact absurd percent (by decide +kernel)
  · intro ch member
    obtain ⟨index, inside, rfl⟩ := List.getElem_of_mem member
    have filled := fills.get (fills.length_eq ▸ inside) inside
    rw [List.get_eq_getElem, List.get_eq_getElem] at filled
    rcases filled with same | ⟨_, digit⟩
    · rw [same]
      exact bare _ (List.getElem_mem _)
    · exact digits _ digit

/-- Plain names of builtin functions. -/
def Builtins.Plain (builtins : Builtins) : Prop :=
  ∀ name ∈ builtins.names ++ builtins.target, PlainPattern name

/-- The intrinsics have plain names. -/
def Request.Plain : Request → Prop
  | .compare _ _ functions _ => ∀ name ∈ intrinsics functions, PlainPattern name
  | .construct _ _ | .destroy _ => True

/-- The checks of two states, with everything that is compared put in the place of its file. -/
theorem checks_read (builtins : Builtins) (functions : List Function) (hasModule : Bool)
    (mine current : Files) (contents : Bytes → Bytes) :
    (checks builtins functions hasModule mine current).map (fun check =>
      ((⟨contents check.1.file1, contents check.1.file2, check.1.type⟩ : Comparison), check.2)) =
      checks builtins functions hasModule (mine.read contents) (current.read contents) := by
  cases hasModule <;> rfl

/-- What is not dumped is not compared, on either side. -/
theorem checks_written (builtins : Builtins) (functions : List Function) (hasModule : Bool)
    (before after : Dumps) :
    checks builtins functions hasModule (before.written hasModule) after =
      checks builtins functions hasModule before (after.written hasModule) := by
  cases hasModule <;> rfl

/-- The dumps that are reported are those whose files differ. -/
theorem reported_read (diff : Diff) (builtins : Builtins) (functions : List Function)
    (hasModule : Bool) (mine current : Files) (contents : Bytes → Bytes) :
    reported diff builtins functions hasModule (mine.read contents) (current.read contents) =
      ((checks builtins functions hasModule mine current).filter fun check =>
        diff.differs (patterns check.2) (contents check.1.file1) (contents check.1.file2)).map
          fun check => check.1.type := by
  rw [reported, ← checks_read, List.filter_map, List.map_map]
  rfl

/-- Each check belongs to a comparison. -/
theorem checks_comparisons (builtins : Builtins) (functions : List Function) (hasModule : Bool)
    (mine current : Files) :
    (checks builtins functions hasModule mine current).map Prod.fst =
      comparisons hasModule mine current := by
  cases hasModule <;> rfl

/-- The patterns of all checks are plain. -/
theorem checks_plain {builtins : Builtins} (plain : builtins.Plain) {functions : List Function}
    (named_ : ∀ name ∈ intrinsics functions, PlainPattern name) (hasModule : Bool)
    (mine current : Files) :
    ∀ check ∈ checks builtins functions hasModule mine current, ∀ ignore ∈ check.2.getD [],
      PlainPattern ignore := by
  have literals : PlainPattern (text ".*__builtin.*") ∧ PlainPattern (text "input_line_[0-9].*") := by
    decide +kernel
  have ignored : ∀ name ∈ builtins.ignored, PlainPattern name := by
    obtain ⟨own, target⟩ := List.forall_mem_append.mp plain
    refine List.forall_mem_append.mpr ⟨List.forall_mem_append.mpr ⟨?_, ?_⟩, ?_⟩
    · exact fun name member => own name (List.mem_of_mem_filter member)
    · exact fun name member => target name (List.mem_of_mem_filter member)
    · exact List.forall_mem_singleton.mpr literals.1
  cases hasModule <;> simp_all [checks]

/-- The objects of the machine mean those of the memory, and the log has its reports. -/
structure Represents (others : List Bytes) (machine : Machine) (memory : Memory) : Prop where
  sound : Sound others machine.session
  names : NamesOf PlainPath machine.session
  objects : machine.session.objects.map (Stored.view machine.contents) = memory.objects
  reports : machine.log.filterMap LogEntry.type? = memory.reports

section Simulation

variable {platform : Platform} {diff : Diff} {others : List Bytes} {machine : Machine}
  {memory : Memory} {session : Session}

/-- Storing a state changes the meaning of no object that is there. -/
theorem views_kept (sound : Sound others machine.session) {hasModule : Bool} {files : Files}
    {world : World} (stored : store platform.env hasModule machine.session.world = .ok (files, world))
    (dumps : Dumps) : ∀ state ∈ machine.session.objects,
      state.view (writeDumps hasModule files dumps machine.contents) = state.view machine.contents := by
  intro state member
  obtain ⟨_, elsewhere⟩ := store_fresh sound.accounts stored
  have names : (files.all.zip (dumps.written hasModule).all).map Prod.fst = files.all :=
    List.map_fst_zip (Nat.le_refl 5)
  apply view_congr
  intro path used
  have present := sound.complete state member path used
  have owned : path ∈ machine.session.objects.flatMap Stored.owned :=
    List.mem_flatMap.mpr ⟨state, member, List.mem_append_left _ (used_named used present)⟩
  rw [writeDumps, writeAll_other (names ▸ elsewhere path owned present)]

/-- A construction is one of the memory. -/
theorem construct_represents (plain : platform.env.Plain) (represents : Represents others machine memory)
    {hasModule : Bool} (dumps : Dumps)
    (performed : perform platform.env machine.session (.construct hasModule) = .ok session) :
    ∃ next after,
      (∀ fuel, machine.serve platform fuel (.construct hasModule dumps) = .ok next) ∧
      next.session = session ∧
      memory.serve diff platform.builtins (.construct hasModule dumps) = some after ∧
      Represents others next after := by
  have sound := perform_sound represents.sound performed
  have names := perform_names (created_plain plain) represents.sound represents.names performed
  obtain ⟨files, world, stored, same⟩ := performed_construct performed
  refine ⟨⟨session, writeDumps hasModule files dumps machine.contents, machine.log⟩,
    { memory with objects := ⟨hasModule, dumps.written hasModule⟩ :: memory.objects }, ?_, rfl, rfl,
    sound, names, ?_, represents.reports⟩
  · intro fuel
    simp only [Machine.serve, Request.operation, performed, same]
  · obtain ⟨distinct, _⟩ := store_fresh represents.sound.accounts stored
    have kept := List.map_congr_left (views_kept represents.sound stored dumps)
    simp only [same, List.map_cons, kept, represents.objects, Stored.view, read_writeDumps distinct]
    cases hasModule <;> rfl

/-- A destruction is one of the memory. -/
theorem destroy_represents (plain : platform.env.Plain) (represents : Represents others machine memory)
    {index : Nat} (performed : perform platform.env machine.session (.destroy index) = .ok session) :
    ∃ next after,
      (∀ fuel, machine.serve platform fuel (.destroy index) = .ok next) ∧
      next.session = session ∧
      memory.serve diff platform.builtins (.destroy index) = some after ∧
      Represents others next after := by
  have sound := perform_sound represents.sound performed
  have names := perform_names (created_plain plain) represents.sound represents.names performed
  obtain ⟨state, present, same⟩ := performed_destroy performed
  obtain ⟨inside, _⟩ := List.getElem?_eq_some_iff.mp present
  have there : index < memory.objects.length := by
    simpa [← represents.objects] using inside
  refine ⟨{ machine with session := session },
    { memory with objects := memory.objects.eraseIdx index }, ?_, rfl, if_pos there,
    sound, names, ?_, represents.reports⟩
  · intro fuel
    simp only [Machine.serve, Request.operation, performed]
  · simp only [same, ← represents.objects, List.eraseIdx_map]

/-- The checks of a comparison are ready. -/
theorem checks_ready (builtinsPlain : platform.builtins.Plain) {functions : List Function}
    (intrinsicsPlain : ∀ name ∈ intrinsics functions, PlainPattern name)
    (sound : Sound others session) (names : NamesOf PlainPath session)
    {hasModule : Bool} {mine current : Files} (contents : Bytes → Bytes)
    (compared : ∀ comparison ∈ comparisons hasModule mine current,
      (comparison, comparison.readable session.world) ∈ session.compared) :
    ∀ check ∈ checks platform.builtins functions hasModule mine current,
      Ready (onDisk session.world contents) check (contents check.1.file1) (contents check.1.file2) := by
  intro check member
  have listed : check.1 ∈ comparisons hasModule mine current := by
    rw [← checks_comparisons platform.builtins functions]
    exact List.mem_map_of_mem member
  have entry := compared _ listed
  have readable := sound.readable _ entry
  simp only [Comparison.readable, Bool.and_eq_true] at readable
  exact {
    patterns := checks_plain builtinsPlain intrinsicsPlain hasModule mine current check member
    first := (names.compared _ entry).1
    second := (names.compared _ entry).2
    before := if_pos readable.1
    after := if_pos readable.2 }

/-- A comparison is one of the memory. -/
theorem compare_represents (runs : Runs platform.shell diff) (plain : platform.env.Plain)
    (builtinsPlain : platform.builtins.Plain) (represents : Represents others machine memory)
    {index : Nat} (dumps : Dumps) {functions : List Function}
    (intrinsicsPlain : ∀ name ∈ intrinsics functions, PlainPattern name) (verbose : Bool)
    (performed : perform platform.env machine.session (.compare index) = .ok session) :
    ∃ next after,
      (∀ᶠ fuel in Filter.atTop,
        machine.serve platform fuel (.compare index dumps functions verbose) = .ok next) ∧
      next.session = session ∧
      memory.serve diff platform.builtins (.compare index dumps functions verbose) = some after ∧
      Represents others next after := by
  have sound := perform_sound represents.sound performed
  have names := perform_names (created_plain plain) represents.sound represents.names performed
  obtain ⟨state, current, world, present, stored, same⟩ := performed_compare performed
  obtain ⟨inside, atIndex⟩ := List.getElem?_eq_some_iff.mp present
  let contents := writeDumps state.hasModule current dumps machine.contents
  have compared : ∀ comparison ∈ comparisons state.hasModule state.files current,
      (comparison, comparison.readable session.world) ∈ session.compared := by
    intro comparison member
    rw [same]
    exact List.mem_append_right _ (List.mem_map_of_mem member)
  have ready := checks_ready builtinsPlain intrinsicsPlain sound names contents compared
  obtain ⟨logged, finished, types⟩ := logChecks_eventually runs platform.growth verbose contents ready
  have kept := views_kept represents.sound stored dumps
  obtain ⟨distinct, _⟩ := store_fresh represents.sound.accounts stored
  have snapshot : memory.objects[index]? = some (state.view contents) := by
    rw [← represents.objects, List.getElem?_map, present, Option.map_some,
      kept state (List.mem_of_getElem? present)]
  have changed : session.objects[index]? = some { state with diffPair := some current } := by
    rw [same]
    exact List.getElem?_set_self inside
  have meant : reported diff platform.builtins functions state.hasModule
      ((state.files.read contents).written state.hasModule) dumps = logged.filterMap LogEntry.type? := by
    rw [types, ← reported_read, read_writeDumps distinct, reported, checks_written]
    rfl
  refine ⟨⟨session, contents, machine.log ++ logged⟩,
    { memory with reports := memory.reports ++ logged.filterMap LogEntry.type? }, ?_, rfl, ?_,
    sound, names, ?_, ?_⟩
  · filter_upwards [finished] with fuel log
    simp only [Machine.serve, Request.operation, performed, changed]
    rw [log]
    rfl
  · rw [← meant]
    simp only [Memory.serve, snapshot, Option.map_some, Stored.view]
  · have views : session.objects.map (Stored.view contents) =
        machine.session.objects.map (Stored.view contents) := by
      have mapped : index < (machine.session.objects.map (Stored.view contents)).length := by
        simpa using inside
      have view : { state with diffPair := some current }.view contents =
          (machine.session.objects.map (Stored.view contents))[index] := by
        rw [List.getElem_map, atIndex]
        rfl
      rw [same, List.map_set, view, List.set_getElem_self]
    rw [views, List.map_congr_left kept, represents.objects]
  · rw [List.filterMap_append, represents.reports]

/-- Every operation that the files allow is one of the memory. -/
theorem serve_represents (runs : Runs platform.shell diff) (plain : platform.env.Plain)
    (builtinsPlain : platform.builtins.Plain) (represents : Represents others machine memory)
    {request : Request} (requestPlain : request.Plain)
    (performed : perform platform.env machine.session request.operation = .ok session) :
    ∃ next after,
      (∀ᶠ fuel in Filter.atTop, machine.serve platform fuel request = .ok next) ∧
      next.session = session ∧ memory.serve diff platform.builtins request = some after ∧
      Represents others next after := by
  cases request with
  | construct hasModule dumps =>
    obtain ⟨next, after, served, others⟩ := construct_represents plain represents dumps performed
    exact ⟨next, after, .of_forall served, others⟩
  | compare index dumps functions verbose =>
    exact compare_represents runs plain builtinsPlain represents dumps requestPlain verbose performed
  | destroy index =>
    obtain ⟨next, after, served, others⟩ := destroy_represents plain represents performed
    exact ⟨next, after, .of_forall served, others⟩

/-- Every sequence of operations that the files allow is one of the memory; the first fault ends
any other. -/
theorem serveAll_represents (runs : Runs platform.shell diff) (plain : platform.env.Plain)
    (builtinsPlain : platform.builtins.Plain) (represents : Represents others machine memory)
    {requests : List Request} (requestsPlain : ∀ request ∈ requests, request.Plain) :
    match performAll platform.env machine.session (requests.map Request.operation) with
    | .error fault =>
      ∀ᶠ fuel in Filter.atTop, machine.serveAll platform fuel requests = .error (.file fault)
    | .ok session => ∃ next after,
      (∀ᶠ fuel in Filter.atTop, machine.serveAll platform fuel requests = .ok next) ∧
      next.session = session ∧ memory.serveAll diff platform.builtins requests = some after ∧
      Represents others next after := by
  induction requests generalizing machine memory with
  | nil => exact ⟨machine, memory, .of_forall fun _ => rfl, rfl, rfl, represents⟩
  | cons request rest inductionHypothesis =>
    obtain ⟨requestPlain, restPlain⟩ := List.forall_mem_cons.mp requestsPlain
    rw [List.map_cons, performAll]
    cases performed : perform platform.env machine.session request.operation with
    | error fault =>
      refine .of_forall fun fuel => ?_
      simp only [Machine.serveAll, Machine.serve, performed]
      rfl
    | ok session =>
      obtain ⟨next, after, served, rfl, remembered, later⟩ :=
        serve_represents runs plain builtinsPlain represents requestPlain performed
      have following := inductionHypothesis later restPlain
      change match performAll platform.env next.session (rest.map Request.operation) with
        | .error fault => _
        | .ok session => _
      cases performedRest : performAll platform.env next.session (rest.map Request.operation) with
      | error fault =>
        rw [performedRest] at following
        filter_upwards [served, following] with fuel first others
        rw [Machine.serveAll, first]
        exact others
      | ok session =>
        rw [performedRest] at following
        obtain ⟨last, final, finished, sameSession, rememberedRest, represented⟩ := following
        refine ⟨last, final, ?_, sameSession, ?_, represented⟩
        · filter_upwards [served, finished] with fuel first others
          rw [Machine.serveAll, first]
          exact others
        · rw [Memory.serveAll, remembered]
          exact rememberedRest

end Simulation

/-- At the beginning there is no object and no report. -/
theorem initial_represents {others : List Bytes} (distinct : others.Nodup) (contents : Bytes → Bytes) :
    Represents others (.initial others contents) ⟨[], []⟩ where
  sound := initial_sound distinct
  names := ⟨by simp [Machine.initial, Session.initial], by simp [Machine.initial, Session.initial]⟩
  objects := rfl
  reports := rfl

/-- Over any sequence of constructions, comparisons and destructions the files, the shell and
`diff` implement the memory: with enough fuel a sequence that the files allow is one of the
memory, and the log has exactly the reports of the memory. Any other sequence ends with the
fault of a file. -/
theorem comparisons_refine (platform : Platform) (diff : Diff) (runs : Runs platform.shell diff)
    (plain : platform.env.Plain) (builtinsPlain : platform.builtins.Plain) {others : List Bytes}
    (distinct : others.Nodup) (contents : Bytes → Bytes) (requests : List Request)
    (requestsPlain : ∀ request ∈ requests, request.Plain) :
    match performAll platform.env (.initial others) (requests.map Request.operation) with
    | .error fault => ∀ᶠ fuel in Filter.atTop,
      (Machine.initial others contents).serveAll platform fuel requests = .error (.file fault)
    | .ok session => ∃ machine memory,
      (∀ᶠ fuel in Filter.atTop,
        (Machine.initial others contents).serveAll platform fuel requests = .ok machine) ∧
      machine.session = session ∧
      Memory.serveAll diff platform.builtins ⟨[], []⟩ requests = some memory ∧
      machine.log.filterMap LogEntry.type? = memory.reports := by
  have whole := serveAll_represents runs plain builtinsPlain (initial_represents distinct contents)
    requestsPlain
  dsimp only [Machine.initial] at whole ⊢
  cases performed : performAll platform.env (.initial others) (requests.map Request.operation) with
  | error fault => simpa only [performed] using whole
  | ok session =>
    rw [performed] at whole
    obtain ⟨machine, memory, finished, sameSession, remembered, represented⟩ := whole
    exact ⟨machine, memory, finished, sameSession, remembered, represented.reports⟩

/-- A `diff` without patterns, which compares the last two of its arguments. -/
def wholeDiff : Diff where
  output disk args :=
    match args.reverse with
    | file2 :: file1 :: _ => if disk file1 = disk file2 then [] else text "--- " ++ file1 ++ text "\n"
    | _ => []
  differs _ before after := before ≠ after
  speaks := by
    intro disk patterns file1 file2 before after _ _ first second
    by_cases same : before = after <;> simp [diffArguments, first, second, same, text]
  same := by simp
  different := by simp

/-- A shell that knows `diff`. -/
def diffShell (diff : Diff) (disk : Bytes → Option Bytes) (line : Bytes) : Option Bytes :=
  match words posix line with
  | some (name :: args) => if name = text "diff" then some (diff.output disk args) else none
  | _ => none

/-- A platform with two builtin functions. -/
def smallPlatform : Platform where
  env := counter
  growth := Popen.doubling
  shell := diffShell wholeDiff
  builtins := ⟨[text "__builtin_abs"], [text "_mm_pause"]⟩

/-- Its shell runs `diff`. -/
theorem smallPlatform_runs : Runs smallPlatform.shell wholeDiff := by
  intro disk line args split_
  simp [smallPlatform, diffShell, split_]

/-- Its directory and its time are plain. -/
theorem smallPlatform_plain : smallPlatform.env.Plain := by
  have bare : Bare posix (text "/tmp") ∧ Bare posix (text "12_00_00") := by
    unfold Bare
    decide +kernel
  exact ⟨⟨by decide +kernel, bare.1⟩, fun _ => bare.2⟩

/-- So are the names of its builtin functions. -/
theorem smallPlatform_builtins : smallPlatform.builtins.Plain := by
  unfold Builtins.Plain
  decide +kernel

/-- The dumps of a small program. -/
def smallDumps : Dumps :=
  ⟨text "f\n", text "Parsed:\n a.h\n", text "void f();\n", text "declare void @f()\n",
    text "Ordered Alphabetically:\n"⟩

/-- A comparison with an unchanged compiler reports nothing. -/
theorem unchanged_compares : ∃ machine : Machine,
    (∀ᶠ fuel in Filter.atTop,
      (Machine.initial [text "/tmp/a"] fun _ => []).serveAll smallPlatform fuel
        [.construct true smallDumps,
          .compare 0 smallDumps [⟨text "f", false⟩, ⟨text "llvm.memcpy", true⟩] true, .destroy 0] =
        .ok machine) ∧
      machine.log.filterMap LogEntry.type? = [] := by
  have requestsPlain : ∀ request ∈ [Request.construct true smallDumps,
      .compare 0 smallDumps [⟨text "f", false⟩, ⟨text "llvm.memcpy", true⟩] true, .destroy 0],
      request.Plain := by
    have names : ∀ name ∈ intrinsics [⟨text "f", false⟩, ⟨text "llvm.memcpy", true⟩],
        PlainPattern name := by decide +kernel
    simpa [Request.Plain] using names
  have whole := comparisons_refine smallPlatform wholeDiff smallPlatform_runs smallPlatform_plain
    smallPlatform_builtins (List.nodup_singleton (text "/tmp/a")) (fun _ => []) _ requestsPlain
  have allowed : (performAll smallPlatform.env (.initial [text "/tmp/a"])
      [.construct true, .compare 0, .destroy 0]).toOption.isSome = true := by
    decide +kernel
  have remembered : Memory.serveAll wholeDiff smallPlatform.builtins ⟨[], []⟩
      [.construct true smallDumps,
        .compare 0 smallDumps [⟨text "f", false⟩, ⟨text "llvm.memcpy", true⟩] true, .destroy 0] =
      some ⟨[], []⟩ := by
    decide +kernel
  simp only [List.map_cons, List.map_nil, Request.operation] at whole
  cases performed : performAll smallPlatform.env (.initial [text "/tmp/a"])
      [.construct true, .compare 0, .destroy 0] with
  | error fault => simp [performed, Except.toOption] at allowed
  | ok session =>
    rw [performed] at whole
    obtain ⟨machine, memory, finished, _, same, types⟩ := whole
    obtain rfl : _ = memory := Option.some.inj (remembered.symm.trans same)
    exact ⟨machine, finished, types⟩

/-- Present dumps like those of the construction are not reported. -/
theorem unchanged_unreported (diff : Diff) (builtins : Builtins) (functions : List Function)
    (hasModule : Bool) (dumps : Dumps) :
    reported diff builtins functions hasModule (dumps.written hasModule) dumps = [] := by
  rw [reported, checks_written, List.map_eq_nil_iff, List.filter_eq_nil_iff]
  cases hasModule <;> simp [checks, Dumps.written, diff.same]

/-- The dumps that are compared without patterns are reported exactly when they change. -/
theorem changed_reported_iff (diff : Diff) (builtins : Builtins) (functions : List Function)
    (hasModule : Bool) (before after : Dumps) :
    (text "AST" ∈ reported diff builtins functions hasModule before after ↔ before.ast ≠ after.ast) ∧
      (text "Macro Definitions" ∈ reported diff builtins functions hasModule before after ↔
        before.macros ≠ after.macros) := by
  have differs : ∀ first second, diff.differs [] first second = true ↔ first ≠ second := by
    refine fun first second => ⟨?_, diff.different first second⟩
    rintro differ rfl
    simp [diff.same] at differ
  have names : [text "lookup tables", text "included files", text "llvm Module", text "AST",
      text "Macro Definitions"].Nodup := by decide +kernel
  simp only [List.nodup_cons, List.mem_cons, List.not_mem_nil, not_or] at names
  have apart : text "Macro Definitions" ≠ text "AST" := by decide +kernel
  have listed : ∀ type, type ∈ reported diff builtins functions hasModule before after ↔
      ∃ check ∈ checks builtins functions hasModule before after,
        diff.differs (patterns check.2) check.1.file1 check.1.file2 = true ∧ check.1.type = type := by
    intro type
    simp only [reported, List.mem_map, List.mem_filter, and_assoc]
  rw [listed, listed]
  cases hasModule <;> simp [checks, patterns, differs, names, apart]

end CppInterpreter.ClangInternalState
