import CppInterpreter.IncludedFiles
import CppInterpreter.StateComparisons

/-!
# What is dumped

The dumps of included files and of macro definitions are made by the program itself; the
others are printed by the compiler. The included files are sorted, whatever the order in
which the source manager enumerates them. The macro definitions are sorted too, but
the call that would print them is commented out: nothing is ever listed.

So a reordering of the files is reported by no comparison, and a macro definition by none
at all.
-/

namespace CppInterpreter.ClangInternalState

open Bytes

/-- The lines that `std::getline` reads from a stream. The rest behind the last newline is a
line only if it is not empty. -/
def getlines (contents : Bytes) : List Bytes :=
  let pieces := contents.splitOn '\n'.toUInt8
  if pieces.getLast? = some [] then pieces.dropLast else pieces

/-- What `printMacros` has written into `contentsOS`: the call is commented out. -/
def contentsOS : Bytes := []

/-- `printMacroDefinitions`. -/
def printMacroDefinitions : Bytes :=
  text "Ordered Alphabetically:\n" ++ (sort (getlines contentsOS)).flatMap (· ++ text "\n")

/-- The internals of the compiler at some time: the texts that it prints itself, the files
that the source manager enumerates, and the functions of the module. -/
structure Internals where
  lookupTables : Bytes
  fileInfos : List FileInfo
  ast : Bytes
  llvmModule : Bytes
  functions : List Function
deriving DecidableEq, Repr

/-- The dumps that `store` makes. -/
def Internals.dumps (internals : Internals) : Dumps where
  lookupTables := internals.lookupTables
  included := printIncludedFiles internals.fileInfos
  ast := internals.ast
  llvmModule := internals.llvmModule
  macros := printMacroDefinitions

/-- An operation, with the internals at that time. -/
inductive Command where
  | construct (hasModule : Bool) (internals : Internals)
  | compare (index : Nat) (internals : Internals) (verbose : Bool)
  | destroy (index : Nat)
deriving DecidableEq, Repr

/-- The dumps are made from the internals. -/
def Command.request : Command → Request
  | .construct hasModule internals => .construct hasModule internals.dumps
  | .compare index internals verbose => .compare index internals.dumps internals.functions verbose
  | .destroy index => .destroy index

/-- The internals that an operation reads. -/
def Command.internals : Command → List Internals
  | .construct _ internals | .compare _ internals _ => [internals]
  | .destroy _ => []

/-- The dumps that a request brings. -/
def Request.dumps : Request → List Dumps
  | .construct _ dumps | .compare _ dumps _ _ => [dumps]
  | .destroy _ => []

/-- A dump is the same text in all objects, and it has not been reported. -/
structure Silent (dump : Dumps → Bytes) (type content : Bytes) (memory : Memory) : Prop where
  objects : ∀ snapshot ∈ memory.objects, dump snapshot.dumps = content
  reports : type ∉ memory.reports

/-- The dump of the files does not depend on their order. -/
theorem printIncludedFiles_eq {infos others : List FileInfo} (same : infos.Perm others) :
    printIncludedFiles infos = printIncludedFiles others := by
  simp only [printIncludedFiles, collect_eq, List.nil_append]
  rw [dumpFiles_eq (text "Parsed") (listedNames_perm true same),
    dumpFiles_eq (text "From AST file") (listedNames_perm false same)]

section Silence

variable {diff : Diff} {builtins : Builtins} {memory after : Memory}

/-- A dump that is made in any case, and reported only where its texts differ. -/
structure Compares (dump : Dumps → Bytes) (type : Bytes) : Prop where
  written : ∀ hasModule dumps, dump (Dumps.written hasModule dumps) = dump dumps
  differ : ∀ (diff : Diff) (builtins : Builtins) (functions : List Function) (hasModule : Bool)
    (first second : Dumps),
    type ∈ reported diff builtins functions hasModule first second → dump first ≠ dump second

/-- A reported type is that of a check whose texts differ. -/
theorem mem_reported {functions : List Function} {hasModule : Bool} {first second : Dumps}
    {type : Bytes} (listed : type ∈ reported diff builtins functions hasModule first second) :
    ∃ check ∈ checks builtins functions hasModule first second,
      check.1.type = type ∧ check.1.file1 ≠ check.1.file2 := by
  obtain ⟨check, member, rfl⟩ := List.mem_map.mp listed
  obtain ⟨isCheck, differs⟩ := List.mem_filter.mp member
  refine ⟨check, isCheck, rfl, fun same => ?_⟩
  simp [same, diff.same] at differs

/-- Whether the texts of a check differ is decided by its type. -/
theorem check_texts {functions : List Function} {hasModule : Bool} {first second : Dumps}
    {check : Comparison × Option (List Bytes)}
    (member : check ∈ checks builtins functions hasModule first second) :
    (check.1.type = text "included files" →
      check.1.file1 = first.included ∧ check.1.file2 = second.included) ∧
    (check.1.type = text "Macro Definitions" →
      check.1.file1 = first.macros ∧ check.1.file2 = second.macros) := by
  have names : [text "lookup tables", text "AST", text "llvm Module", text "included files",
      text "Macro Definitions"].Nodup := by decide +kernel
  simp only [List.nodup_cons, List.mem_cons, List.not_mem_nil, not_or] at names
  have apart : text "Macro Definitions" ≠ text "included files" := by decide +kernel
  have listed : check.1 ∈ comparisons hasModule first second := by
    rw [← checks_comparisons builtins functions]
    exact List.mem_map_of_mem member
  cases hasModule with
  | false =>
    simp only [comparisons, Bool.false_eq_true, ↓reduceIte, List.append_nil, List.cons_append,
      List.nil_append, List.mem_cons, List.not_mem_nil, or_false] at listed
    rcases listed with same | same | same | same <;> simp [same, names, apart]
  | true =>
    simp only [comparisons, ↓reduceIte, List.cons_append, List.nil_append, List.mem_cons,
      List.not_mem_nil, or_false] at listed
    rcases listed with same | same | same | same | same <;> simp [same, names, apart]

/-- The included files are. -/
theorem compares_included : Compares Files.included (text "included files") where
  written _ _ := rfl
  differ diff builtins functions hasModule first second listed := by
    obtain ⟨check, member, type, differ⟩ := mem_reported listed
    obtain ⟨one, two⟩ := (check_texts member).1 type
    rwa [one, two] at differ

/-- So are the macro definitions. -/
theorem compares_macros : Compares Files.macros (text "Macro Definitions") where
  written _ _ := rfl
  differ diff builtins functions hasModule first second listed := by
    obtain ⟨check, member, type, differ⟩ := mem_reported listed
    obtain ⟨one, two⟩ := (check_texts member).2 type
    rwa [one, two] at differ

/-- A request that brings the same text again is not reported. -/
theorem serve_silent {dump : Dumps → Bytes} {type content : Bytes} (compares : Compares dump type)
    {request : Request} (same : ∀ dumps ∈ request.dumps, dump dumps = content)
    (silent : Silent dump type content memory)
    (served : memory.serve diff builtins request = some after) : Silent dump type content after := by
  cases request with
  | construct hasModule dumps =>
    obtain rfl := Option.some.inj served
    refine ⟨List.forall_mem_cons.mpr ⟨?_, silent.objects⟩, silent.reports⟩
    rw [compares.written]
    exact same dumps List.mem_cons_self
  | compare index dumps functions verbose =>
    obtain ⟨snapshot, present, rfl⟩ := Option.map_eq_some_iff.mp served
    refine ⟨silent.objects, fun listed => ?_⟩
    rcases List.mem_append.mp listed with old | new
    · exact silent.reports old
    · refine compares.differ _ _ _ _ _ _ new ?_
      rw [silent.objects snapshot (List.mem_of_getElem? present), same dumps List.mem_cons_self]
  | destroy index =>
    simp only [Memory.serve] at served
    split at served
    · obtain rfl := Option.some.inj served
      exact ⟨fun snapshot member => silent.objects snapshot (List.mem_of_mem_eraseIdx member),
        silent.reports⟩
    · cases served

/-- A dump that is always the same text is never reported. -/
theorem serveAll_silent {dump : Dumps → Bytes} {type content : Bytes} (compares : Compares dump type)
    {requests : List Request}
    (same : ∀ request ∈ requests, ∀ dumps ∈ request.dumps, dump dumps = content)
    (silent : Silent dump type content memory)
    (served : memory.serveAll diff builtins requests = some after) : Silent dump type content after := by
  induction requests generalizing memory with
  | nil => exact Option.some.inj served ▸ silent
  | cons request rest inductionHypothesis =>
    obtain ⟨here, later⟩ := List.forall_mem_cons.mp same
    obtain ⟨middle, first, others⟩ := Option.bind_eq_some_iff.mp served
    exact inductionHypothesis later (serve_silent compares here silent first) others

end Silence

/-- The dumps of a command are made from its internals. -/
theorem request_dumps (command : Command) :
    command.request.dumps = command.internals.map Internals.dumps := by
  cases command <;> rfl

/-- Whatever a program constructs, compares and destroys, no comparison reports a difference
of macro definitions. If the source manager enumerates the same files all the time, in
whatever order, none reports a difference of included files. -/
theorem dead_comparisons (platform : Platform) (diff : Diff) (runs : Runs platform.shell diff)
    (plain : platform.env.Plain) (builtinsPlain : platform.builtins.Plain) {others : List Bytes}
    (distinct : others.Nodup) (contents : Bytes → Bytes) (commands : List Command)
    (commandsPlain : ∀ command ∈ commands, command.request.Plain) {session : Session}
    (allowed : performAll platform.env (.initial others)
      ((commands.map Command.request).map Request.operation) = .ok session) :
    ∃ machine,
      (∀ᶠ fuel in Filter.atTop, (Machine.initial others contents).serveAll platform fuel
        (commands.map Command.request) = .ok machine) ∧
      text "Macro Definitions" ∉ machine.log.filterMap LogEntry.type? ∧
      ∀ infos, (∀ internals ∈ commands.flatMap Command.internals, internals.fileInfos.Perm infos) →
        text "included files" ∉ machine.log.filterMap LogEntry.type? := by
  have requestsPlain : ∀ request ∈ commands.map Command.request, request.Plain :=
    List.forall_mem_map.mpr commandsPlain
  have whole := serveAll_represents runs plain builtinsPlain (initial_represents distinct contents)
    requestsPlain
  dsimp only [Machine.initial] at whole ⊢
  rw [allowed] at whole
  obtain ⟨machine, memory, finished, _, remembered, represented⟩ := whole
  have dumped : ∀ request ∈ commands.map Command.request, ∀ dumps ∈ request.dumps,
      ∃ internals ∈ commands.flatMap Command.internals, dumps = internals.dumps := by
    intro request member dumps brought
    obtain ⟨command, listed, rfl⟩ := List.mem_map.mp member
    rw [request_dumps] at brought
    obtain ⟨internals, read, rfl⟩ := List.mem_map.mp brought
    exact ⟨internals, List.mem_flatMap.mpr ⟨command, listed, read⟩, rfl⟩
  refine ⟨machine, finished, ?_, fun infos same => ?_⟩
  · rw [represented.reports]
    have silent : Silent Files.macros (text "Macro Definitions") printMacroDefinitions ⟨[], []⟩ :=
      ⟨by simp, by simp⟩
    refine (serveAll_silent compares_macros ?_ silent remembered).reports
    intro request member dumps brought
    obtain ⟨internals, _, rfl⟩ := dumped request member dumps brought
    rfl
  · rw [represented.reports]
    have silent : Silent Files.included (text "included files") (printIncludedFiles infos) ⟨[], []⟩ :=
      ⟨by simp, by simp⟩
    refine (serveAll_silent compares_included ?_ silent remembered).reports
    intro request member dumps brought
    obtain ⟨internals, read, rfl⟩ := dumped request member dumps brought
    exact printIncludedFiles_eq (same internals read)

/-- The internals of a small program with two headers. -/
def twoHeaders (infos : List FileInfo) : Internals :=
  ⟨text "f\n", infos, text "void f();\n", text "declare void @f()\n", [⟨text "f", false⟩]⟩

/-- Two headers in another order are not reported. -/
theorem reordered_unreported : ∃ machine : Machine,
    (∀ᶠ fuel in Filter.atTop, (Machine.initial [] fun _ => []).serveAll smallPlatform fuel
      ([Command.construct true (twoHeaders [parsedHeader, importedHeader]),
        .compare 0 (twoHeaders [importedHeader, parsedHeader]) false].map Command.request) =
        .ok machine) ∧
      text "included files" ∉ machine.log.filterMap LogEntry.type? := by
  have commandsPlain : ∀ command ∈ [Command.construct true (twoHeaders [parsedHeader, importedHeader]),
      .compare 0 (twoHeaders [importedHeader, parsedHeader]) false], command.request.Plain := by
    simp [Command.request, Request.Plain, twoHeaders, intrinsics]
  have allowed : (performAll smallPlatform.env (.initial []) [.construct true, .compare 0]).toOption.isSome =
      true := by
    decide +kernel
  cases performed : performAll smallPlatform.env (.initial []) [.construct true, .compare 0] with
  | error fault => simp [performed, Except.toOption] at allowed
  | ok session =>
    obtain ⟨machine, finished, _, included⟩ := dead_comparisons smallPlatform wholeDiff
      smallPlatform_runs smallPlatform_plain smallPlatform_builtins List.nodup_nil (fun _ => []) _
      commandsPlain performed
    refine ⟨machine, finished, included [parsedHeader, importedHeader] ?_⟩
    simp [Command.internals, twoHeaders, List.Perm.swap]

end CppInterpreter.ClangInternalState
