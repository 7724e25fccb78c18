import CppInterpreter.FirstUse
import CppInterpreter.ModulePasses
import Mathlib.Data.List.Forall2

/-!
# The cached pass managers

`BackendPasses` keeps a module pass manager and a function pass manager for each of
four optimisation levels. A call clamps its level, creates the managers of the level if
the module pass manager is missing, and dereferences both. When LLVM's passes are
disabled, creation files the managers under level zero, whatever level was asked for.

A function pass manager stays bound to the module it was created for. The cache serves
it to every later module at its level.
-/

namespace CppInterpreter.BackendPasses

open Bytes

/-- `clang::CodeGenOptions`, as far as the passes are chosen by them. -/
structure CodeGenOptions where
  disableLLVMPasses : Bool
  optimizeSize : Nat
  unrollLoops : Bool
  mergeFunctions : Bool
  rerollLoops : Bool
  sampleProfileFile : Bytes
  prepareForThinLTO : Bool
  cudaGpuBinaryFileName : Bytes
  verifyModule : Bool
deriving DecidableEq, Repr

inductive Inliner where
  | alwaysInliner (insertLifetimeIntrinsics : Bool)
  | functionInlining (optLevel sizeOptLevel : Nat) (disableInlineHotCallSite : Bool)
deriving DecidableEq, Repr

/-- What is added to the passes of a builder: the adjustments of the target machine, and
the discriminators at `EP_EarlyAsPossible`. -/
inductive Extension where
  | adjustPassManager
  | addDiscriminators
deriving DecidableEq, Repr

/-- `llvm::PassManagerBuilder`. -/
structure PassManagerBuilder where
  optLevel : Nat
  sizeLevel : Nat
  slpVectorize : Bool
  loopVectorize : Bool
  disableUnrollLoops : Bool
  mergeFunctions : Bool
  rerollLoops : Bool
  inliner : Inliner
  extensions : List Extension
deriving DecidableEq, Repr

/-- A pass, or the passes of a builder, in a module pass manager. -/
inductive AddedModulePass where
  | own (pass : ModulePass)
  | uniqueCUDAStructorName
  | targetTransformInfoWrapper
  | populated (builder : PassManagerBuilder)
deriving DecidableEq, Repr

/-- A pass, or the passes of a builder, in a function pass manager. -/
inductive AddedFunctionPass where
  | targetTransformInfoWrapper
  | verifier
  | populated (builder : PassManagerBuilder)
deriving DecidableEq, Repr

/-- The address of a module in memory. -/
abbrev Address := Nat

/-- `llvm::legacy::FunctionPassManager`, bound to the module of its constructor. -/
structure FunctionPassManager where
  module : Address
  passes : List AddedFunctionPass
deriving DecidableEq, Repr

/-- `llvm::CodeGenOpt::Level`. -/
inductive CodeGenOptLevel where
  | None
  | Less
  | Default
  | Aggressive
deriving DecidableEq, Repr

/-- The two arrays of managers, and the level of the target machine. -/
structure State where
  pm : Fin 4 → Option (List AddedModulePass)
  fpm : Fin 4 → Option FunctionPassManager
  tmOptLevel : CodeGenOptLevel

/-- A dereference of an empty entry. -/
inductive NullDeref where
  | pm (level : Fin 4)
  | fpm (level : Fin 4)
deriving DecidableEq, Repr

/-- The work that the managers are asked to do. -/
inductive Event where
  | doInitialization (fpm : FunctionPassManager)
  | runFunction (fpm : FunctionPassManager) (f : Function)
  | doFinalization (fpm : FunctionPassManager)
  | runModule (pm : List AddedModulePass) (module : Address)
deriving DecidableEq, Repr

/-- A module passed to `runOnModule`, with the level asked for. -/
structure Call where
  address : Address
  module : Module
  optLevel : Int
deriving DecidableEq, Repr

/-- Both arrays start empty. -/
def empty (tmOptLevel : CodeGenOptLevel) : State := ⟨fun _ => none, fun _ => none, tmOptLevel⟩

/-- The builder that `CreatePasses` sets up. -/
def pmBuilder (opts : CodeGenOptions) (optLevel : Fin 4) : PassManagerBuilder where
  optLevel := optLevel
  sizeLevel := opts.optimizeSize
  slpVectorize := 1 < optLevel
  loopVectorize := 1 < optLevel
  disableUnrollLoops := !opts.unrollLoops
  mergeFunctions := opts.mergeFunctions
  rerollLoops := opts.rerollLoops
  inliner :=
    if optLevel ≤ 1 then .alwaysInliner (optLevel ≠ 0)
    else .functionInlining optLevel opts.optimizeSize
      (opts.sampleProfileFile ≠ [] && opts.prepareForThinLTO)
  extensions := [.adjustPassManager, .addDiscriminators]

/-- The level that `CreatePasses` works with, in a local copy. -/
def createdLevel (opts : CodeGenOptions) (optLevel : Fin 4) : Fin 4 :=
  if opts.disableLLVMPasses then 0 else optLevel

def createPasses (opts : CodeGenOptions) (module : Address) (optLevel : Fin 4) (state : State) :
    State :=
  let optLevel := createdLevel opts optLevel
  let builder := pmBuilder opts optLevel
  let pm := modulePasses.map .own ++
    (if opts.cudaGpuBinaryFileName ≠ [] then [.uniqueCUDAStructorName] else []) ++
    [.targetTransformInfoWrapper, .populated builder]
  let fpm := [.targetTransformInfoWrapper] ++ (if opts.verifyModule then [.verifier] else []) ++
    [.populated builder]
  { state with
    pm := Function.update state.pm optLevel (some pm)
    fpm := Function.update state.fpm optLevel (some ⟨module, fpm⟩) }

def clampLevel (optLevel : Int) : Fin 4 :=
  if optLevel < 0 then 0 else if optLevel > 3 then 3 else Fin.ofNat 4 optLevel.toNat

/-- The table `CGOptLevel`. -/
def cgOptLevel (optLevel : Fin 4) : CodeGenOptLevel :=
  match optLevel with
  | 0 => .None
  | 1 => .Less
  | 2 => .Default
  | 3 => .Aggressive

/-- `if (!pm_[opt_level]) CreatePasses(module, opt_level);` -/
def ensurePasses (opts : CodeGenOptions) (module : Address) (optLevel : Fin 4) (state : State) :
    State :=
  if (state.pm optLevel).isNone then createPasses opts module optLevel state else state

/-- The function pass manager works on each definition, the module pass manager on the
module. -/
def work (call : Call) (pm : List AddedModulePass) (fpm : FunctionPassManager) : List Event :=
  let defined := call.module.functions.filter fun f => !f.isDeclaration
  [.doInitialization fpm] ++ defined.map (.runFunction fpm) ++ [.doFinalization fpm] ++
    [.runModule pm call.address]

def runOnModule (opts : CodeGenOptions) (state : State) (call : Call) :
    Except NullDeref (State × List Event) :=
  let optLevel := clampLevel call.optLevel
  let created := ensurePasses opts call.address optLevel state
  let state := { created with tmOptLevel := cgOptLevel optLevel }
  match state.fpm optLevel, state.pm optLevel with
  | none, _ => .error (.fpm optLevel)
  | some _, none => .error (.pm optLevel)
  | some fpm, some pm => .ok (state, work call pm fpm)

/-- A sequence of calls, with the work of each. -/
def runCalls (opts : CodeGenOptions) : State → List Call → Except NullDeref (List (List Event))
  | _, [] => .ok []
  | state, call :: rest =>
    match runOnModule opts state call with
    | .error nullDeref => .error nullDeref
    | .ok (state, events) => (runCalls opts state rest).map (events :: ·)

/-- The modules to which the cached function pass managers are bound. -/
def bindings (state : State) (optLevel : Fin 4) : Option Address :=
  (state.fpm optLevel).map (·.module)

/-- The arrays are populated together, and only at levels under which creation files. -/
structure Consistent (opts : CodeGenOptions) (state : State) : Prop where
  paired : ∀ optLevel, (state.pm optLevel).isSome = (state.fpm optLevel).isSome
  created : ∀ optLevel, (state.pm optLevel).isSome = true → createdLevel opts optLevel = optLevel

/-- Empty arrays are consistent. -/
theorem empty_consistent (opts : CodeGenOptions) (tmOptLevel : CodeGenOptLevel) :
    Consistent opts (empty tmOptLevel) := by
  constructor <;> simp [empty]

section Ensure

variable {opts : CodeGenOptions} {state : State} {module : Address} {optLevel : Fin 4}

/-- Creation files a level under itself or under another such level. -/
theorem createdLevel_idem (opts : CodeGenOptions) (optLevel : Fin 4) :
    createdLevel opts (createdLevel opts optLevel) = createdLevel opts optLevel := by
  unfold createdLevel
  split <;> rfl

/-- An entry that is there stays as it is. -/
theorem ensure_present {pm : List AddedModulePass} (present : state.pm optLevel = some pm) :
    ensurePasses opts module optLevel state = state := by
  simp [ensurePasses, present]

/-- A missing entry is created. -/
theorem ensure_missing (missing : state.pm optLevel = none) :
    ensurePasses opts module optLevel state = createPasses opts module optLevel state := by
  simp [ensurePasses, missing]

/-- Where one array has no entry, neither has the other. -/
theorem unbound_of_missing (consistent : Consistent opts state) (missing : state.pm optLevel = none) :
    state.fpm optLevel = none := by
  have paired := consistent.paired optLevel
  simpa [missing] using paired.symm

/-- Creation keeps the arrays consistent. -/
theorem ensure_consistent (module : Address) (optLevel : Fin 4) (consistent : Consistent opts state) :
    Consistent opts (ensurePasses opts module optLevel state) := by
  cases entry : state.pm optLevel with
  | some pm => rwa [ensure_present entry]
  | none =>
    rw [ensure_missing entry]
    constructor
    · intro level
      by_cases same : level = createdLevel opts optLevel
      · simp [createPasses, same]
      · simp [createPasses, Function.update_of_ne same, consistent.paired]
    · intro level there
      by_cases same : level = createdLevel opts optLevel
      · rw [same, createdLevel_idem]
      · simp only [createPasses, Function.update_of_ne same] at there
        exact consistent.created level there

/-- At a level under which creation files, both arrays hold a manager afterwards, and
the function pass manager is bound to the module that the cache serves. -/
theorem ensure_populated (module : Address) (consistent : Consistent opts state)
    (filed : createdLevel opts optLevel = optLevel) :
    ∃ pm fpm, (ensurePasses opts module optLevel state).pm optLevel = some pm ∧
      (ensurePasses opts module optLevel state).fpm optLevel = some fpm ∧
      fpm.module = FirstUse.serve (bindings state) (optLevel, module) := by
  cases entry : state.pm optLevel with
  | some pm =>
    have paired := consistent.paired optLevel
    rw [entry] at paired
    obtain ⟨fpm, bound⟩ := Option.isSome_iff_exists.mp paired.symm
    rw [ensure_present entry]
    exact ⟨pm, fpm, entry, bound, by simp [FirstUse.serve, bindings, bound]⟩
  | none =>
    have unbound := unbound_of_missing consistent entry
    simp [ensure_missing entry, createPasses, filed, FirstUse.serve, bindings, unbound]

/-- The bindings change as those of a cache that keeps the first value. -/
theorem ensure_bindings (consistent : Consistent opts state)
    (filed : createdLevel opts optLevel = optLevel) :
    bindings (ensurePasses opts module optLevel state) =
      FirstUse.remember (bindings state) (optLevel, module) := by
  obtain ⟨pm, fpm, _, bound, serves⟩ := ensure_populated module consistent filed
  funext level
  by_cases same : level = optLevel
  · simp [FirstUse.remember, same, bindings, bound, serves]
  · have kept : (ensurePasses opts module optLevel state).fpm level = state.fpm level := by
      cases entry : state.pm optLevel with
      | some pm => rw [ensure_present entry]
      | none => simp [ensure_missing entry, createPasses, filed, Function.update_of_ne same]
    simp [FirstUse.remember, bindings, Function.update_of_ne same, kept]

/-- At any other level both entries stay empty. -/
theorem ensure_unpopulated (consistent : Consistent opts state)
    (elsewhere : createdLevel opts optLevel ≠ optLevel) :
    (ensurePasses opts module optLevel state).fpm optLevel = none := by
  have missing : state.pm optLevel = none := by
    cases entry : state.pm optLevel with
    | none => rfl
    | some pm => exact absurd (consistent.created optLevel (by simp [entry])) elsewhere
  rw [ensure_missing missing]
  simp [createPasses, Function.update_of_ne (Ne.symm elsewhere), unbound_of_missing consistent missing]

end Ensure

/-- The function pass manager that an event concerns. -/
def Event.manager : Event → Option FunctionPassManager
  | .doInitialization fpm | .runFunction fpm _ | .doFinalization fpm => some fpm
  | .runModule _ _ => none

/-- The function pass managers that do the work are bound to a module. -/
def BoundTo (owner : Address) (events : List Event) : Prop :=
  ∀ event ∈ events, ∀ fpm, event.manager = some fpm → fpm.module = owner

/-- The work of a call is bound to the module of its function pass manager. -/
theorem work_boundTo (call : Call) (pm : List AddedModulePass) (fpm : FunctionPassManager)
    (owner : Address) : BoundTo owner (work call pm fpm) ↔ fpm.module = owner := by
  constructor
  · intro bound
    exact bound (.doInitialization fpm) (by simp [work]) fpm rfl
  · rintro rfl event member other manages
    simp only [work, List.cons_append, List.nil_append, List.append_assoc, List.mem_cons,
      List.mem_append, List.mem_map, List.not_mem_nil, or_false] at member
    rcases member with rfl | ⟨f, _, rfl⟩ | rfl | rfl
    · simp_all [Event.manager]
    · simp_all [Event.manager]
    · simp_all [Event.manager]
    · simp [Event.manager] at manages

/-- A call as a request to the cache. -/
def request (call : Call) : Fin 4 × Address := (clampLevel call.optLevel, call.address)

section Step

variable {opts : CodeGenOptions} {state : State}

/-- A call at a level under which creation does not file meets an empty entry. -/
theorem runOnModule_elsewhere (consistent : Consistent opts state) {call : Call}
    (elsewhere : createdLevel opts (clampLevel call.optLevel) ≠ clampLevel call.optLevel) :
    runOnModule opts state call = .error (.fpm (clampLevel call.optLevel)) := by
  simp [runOnModule, ensure_unpopulated consistent elsewhere]

/-- Any other call finds both managers. They keep the arrays consistent, and the work
is bound to the module that the cache serves. -/
theorem runOnModule_filed (consistent : Consistent opts state) {call : Call}
    (filed : createdLevel opts (clampLevel call.optLevel) = clampLevel call.optLevel) :
    ∃ next events, runOnModule opts state call = .ok (next, events) ∧ Consistent opts next ∧
      bindings next = FirstUse.remember (bindings state) (request call) ∧
      ∀ owner, BoundTo owner events ↔ FirstUse.serve (bindings state) (request call) = owner := by
  obtain ⟨pm, fpm, there, bound, serves⟩ :=
    ensure_populated call.address consistent filed
  have kept := ensure_consistent call.address (clampLevel call.optLevel) consistent
  refine ⟨{ ensurePasses opts call.address (clampLevel call.optLevel) state with
    tmOptLevel := cgOptLevel (clampLevel call.optLevel) }, work call pm fpm, ?_, ?_, ?_, ?_⟩
  · simp only [runOnModule, there, bound]
  · exact ⟨kept.paired, kept.created⟩
  · exact ensure_bindings consistent filed
  · intro owner
    rw [work_boundTo, request, ← serves]

/-- Calls succeed exactly when each is at a level under which creation files. -/
theorem runCalls_ok_iff (consistent : Consistent opts state) (calls : List Call) :
    (∃ traces, runCalls opts state calls = .ok traces) ↔
      ∀ call ∈ calls, createdLevel opts (clampLevel call.optLevel) = clampLevel call.optLevel := by
  induction calls generalizing state with
  | nil => simp [runCalls]
  | cons call rest inductionHypothesis =>
    rw [List.forall_mem_cons]
    by_cases filed : createdLevel opts (clampLevel call.optLevel) = clampLevel call.optLevel
    · obtain ⟨next, events, ran, kept, _⟩ := runOnModule_filed consistent filed
      rw [← inductionHypothesis kept, and_iff_right filed]
      cases later : runCalls opts next rest <;> simp [runCalls, ran, later, Except.map]
    · simp [runCalls, runOnModule_elsewhere consistent filed, filed]

/-- The work of successful calls is bound to their own modules exactly when the cache
serves them faithfully. -/
theorem runCalls_bound_iff (consistent : Consistent opts state) (calls : List Call)
    (filed : ∀ call ∈ calls, createdLevel opts (clampLevel call.optLevel) = clampLevel call.optLevel) :
    (∃ traces, runCalls opts state calls = .ok traces ∧
      List.Forall₂ (fun call events => BoundTo call.address events) calls traces) ↔
    FirstUse.Faithful (bindings state) (calls.map request) := by
  induction calls generalizing state with
  | nil => simp [runCalls, FirstUse.Faithful]
  | cons call rest inductionHypothesis =>
    rw [List.forall_mem_cons] at filed
    obtain ⟨next, events, ran, kept, bindings_, bound⟩ := runOnModule_filed consistent filed.1
    rw [List.map_cons, FirstUse.Faithful, ← bindings_, ← inductionHypothesis kept filed.2,
      show (request call).2 = call.address from rfl, ← bound]
    cases later : runCalls opts next rest <;> simp [runCalls, ran, later, Except.map]

end Step

/-- The clamp gives level zero to the levels that are not positive. -/
theorem clampLevel_eq_zero_iff (optLevel : Int) : clampLevel optLevel = 0 ↔ optLevel ≤ 0 := by
  unfold clampLevel
  split_ifs with negative large
  · simp only [true_iff]
    omega
  · refine iff_of_false (by decide) ?_
    omega
  · have cases_ : optLevel = 0 ∨ optLevel = 1 ∨ optLevel = 2 ∨ optLevel = 3 := by omega
    rcases cases_ with rfl | rfl | rfl | rfl <;> decide

/-- Creation files the levels under themselves that it need not change. -/
theorem filed_iff (opts : CodeGenOptions) (optLevel : Int) :
    createdLevel opts (clampLevel optLevel) = clampLevel optLevel ↔
      opts.disableLLVMPasses = false ∨ optLevel ≤ 0 := by
  unfold createdLevel
  cases opts.disableLLVMPasses with
  | false => simp
  | true =>
    rw [if_pos rfl, eq_comm, clampLevel_eq_zero_iff]
    simp

/-- Starting from empty arrays, no call of a sequence meets an empty entry exactly when
LLVM's passes are enabled or no call asks for a positive level. -/
theorem calls_populated_iff (opts : CodeGenOptions) (tmOptLevel : CodeGenOptLevel)
    (calls : List Call) :
    (∃ traces, runCalls opts (empty tmOptLevel) calls = .ok traces) ↔
      opts.disableLLVMPasses = false ∨ ∀ call ∈ calls, call.optLevel ≤ 0 := by
  rw [runCalls_ok_iff (empty_consistent opts tmOptLevel)]
  simp only [filed_iff]
  cases opts.disableLLVMPasses <;> simp

/-- The options of a run without LLVM's passes. -/
def disabledPasses : CodeGenOptions := ⟨true, 0, false, false, false, [], false, [], false⟩

/-- A call for an empty module at level two. -/
def levelTwo (address : Address) : Call := ⟨address, ⟨[], []⟩, 2⟩

/-- Without LLVM's passes the first call at level two meets an empty entry. -/
theorem disabled_level_unpopulated :
    runCalls disabledPasses (empty .None) [levelTwo 8] = .error (.fpm 2) ∧
      ¬ ∃ traces, runCalls disabledPasses (empty .None) [levelTwo 8] = .ok traces := by
  have failed : runCalls disabledPasses (empty .None) [levelTwo 8] = .error (.fpm 2) := rfl
  refine ⟨failed, ?_⟩
  rintro ⟨traces, succeeded⟩
  rw [failed] at succeeded
  cases succeeded

/-- With LLVM's passes enabled, the function pass manager of every call is bound to the
module of that call exactly when calls at one clamped level are for one module. -/
theorem calls_bound_iff (opts : CodeGenOptions) (enabled : opts.disableLLVMPasses = false)
    (tmOptLevel : CodeGenOptLevel) (calls : List Call) :
    (∃ traces, runCalls opts (empty tmOptLevel) calls = .ok traces ∧
      List.Forall₂ (fun call events => BoundTo call.address events) calls traces) ↔
    calls.Pairwise fun earlier later =>
      clampLevel earlier.optLevel = clampLevel later.optLevel → earlier.address = later.address := by
  rw [runCalls_bound_iff (empty_consistent opts tmOptLevel) calls
    fun call _ => (filed_iff opts call.optLevel).mpr (.inl enabled), FirstUse.faithful_iff,
    List.pairwise_map]
  simp [bindings, empty, request]

/-- The options of an ordinary run. -/
def enabledPasses : CodeGenOptions := ⟨false, 0, true, false, false, [], false, [], true⟩

/-- The equivalence for one module that is optimised twice. -/
theorem one_module_bound :
    (∃ traces, runCalls enabledPasses (empty .None) [levelTwo 8, levelTwo 8] = .ok traces ∧
      List.Forall₂ (fun call events => BoundTo call.address events)
        [levelTwo 8, levelTwo 8] traces) ↔
    [levelTwo 8, levelTwo 8].Pairwise fun earlier later =>
      clampLevel earlier.optLevel = clampLevel later.optLevel → earlier.address = later.address :=
  calls_bound_iff enabledPasses rfl .None [levelTwo 8, levelTwo 8]

/-- Two modules at one level: the work on the second is bound to the first. -/
theorem second_module_unbound :
    ¬ ∃ traces, runCalls enabledPasses (empty .None) [levelTwo 8, levelTwo 16] = .ok traces ∧
      List.Forall₂ (fun call events => BoundTo call.address events)
        [levelTwo 8, levelTwo 16] traces := by
  rw [runCalls_bound_iff (empty_consistent enabledPasses .None) _ (by decide), FirstUse.faithful_iff]
  rintro ⟨_, agree⟩
  simp [request, levelTwo] at agree

end CppInterpreter.BackendPasses
