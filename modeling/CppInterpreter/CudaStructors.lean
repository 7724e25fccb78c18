import CppInterpreter.GlobalValues
import CppInterpreter.Sweeps
import Mathlib.Data.List.Forall2
import Mathlib.Data.List.Nodup

/-!
# Unique names for CUDA structors

Every CUDA module brings constructor, destructor and registration functions and two
variables under fixed names. The pass appends the name of the module to each and
replaces what is no letter, digit, underscore or period by an underscore, so that
symbols of later modules can be told apart.

The names of a module share one symbol table. A value that is given a name which another
one has gets a text behind it that makes it unique.
-/

namespace CppInterpreter

open Bytes Sweeps

/-- A module with its name and the names of its aliases and indirect functions. -/
structure NamedModule extends Module where
  name : Bytes
  otherNames : List Bytes
deriving DecidableEq, Repr

/-- The names in the symbol table of a module; unnamed values are not in it. -/
def NamedModule.symbolTable (module : NamedModule) : List Bytes :=
  (module.functions.map (·.name) ++ module.globals.map (·.name)).filter (· ≠ []) ++ module.otherNames

/-- A module whose symbol table holds each name once. -/
structure WellNamed extends NamedModule where
  distinct : toNamedModule.symbolTable.Nodup

namespace UniqueCUDAStructorName

variable {δ : Type}

/-- `clang::isPreprocessingNumberBody`: `[a-zA-Z0-9._]`. -/
def isPreprocessingNumberBody (ch : UInt8) : Bool :=
  ('a'.toUInt8 ≤ ch && ch ≤ 'z'.toUInt8) || ('A'.toUInt8 ≤ ch && ch ≤ 'Z'.toUInt8) ||
    ('0'.toUInt8 ≤ ch && ch ≤ '9'.toUInt8) || ch = '.'.toUInt8 || ch = '_'.toUInt8

/-- What the loop of `add_module_suffix` leaves of a byte. -/
def replaceByte (ch : UInt8) : UInt8 := if !isPreprocessingNumberBody ch then '_'.toUInt8 else ch

def addModuleSuffix (symbolName moduleName : Bytes) : Bytes :=
  (symbolName ++ text "_" ++ moduleName).map replaceByte

/-- The texts that LLVM appends to names that are taken: a number, after a period on most
targets. It counts on, so the text depends on the name that is asked for. -/
structure CloneText where
  of : Bytes → Bytes
  body : ∀ name, ∀ ch ∈ of name, isPreprocessingNumberBody ch = true

/-- `llvm::Value::setName`: the value gives up its name, and takes the new one with a text
behind it if another value has that name already. -/
def setName (clone : CloneText) (table : List Bytes) (gv : GlobalValue δ) (name : Bytes) :
    GlobalValue δ × List Bytes :=
  let others := table.erase gv.name
  let unique := if others.contains name then name ++ clone.of name else name
  ({ gv with name := unique }, unique :: others)

def runOnGlobal (clone : CloneText) (moduleName : Bytes) (table : List Bytes) (gv : GlobalVariable) :
    Bool × GlobalVariable × List Bytes :=
  if gv.isDeclaration then (false, gv, table)
  else if !gv.hasName then (false, gv, table)
  else if gv.name = text "__cuda_fatbin_wrapper" || gv.name = text "__cuda_gpubin_handle" then
    (true, setName clone table gv (addModuleSuffix gv.name moduleName))
  else (false, gv, table)

/-- Unlike a variable, a function is renamed when it is only declared, too. -/
def runOnFunction (clone : CloneText) (moduleName : Bytes) (table : List Bytes) (f : Function) :
    Bool × Function × List Bytes :=
  if f.hasName && (f.name = text "__cuda_module_ctor" || f.name = text "__cuda_module_dtor" ||
      f.name = text "__cuda_register_globals") then
    (true, setName clone table f (addModuleSuffix f.name moduleName))
  else (false, f, table)

def runOnModule (clone : CloneText) (m : NamedModule) : Bool × NamedModule :=
  let (changed, functions, table) := thread (runOnFunction clone m.name) m.symbolTable m.functions
  let (ret, globals, _) := thread (runOnGlobal clone m.name) table m.globals
  (changed || ret, { m with functions := functions, globals := globals })

/-- The functions that are renamed. -/
def functionStructors : List Bytes :=
  [text "__cuda_module_ctor", text "__cuda_module_dtor", text "__cuda_register_globals"]

/-- The variables that are renamed. -/
def variableStructors : List Bytes := [text "__cuda_fatbin_wrapper", text "__cuda_gpubin_handle"]

/-- All names that the pass looks for. -/
def structors : List Bytes := functionStructors ++ variableStructors

/-- Whether a function is renamed. -/
def isStructorFunction (f : Function) : Bool := functionStructors.contains f.name

/-- Whether a variable is renamed. -/
def isStructorVariable (gv : GlobalVariable) : Bool :=
  !gv.isDeclaration && variableStructors.contains gv.name

/-- Give a new name to the values of a class, and leave the others alone. -/
def renameIf (renames : GlobalValue δ → Bool) (clone : CloneText) (moduleName : Bytes)
    (table : List Bytes) (gv : GlobalValue δ) : Bool × GlobalValue δ × List Bytes :=
  if renames gv then (true, setName clone table gv (addModuleSuffix gv.name moduleName))
  else (false, gv, table)

/-- The names that the pass looks for are not empty. -/
theorem structors_named : ∀ symbol ∈ structors, symbol ≠ [] := by decide

/-- The pass renames functions by their name alone. -/
theorem runOnFunction_eq (clone : CloneText) (moduleName : Bytes) :
    runOnFunction clone moduleName = renameIf isStructorFunction clone moduleName := by
  funext table f
  by_cases named : f.hasName = true
  · simp [runOnFunction, renameIf, isStructorFunction, functionStructors, named, or_assoc]
  · have unnamed : f.name = [] := by simpa [GlobalValue.hasName] using named
    have ordinary : ([] : Bytes) ∉ functionStructors := by decide
    simp [runOnFunction, renameIf, isStructorFunction, named, unnamed, ordinary]

/-- The pass renames the defined variables with one of two names. -/
theorem runOnGlobal_eq (clone : CloneText) (moduleName : Bytes) :
    runOnGlobal clone moduleName = renameIf isStructorVariable clone moduleName := by
  funext table gv
  cases declared : gv.isDeclaration with
  | true => simp [runOnGlobal, renameIf, isStructorVariable, declared]
  | false =>
    by_cases named : gv.hasName = true
    · simp [runOnGlobal, renameIf, isStructorVariable, variableStructors, declared, named]
    · have unnamed : gv.name = [] := by simpa [GlobalValue.hasName] using named
      have ordinary : ([] : Bytes) ∉ variableStructors := by decide
      simp [runOnGlobal, renameIf, isStructorVariable, declared, named, unnamed, ordinary]

/-- Renamed functions have one of the names. -/
theorem structorFunction_mem (f : Function) (renames : isStructorFunction f = true) :
    f.name ∈ structors :=
  List.mem_append_left _ (by simpa [isStructorFunction] using renames)

/-- Renamed variables have one of the names. -/
theorem structorVariable_mem (gv : GlobalVariable) (renames : isStructorVariable gv = true) :
    gv.name ∈ structors := by
  apply List.mem_append_right
  simp only [isStructorVariable, Bool.and_eq_true, List.contains_iff_mem] at renames
  exact renames.2

/-- A suffix is kept apart from the name by an underscore. -/
theorem addModuleSuffix_eq {symbol : Bytes} (structor : symbol ∈ structors) (moduleName : Bytes) :
    addModuleSuffix symbol moduleName = symbol ++ text "_" ++ moduleName.map replaceByte := by
  have kept : ∀ symbol ∈ structors, (symbol ++ text "_").map replaceByte = symbol ++ text "_" := by
    decide +kernel
  rw [addModuleSuffix, List.map_append, kept symbol structor]

/-- No name with a suffix is one of the names without. -/
theorem suffixed_ordinary {symbol : Bytes} (structor : symbol ∈ structors) (suffix : Bytes) :
    symbol ++ text "_" ++ suffix ∉ structors := by
  have apart : ∀ symbol ∈ structors, ∀ other ∈ structors, ¬ symbol ++ text "_" <+: other := by
    decide +kernel
  intro member
  exact apart symbol structor _ member (List.prefix_append _ suffix)

/-- A name and its suffix can be read off again. -/
theorem suffixed_injective {symbol other suffix rest : Bytes} (structor : symbol ∈ structors)
    (another : other ∈ structors)
    (same : symbol ++ text "_" ++ suffix = other ++ text "_" ++ rest) :
    symbol = other ∧ suffix = rest := by
  have apart : ∀ symbol ∈ structors, ∀ other ∈ structors,
      symbol ++ text "_" <+: other ++ text "_" → symbol = other := by
    decide +kernel
  have equal : symbol = other := by
    have begins : symbol ++ text "_" <+: other ++ text "_" ++ rest := same ▸ List.prefix_append _ suffix
    obtain shorter | longer := List.prefix_or_prefix_of_prefix begins (List.prefix_append _ rest)
    · exact apart symbol structor other another shorter
    · exact (apart other another symbol structor longer).symm
  subst equal
  exact ⟨rfl, List.append_cancel_left same⟩

/-- The bytes of a suffix, with the text that a module appends to the suffixed name if it
has that name already. -/
def uniqueSuffix (clone : CloneText) (m : NamedModule) (symbol : Bytes) : Bytes :=
  m.name ++ if m.symbolTable.contains (addModuleSuffix symbol m.name)
    then clone.of (addModuleSuffix symbol m.name) else []

/-- The name that a symbol of a module is given. -/
def uniqueName (clone : CloneText) (m : NamedModule) (symbol : Bytes) : Bytes :=
  symbol ++ text "_" ++ (uniqueSuffix clone m symbol).map replaceByte

/-- The new name, where it is known beforehand which names are taken. -/
def renamed (renames : GlobalValue δ → Bool) (clone : CloneText) (m : NamedModule) (gv : GlobalValue δ) :
    Bool × GlobalValue δ :=
  if renames gv then (true, { gv with name := uniqueName clone m gv.name }) else (false, gv)

/-- Letters, digits, underscores and periods are kept. -/
theorem replaced_plain {suffix : Bytes} (plain : ∀ ch ∈ suffix, isPreprocessingNumberBody ch = true) :
    suffix.map replaceByte = suffix := by
  have kept : ∀ ch ∈ suffix, replaceByte ch = id ch := by
    intro ch member
    simp [replaceByte, plain ch member]
  rw [List.map_congr_left kept, List.map_id]

/-- A symbol table that agrees with the initial one about the suffixed names of the symbols
that are still to be renamed, each of which occurs once. -/
structure Agrees (m : NamedModule) (table remaining : List Bytes) : Prop where
  taken : ∀ symbol ∈ remaining, symbol ∈ structors →
    (addModuleSuffix symbol m.name ∈ table ↔ addModuleSuffix symbol m.name ∈ m.symbolTable)
  once : (remaining.filter (· ≠ [])).Nodup

section Agrees

variable {clone : CloneText} {m : NamedModule} {table remaining : List Bytes}

/-- A value that is passed over keeps the agreement. -/
theorem Agrees.skip {name : Bytes} (agrees : Agrees m table (name :: remaining)) :
    Agrees m table remaining where
  taken symbol member := agrees.taken symbol (List.mem_cons_of_mem name member)
  once := agrees.once.sublist ((List.sublist_cons_self name remaining).filter _)

/-- Giving up its own name frees no suffixed name. -/
theorem suffixed_mem_erase {symbol name : Bytes} (structor : symbol ∈ structors)
    (named : name ∈ structors) (moduleName : Bytes) (table : List Bytes) :
    addModuleSuffix symbol moduleName ∈ table.erase name ↔ addModuleSuffix symbol moduleName ∈ table := by
  apply List.mem_erase_of_ne
  intro same
  rw [addModuleSuffix_eq structor] at same
  exact suffixed_ordinary structor _ (same ▸ named)

/-- A value gets the name that the initial table predicts. -/
theorem setName_name {gv : GlobalValue δ} (structor : gv.name ∈ structors)
    (agrees : Agrees m table (gv.name :: remaining)) :
    (setName clone table gv (addModuleSuffix gv.name m.name)).1 =
      { gv with name := uniqueName clone m gv.name } := by
  have taken := agrees.taken gv.name List.mem_cons_self structor
  simp only [setName, List.contains_iff_mem, suffixed_mem_erase structor structor, taken, uniqueName,
    uniqueSuffix]
  congr 1
  split
  · rw [List.map_append, replaced_plain (clone.body _), addModuleSuffix_eq structor, List.append_assoc]
  · rw [List.append_nil, addModuleSuffix_eq structor]

/-- A renamed structor keeps its old name at the front, followed by an underscore. -/
theorem setName_suffixed (clone : CloneText) (moduleName : Bytes) (table : List Bytes)
    {gv : GlobalValue δ} (structor : gv.name ∈ structors) : ∃ tail,
      (setName clone table gv (addModuleSuffix gv.name moduleName)).1.name =
        gv.name ++ text "_" ++ tail := by
  rw [setName, addModuleSuffix_eq structor]
  dsimp only
  split
  · exact ⟨_, List.append_assoc ..⟩
  · exact ⟨_, rfl⟩

/-- A structor at the front occurs among the remaining names no more. -/
theorem Agrees.different {symbol name : Bytes} (agrees : Agrees m table (name :: remaining))
    (structor : name ∈ structors) (member : symbol ∈ remaining) : symbol ≠ name := by
  have nonempty := structors_named name structor
  have once := agrees.once
  rw [List.filter_cons_of_pos (by simpa using nonempty), List.nodup_cons] at once
  rintro rfl
  exact once.1 (List.mem_filter.mpr ⟨member, by simpa using nonempty⟩)

/-- A renamed value leaves the suffixed names of the other symbols as they were. -/
theorem Agrees.rename {gv : GlobalValue δ} (structor : gv.name ∈ structors)
    (agrees : Agrees m table (gv.name :: remaining)) :
    Agrees m (setName clone table gv (addModuleSuffix gv.name m.name)).2 remaining where
  taken symbol member another := by
    have different := agrees.different structor member
    have unclaimed : addModuleSuffix symbol m.name ≠
        (setName clone table gv (addModuleSuffix gv.name m.name)).1.name := by
      obtain ⟨tail, suffixed⟩ := setName_suffixed clone m.name table structor
      rw [suffixed, addModuleSuffix_eq another]
      intro same
      exact different (suffixed_injective another structor same).1
    calc addModuleSuffix symbol m.name ∈ (setName clone table gv (addModuleSuffix gv.name m.name)).2
        ↔ addModuleSuffix symbol m.name ∈ table.erase gv.name := List.mem_cons.trans (or_iff_right unclaimed)
      _ ↔ addModuleSuffix symbol m.name ∈ table := suffixed_mem_erase another structor m.name table
      _ ↔ addModuleSuffix symbol m.name ∈ m.symbolTable := agrees.skip.taken symbol member another
  once := agrees.skip.once

end Agrees

/-- A sweep over values gives the predicted names, and the values behind it still find the
agreement that they need. -/
theorem sweep_eq {renames : GlobalValue δ → Bool} (named : ∀ gv, renames gv = true → gv.name ∈ structors)
    (clone : CloneText) {m : NamedModule} {table behind : List Bytes} {values : List (GlobalValue δ)}
    (agrees : Agrees m table (values.map (·.name) ++ behind)) : ∃ next,
      thread (renameIf renames clone m.name) table values =
        ((each (renamed renames clone m) values).1, (each (renamed renames clone m) values).2, next) ∧
      Agrees m next behind := by
  let invariant (table : List Bytes) (values : List (GlobalValue δ)) : Prop :=
    Agrees m table (values.map (·.name) ++ behind)
  refine thread_eq_each invariant ?_ table values agrees
  intro table gv rest agrees
  cases chosen : renames gv with
  | true =>
    have structor := named gv chosen
    have next : Agrees m (setName clone table gv (addModuleSuffix gv.name m.name)).2 _ :=
      agrees.rename structor
    refine ⟨_, ?_, next⟩
    simp only [renameIf, renamed, chosen, ↓reduceIte, ← setName_name structor agrees]
  | false => exact ⟨table, by simp [renameIf, renamed, chosen], agrees.skip⟩

/-- The names of the values that have another name after the pass, in order. -/
def newNames (before after : List (GlobalValue δ)) : List Bytes :=
  ((before.zip after).filter fun pair => pair.1.name ≠ pair.2.name).map (·.2.name)

/-- The symbols of a module that the pass has renamed, by their new names. -/
def renamedSymbols (clone : CloneText) (m : NamedModule) : List Bytes :=
  newNames m.functions (runOnModule clone m).2.functions ++
    newNames m.globals (runOnModule clone m).2.globals

/-- The structor functions of a module and its defined structor variables. -/
def structorsOf (m : NamedModule) : List Bytes :=
  (m.functions.filter isStructorFunction).map (·.name) ++
    (m.globals.filter isStructorVariable).map (·.name)

/-- The symbols of a module that are renamed have names that the pass looks for. -/
theorem structorsOf_mem {m : NamedModule} {symbol : Bytes} (member : symbol ∈ structorsOf m) :
    symbol ∈ structors := by
  simp only [structorsOf, List.mem_append, List.mem_map, List.mem_filter] at member
  obtain ⟨f, ⟨_, renames⟩, rfl⟩ | ⟨gv, ⟨_, renames⟩, rfl⟩ := member
  · exact structorFunction_mem f renames
  · exact structorVariable_mem gv renames

/-- Values of a class with names come before the unnamed ones are sorted out. -/
theorem filter_names_sublist {renames : GlobalValue δ → Bool}
    (named : ∀ gv, renames gv = true → gv.name ∈ structors) (values : List (GlobalValue δ)) :
    ((values.filter renames).map (·.name)).Sublist ((values.map (·.name)).filter (· ≠ [])) := by
  rw [List.filter_map]
  apply List.Sublist.map
  apply List.monotone_filter_right
  intro gv chosen
  simpa using structors_named gv.name (named gv chosen)

/-- A module has each structor once. -/
theorem structorsOf_nodup (m : WellNamed) : (structorsOf m.toNamedModule).Nodup := by
  refine List.Nodup.sublist ?_ m.distinct
  rw [NamedModule.symbolTable, List.filter_append]
  exact ((filter_names_sublist structorFunction_mem m.functions).append
    (filter_names_sublist structorVariable_mem m.globals)).trans (List.sublist_append_left _ _)

/-- A new name determines the symbol, and the suffix as far as it is not replaced. -/
theorem uniqueName_injective {clone other : CloneText} {m n : NamedModule} {symbol another : Bytes}
    (structor : symbol ∈ structors) (different : another ∈ structors)
    (same : uniqueName clone m symbol = uniqueName other n another) :
    symbol = another ∧
      (uniqueSuffix clone m symbol).map replaceByte = (uniqueSuffix other n another).map replaceByte :=
  suffixed_injective structor different same

/-- A value counts when its name has changed. -/
theorem newNames_cons (before after : GlobalValue δ) (rest swept : List (GlobalValue δ)) :
    newNames (before :: rest) (after :: swept) =
      if before.name = after.name then newNames rest swept else after.name :: newNames rest swept := by
  by_cases same : before.name = after.name
  · simp [newNames, same]
  · simp [newNames, same]

/-- An independent sweep gives new names to the values of the class alone. -/
theorem newNames_each {renames : GlobalValue δ → Bool}
    (named : ∀ gv, renames gv = true → gv.name ∈ structors) (clone : CloneText) (m : NamedModule)
    (values : List (GlobalValue δ)) :
    newNames values (each (renamed renames clone m) values).2 =
      ((values.filter renames).map (·.name)).map (uniqueName clone m) := by
  induction values with
  | nil => rfl
  | cons gv rest inductionHypothesis =>
    rw [each_cons, newNames_cons, inductionHypothesis]
    cases chosen : renames gv with
    | true =>
      have structor := named gv chosen
      have different : gv.name ≠ uniqueName clone m gv.name := by
        intro same
        exact suffixed_ordinary structor _ (same ▸ structor)
      simp [renamed, chosen, different]
    | false => simp [renamed, chosen]

/-- The pass gives every structor of a module its predicted name. -/
theorem renamedSymbols_eq (clone : CloneText) (m : WellNamed) :
    renamedSymbols clone m.toNamedModule =
      (structorsOf m.toNamedModule).map (uniqueName clone m.toNamedModule) := by
  have initially : Agrees m.toNamedModule m.symbolTable
      (m.functions.map (·.name) ++ m.globals.map (·.name)) :=
    ⟨fun _ _ _ => Iff.rfl, List.Nodup.sublist (List.sublist_append_left _ _) m.distinct⟩
  obtain ⟨table, functions, between⟩ := sweep_eq structorFunction_mem clone initially
  rw [← List.append_nil (m.globals.map (·.name))] at between
  obtain ⟨last, globals, _⟩ := sweep_eq structorVariable_mem clone between
  rw [renamedSymbols, runOnModule, runOnFunction_eq, runOnGlobal_eq, functions]
  simp only [globals]
  rw [newNames_each structorFunction_mem, newNames_each structorVariable_mem, ← List.map_append]
  rfl

/-- No symbol that the pass renames in one module gets the name of one that it renames in
the other, or of another one in its own module. -/
structure DistinctStructors (clone : CloneText) (m : NamedModule) (other : CloneText) (n : NamedModule) :
    Prop where
  apart : ∀ symbol ∈ renamedSymbols clone m, symbol ∉ renamedSymbols other n
  first : (renamedSymbols clone m).Nodup
  second : (renamedSymbols other n).Nodup

/-- Within a module the new names are distinct. -/
theorem renamedSymbols_nodup (clone : CloneText) (m : WellNamed) :
    (renamedSymbols clone m.toNamedModule).Nodup := by
  rw [renamedSymbols_eq]
  refine List.Nodup.map_on ?_ (structorsOf_nodup m)
  intro symbol member another present same
  exact (uniqueName_injective (structorsOf_mem member) (structorsOf_mem present) same).1

/-- Bytes that appear as an underscore in a suffix. -/
def AsUnderscore (ch : UInt8) : Prop := ch = '_'.toUInt8 ∨ isPreprocessingNumberBody ch = false

/-- Bytes that a suffix does not tell apart. -/
def Alike (ch other : UInt8) : Prop := ch = other ∨ (AsUnderscore ch ∧ AsUnderscore other)

/-- The replacement identifies exactly these bytes. -/
theorem replaceByte_eq_iff (ch other : UInt8) : replaceByte ch = replaceByte other ↔ Alike ch other := by
  have underscore : isPreprocessingNumberBody '_'.toUInt8 = true := by decide
  cases body : isPreprocessingNumberBody ch <;> cases another : isPreprocessingNumberBody other <;>
    simp [replaceByte, Alike, AsUnderscore, body, another] <;> grind

/-- Suffixes with the same replacement are alike byte by byte. -/
theorem replaced_eq_iff (suffix other : Bytes) :
    suffix.map replaceByte = other.map replaceByte ↔ List.Forall₂ Alike suffix other := by
  rw [← List.forall₂_eq_eq_eq, List.forall₂_map_left_iff, List.forall₂_map_right_iff]
  simp only [replaceByte_eq_iff]

/-- Two modules come to share a name exactly when they bring a common symbol with suffixes
that are alike. -/
theorem shared_name_iff (m n : WellNamed) (clone other : CloneText) :
    (∃ name ∈ renamedSymbols clone m.toNamedModule, name ∈ renamedSymbols other n.toNamedModule) ↔
      ∃ symbol ∈ structorsOf m.toNamedModule, symbol ∈ structorsOf n.toNamedModule ∧
        List.Forall₂ Alike (uniqueSuffix clone m.toNamedModule symbol)
          (uniqueSuffix other n.toNamedModule symbol) := by
  rw [renamedSymbols_eq, renamedSymbols_eq]
  constructor
  · rintro ⟨name, member, shared⟩
    obtain ⟨symbol, here, rfl⟩ := List.mem_map.mp member
    obtain ⟨another, there, same⟩ := List.mem_map.mp shared
    obtain ⟨rfl, replaced⟩ := uniqueName_injective (structorsOf_mem there) (structorsOf_mem here) same
    exact ⟨another, here, there, (replaced_eq_iff _ _).mp replaced.symm⟩
  · rintro ⟨symbol, here, there, alike⟩
    refine ⟨uniqueName clone m.toNamedModule symbol, List.mem_map_of_mem here, ?_⟩
    rw [uniqueName, (replaced_eq_iff _ _).mpr alike]
    exact List.mem_map_of_mem there

/-- The structors of two modules are told apart exactly when, for every symbol that both
bring, the module names are not alike. Where the suffixed name is taken in a module before
the pass, the text that is appended to it counts as part of the module name. -/
theorem distinct_iff (m n : WellNamed) (clone other : CloneText) :
    DistinctStructors clone m.toNamedModule other n.toNamedModule ↔
      ∀ symbol ∈ structorsOf m.toNamedModule, symbol ∈ structorsOf n.toNamedModule →
        ¬ List.Forall₂ Alike (uniqueSuffix clone m.toNamedModule symbol)
          (uniqueSuffix other n.toNamedModule symbol) := by
  have shared := shared_name_iff m n clone other
  constructor
  · intro distinct symbol here there alike
    obtain ⟨name, first, second⟩ := shared.mpr ⟨symbol, here, there, alike⟩
    exact distinct.apart name first second
  · intro unlike
    refine ⟨?_, renamedSymbols_nodup clone m, renamedSymbols_nodup other n⟩
    intro name first second
    obtain ⟨symbol, here, there, alike⟩ := shared.mp ⟨name, first, second⟩
    exact unlike symbol here there alike

/-- LLVM counts its clones from one. -/
def firstClone : CloneText := ⟨fun _ => text ".1", fun _ => List.all_eq_true.mp (by decide)⟩

/-- A module with a constructor function. -/
def constructorModule (name : Bytes) : WellNamed where
  functions := [⟨text "__cuda_module_ctor", .InternalLinkage, .DefaultVisibility, true, some ⟨3⟩⟩]
  globals := []
  name := name
  otherNames := []
  distinct := List.nodup_singleton (text "__cuda_module_ctor")

/-- Names that differ in a replaced byte alone give one name to two constructors. -/
theorem replaced_names_collide : ¬ ∀ (m n : WellNamed) (clone other : CloneText), m.name ≠ n.name →
    DistinctStructors clone m.toNamedModule other n.toNamedModule := by
  intro distinct
  have apart := (distinct (constructorModule (text "a-b")) (constructorModule (text "a+b")) firstClone
    firstClone (by decide)).apart
  exact apart (text "__cuda_module_ctor_a_b") (by decide) (by decide)

/-- Where the suffixed name is free, the module name alone is the suffix. -/
theorem uniqueSuffix_free {m : NamedModule} {symbol : Bytes}
    (free : addModuleSuffix symbol m.name ∉ m.symbolTable) (clone : CloneText) :
    uniqueSuffix clone m symbol = m.name := by
  simp [uniqueSuffix, free]

/-- Module names of letters, digits, underscores and periods tell the structors apart when
they differ and no suffixed name is taken. -/
theorem plain_names_apart (m n : WellNamed) (clone other : CloneText) (different : m.name ≠ n.name)
    (plain : ∀ ch ∈ m.name ++ n.name, isPreprocessingNumberBody ch = true)
    (free : ∀ symbol ∈ structorsOf m.toNamedModule, addModuleSuffix symbol m.name ∉ m.symbolTable)
    (untaken : ∀ symbol ∈ structorsOf n.toNamedModule, addModuleSuffix symbol n.name ∉ n.symbolTable) :
    ∀ name ∈ renamedSymbols clone m.toNamedModule, name ∉ renamedSymbols other n.toNamedModule := by
  intro name first second
  obtain ⟨symbol, here, there, alike⟩ := (shared_name_iff m n clone other).mp ⟨name, first, second⟩
  obtain ⟨plainFirst, plainSecond⟩ := List.forall_mem_append.mp plain
  have same := (replaced_eq_iff _ _).mpr alike
  rw [uniqueSuffix_free (free symbol here), uniqueSuffix_free (untaken symbol there),
    replaced_plain plainFirst, replaced_plain plainSecond] at same
  exact different same

end UniqueCUDAStructorName

end CppInterpreter
