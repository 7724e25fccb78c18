import CppInterpreter.ModulePasses
import Mathlib.Data.List.Forall2

/-!
# What the module passes leave

The four passes act on each global value by itself, and on no value twice in a row that
matters: a declaration loses its local assumptions, an internal definition becomes
weak, and a link-once definition that exists elsewhere is dropped. The last step comes
after the second, so it makes declarations that nothing sanitises any more.
-/

namespace CppInterpreter.ModulePipeline

open Bytes GlobalValue

variable {δ : Type}

/-- A name that the linker knows: neither empty nor that of a string literal. -/
def keepsLocal (gv : GlobalValue δ) : Bool :=
  gv.linkage = .InternalLinkage && gv.hasName && !startswith gv.name (text ".str")

/-- Type information and vtables. -/
def namesTypeinfo (gv : GlobalValue δ) : Bool :=
  gv.linkage = .ExternalLinkage && startswith gv.name (text "_ZT")

/-- A link-once value whose name is found in the JIT or in the process. -/
def provided (lookup : SymbolLookup) (gv : GlobalValue δ) : Bool :=
  gv.linkage.isLinkOnceLinkage &&
    (lookup.doesSymbolAlreadyExist gv.name || lookup.searchForAddressOfSymbol gv.name)

/-- A function body that is long enough to be dropped. -/
def isLarge (f : Function) : Bool := f.definition.any fun body => 50 ≤ body.instructionCount

/-- A function whose body is dropped because it exists elsewhere. -/
def reusedFunction (lookup : SymbolLookup) (f : Function) : Bool := isLarge f && provided lookup f

/-- A variable whose initializer is dropped because it exists elsewhere. -/
def reusedVariable (lookup : SymbolLookup) (gv : GlobalVariable) : Bool :=
  !gv.isDeclaration && provided lookup gv

/-- The value without any assumption of a local definition. -/
def sanitised (gv : GlobalValue δ) : GlobalValue δ :=
  { gv with
    linkage := if gv.hasLocalLinkage then .ExternalLinkage else gv.linkage
    visibility := .DefaultVisibility
    dsoLocal := false }

/-- The first pass changes exactly the internal definitions with a linker name. -/
theorem keepLocal_eq (gv : GlobalValue δ) : KeepLocalGVPass.runOnGlobal gv =
    if gv.isDeclaration = false ∧ keepsLocal gv = true then (true, gv.setLinkage .WeakAnyLinkage)
    else (false, gv) := by
  unfold KeepLocalGVPass.runOnGlobal keepsLocal
  cases gv.isDeclaration <;> cases gv.hasName <;> cases startswith gv.name (text ".str") <;>
    cases gv.linkage <;> simp [LinkageTypes.isDiscardableIfUnused, LinkageTypes.isLocalLinkage,
      LinkageTypes.isLinkOnceLinkage]

/-- A declaration with an assumption of a local definition. -/
def assumesLocal (gv : GlobalValue δ) : Bool :=
  gv.isDeclaration && (gv.hasLocalLinkage || !gv.hasDefaultVisibility || gv.dsoLocal)

/-- The second pass sanitises the declarations that assume something, and reports these.
Nothing but the three fields decides, so every combination of them is looked at. -/
theorem preventLocal_eq (gv : GlobalValue δ) : PreventLocalOptPass.runOnGlobal gv =
    if assumesLocal gv then (true, sanitised gv) else (false, gv) := by
  obtain ⟨name, linkage, visibility, dsoLocal, definition⟩ := gv
  cases definition with
  | some _ => rfl
  | none => cases linkage <;> cases visibility <;> cases dsoLocal <;> rfl

/-- The second pass leaves definitions alone. -/
theorem preventLocal_defined {gv : GlobalValue δ} (defined : gv.isDeclaration = false) :
    PreventLocalOptPass.runOnGlobal gv = (false, gv) := by
  simp [preventLocal_eq, assumesLocal, defined]

/-- The second pass sanitises declarations. Nothing is left to sanitise where nothing is
assumed. -/
theorem preventLocal_declared {gv : GlobalValue δ} (declared : gv.isDeclaration = true) :
    (PreventLocalOptPass.runOnGlobal gv).2 = sanitised gv := by
  rw [preventLocal_eq]
  split
  · rfl
  · next unassuming =>
    simp only [assumesLocal, declared, hasDefaultVisibility, Bool.true_and, Bool.or_eq_true,
      Bool.not_eq_eq_eq_not, Bool.not_true, decide_eq_false_iff_not, not_or, not_not,
      Bool.not_eq_true] at unassuming
    obtain ⟨⟨linkage, visibility⟩, dsoLocal⟩ := unassuming
    simp only [sanitised, linkage, Bool.false_eq_true, ↓reduceIte]
    rw [← visibility, ← dsoLocal]

/-- The third pass makes exactly the external type information weak. -/
theorem weakTypeinfo_eq (gv : GlobalVariable) : WeakTypeinfoVTablePass.runOnGlobalVariable gv =
    if namesTypeinfo gv then (true, gv.setLinkage .WeakAnyLinkage) else (false, gv) := by
  by_cases external : gv.linkage = .ExternalLinkage
  · simp [WeakTypeinfoVTablePass.runOnGlobalVariable, namesTypeinfo, external]
  · simp [WeakTypeinfoVTablePass.runOnGlobalVariable, namesTypeinfo, external]

/-- The last pass asks for the link-once names only. -/
theorem shouldRemove_eq (lookup : SymbolLookup) (gv : GlobalValue δ) :
    ReuseExistingWeakSymbols.shouldRemoveGlobalDefinition lookup gv = provided lookup gv := by
  rw [ReuseExistingWeakSymbols.shouldRemoveGlobalDefinition, provided, ← Bool.not_and,
    LinkageTypes.discardable_weak]
  cases gv.linkage.isLinkOnceLinkage
  · rfl
  · cases lookup.doesSymbolAlreadyExist gv.name <;> rfl

/-- A new linkage makes no definition a declaration, nor the other way round. -/
theorem setLinkage_isDeclaration (gv : GlobalValue δ) (lt : LinkageTypes) :
    (gv.setLinkage lt).isDeclaration = gv.isDeclaration := by
  simp [isDeclaration]

/-- A value that has been made weak is not dropped any more. -/
theorem weak_not_provided (lookup : SymbolLookup) (gv : GlobalValue δ) :
    provided lookup (gv.setLinkage .WeakAnyLinkage) = false := by
  simp [provided, LinkageTypes.isLinkOnceLinkage]

/-- A function on its way through the passes; the third one does not touch it. -/
def throughFunction (lookup : SymbolLookup) (f : Function) : Function :=
  (ReuseExistingWeakSymbols.runOnFunc lookup
    (PreventLocalOptPass.runOnGlobal (KeepLocalGVPass.runOnGlobal f).2).2).2

/-- A global variable on its way through the passes. -/
def throughVariable (lookup : SymbolLookup) (gv : GlobalVariable) : GlobalVariable :=
  (ReuseExistingWeakSymbols.runOnVar lookup
    (WeakTypeinfoVTablePass.runOnGlobalVariable
      (PreventLocalOptPass.runOnGlobal (KeepLocalGVPass.runOnGlobal gv).2).2).2).2

/-- The passes act on each global value by itself. -/
theorem runModulePasses_eq (lookup : SymbolLookup) (module : Module) :
    runModulePasses lookup module =
      ⟨module.functions.map (throughFunction lookup), module.globals.map (throughVariable lookup)⟩ := by
  simp [runModulePasses, runPasses, modulePasses, ModulePass.runOnModule,
    KeepLocalGVPass.runOnModule, PreventLocalOptPass.runOnModule,
    WeakTypeinfoVTablePass.runOnModule, ReuseExistingWeakSymbols.runOnModule, Module.sweep,
    List.map_map, throughFunction, throughVariable, Function.comp_def]

section Functions

variable {lookup : SymbolLookup} {f : Function}

/-- The last pass drops exactly the large function bodies that exist elsewhere. -/
theorem reuseFunc_eq (lookup : SymbolLookup) (f : Function) :
    ReuseExistingWeakSymbols.runOnFunc lookup f =
      if reusedFunction lookup f then (true, f.deleteBody) else (false, f) := by
  unfold ReuseExistingWeakSymbols.runOnFunc reusedFunction isLarge
  rw [shouldRemove_eq]
  cases f.definition with
  | none => simp
  | some body =>
    by_cases small : body.instructionCount < 50
    · simp [small, Nat.not_le_of_lt small]
    · cases provided lookup f <;> simp [small, Nat.le_of_not_lt small]

/-- A declared function is sanitised. -/
theorem function_declared (declared : f.isDeclaration = true) :
    throughFunction lookup f = sanitised f := by
  have bodiless : f.definition = none := Option.isNone_iff_eq_none.mp declared
  have kept : reusedFunction lookup (sanitised f) = false := by
    simp [reusedFunction, isLarge, sanitised, bodiless]
  simp [throughFunction, keepLocal_eq, declared, preventLocal_declared, reuseFunc_eq, kept]

/-- A defined function becomes weak, loses its body, or stays as it is. -/
theorem function_defined (defined : f.isDeclaration = false) :
    throughFunction lookup f =
      if keepsLocal f then f.setLinkage .WeakAnyLinkage
      else if reusedFunction lookup f then f.deleteBody
      else f := by
  cases kept : keepsLocal f with
  | false =>
    simp [throughFunction, keepLocal_eq, defined, kept, preventLocal_defined, reuseFunc_eq,
      apply_ite Prod.snd]
  | true =>
    have weak : (f.setLinkage .WeakAnyLinkage).isDeclaration = false :=
      (setLinkage_isDeclaration f _).trans defined
    have absent : reusedFunction lookup (f.setLinkage .WeakAnyLinkage) = false := by
      simp [reusedFunction, weak_not_provided]
    simp [throughFunction, keepLocal_eq, defined, kept, preventLocal_defined weak, reuseFunc_eq, absent]

end Functions

section Variables

variable {lookup : SymbolLookup} {gv : GlobalVariable}

/-- The last pass drops exactly the initializers that exist elsewhere. -/
theorem reuseVar_eq (lookup : SymbolLookup) (gv : GlobalVariable) :
    ReuseExistingWeakSymbols.runOnVar lookup gv =
      if reusedVariable lookup gv then (true, gv.dropInitializer) else (false, gv) := by
  unfold ReuseExistingWeakSymbols.runOnVar reusedVariable
  rw [shouldRemove_eq]
  cases gv.isDeclaration <;> cases provided lookup gv <;> rfl

/-- A declared variable is sanitised, and made weak afterwards where it names type
information. -/
theorem variable_declared (declared : gv.isDeclaration = true) :
    throughVariable lookup gv =
      if namesTypeinfo (sanitised gv) then (sanitised gv).setLinkage .WeakAnyLinkage
      else sanitised gv := by
  have still : (sanitised gv).isDeclaration = true := declared
  have weak : ((sanitised gv).setLinkage .WeakAnyLinkage).isDeclaration = true :=
    (setLinkage_isDeclaration (sanitised gv) _).trans still
  cases typeinfo : namesTypeinfo (sanitised gv) <;>
    simp [throughVariable, keepLocal_eq, declared, preventLocal_declared, weakTypeinfo_eq, typeinfo,
      reuseVar_eq, reusedVariable, still, weak]

/-- A defined variable becomes weak, loses its initializer, or stays as it is. -/
theorem variable_defined (defined : gv.isDeclaration = false) :
    throughVariable lookup gv =
      if keepsLocal gv = true ∨ namesTypeinfo gv = true then gv.setLinkage .WeakAnyLinkage
      else if reusedVariable lookup gv then gv.dropInitializer
      else gv := by
  have weak : (gv.setLinkage .WeakAnyLinkage).isDeclaration = false :=
    (setLinkage_isDeclaration gv _).trans defined
  have absent : reusedVariable lookup (gv.setLinkage .WeakAnyLinkage) = false := by
    simp [reusedVariable, weak_not_provided]
  have weakened : namesTypeinfo (gv.setLinkage .WeakAnyLinkage) = false := by
    simp [namesTypeinfo]
  cases kept : keepsLocal gv with
  | true =>
    simp [throughVariable, keepLocal_eq, defined, kept, preventLocal_defined weak, weakTypeinfo_eq,
      weakened, reuseVar_eq, absent]
  | false =>
    cases typeinfo : namesTypeinfo gv <;>
      simp [throughVariable, keepLocal_eq, defined, kept, preventLocal_defined, weakTypeinfo_eq,
        typeinfo, reuseVar_eq, absent, apply_ite Prod.snd]

end Variables

/-- A declaration assumes nothing about its definition. -/
def Sanitised (gv : GlobalValue δ) : Prop :=
  gv.isDeclaration = true →
    gv.hasLocalLinkage = false ∧ gv.hasDefaultVisibility = true ∧ gv.dsoLocal = false

/-- A sanitised value assumes nothing. -/
theorem sanitised_assumes (gv : GlobalValue δ) :
    (sanitised gv).hasLocalLinkage = false ∧ (sanitised gv).hasDefaultVisibility = true ∧
      (sanitised gv).dsoLocal = false := by
  refine ⟨?_, rfl, rfl⟩
  cases local_ : gv.hasLocalLinkage <;> simp_all [sanitised, hasLocalLinkage, LinkageTypes.isLocalLinkage]

/-- A link-once value is neither kept as a local one nor taken for type information,
and its linkage is not one of a declaration. -/
theorem provided_linkOnce {lookup : SymbolLookup} {gv : GlobalValue δ}
    (found : provided lookup gv = true) : keepsLocal gv = false ∧ namesTypeinfo gv = false ∧
      gv.hasLocalLinkage = false ∧ gv.linkage.isDeclarationLinkage = false := by
  unfold provided at found
  cases linkage : gv.linkage <;>
    simp_all [LinkageTypes.isLinkOnceLinkage, LinkageTypes.isLocalLinkage,
      LinkageTypes.isDeclarationLinkage, keepsLocal, namesTypeinfo, hasLocalLinkage]

/-- A dropped body belongs to a definition that exists elsewhere. -/
theorem reusedFunction_provided {lookup : SymbolLookup} {f : Function}
    (reused : reusedFunction lookup f = true) :
    f.isDeclaration = false ∧ provided lookup f = true := by
  unfold reusedFunction isLarge at reused
  cases body : f.definition <;> simp_all [isDeclaration]

/-- A dropped initializer belongs to a definition that exists elsewhere. -/
theorem reusedVariable_provided {lookup : SymbolLookup} {gv : GlobalVariable}
    (reused : reusedVariable lookup gv = true) :
    gv.isDeclaration = false ∧ provided lookup gv = true := by
  unfold reusedVariable at reused
  simpa using reused

/-- A function ends up sanitised unless it is one whose dropped body was assumed to be
local. -/
theorem function_sanitised_iff (lookup : SymbolLookup) (f : Function) :
    Sanitised (throughFunction lookup f) ↔
      (reusedFunction lookup f = true → f.hasDefaultVisibility = true ∧ f.dsoLocal = false) := by
  cases declared : f.isDeclaration with
  | true =>
    rw [function_declared declared]
    apply iff_of_true
    · intro _
      exact sanitised_assumes f
    · intro reused
      have defined := (reusedFunction_provided reused).1
      simp [declared] at defined
  | false =>
    rw [function_defined declared]
    cases reused : reusedFunction lookup f with
    | false =>
      apply iff_of_true
      · intro undefined
        split at undefined
        · simp [isDeclaration] at undefined declared
          simp [undefined] at declared
        · simp [declared] at undefined
      · intro impossible
        cases impossible
    | true =>
      have found := (reusedFunction_provided reused).2
      simp [(provided_linkOnce found).1, Sanitised, isDeclaration, hasLocalLinkage,
        LinkageTypes.isLocalLinkage, hasDefaultVisibility]
      intro visible _
      exact visible

/-- Making a sanitised value weak assumes nothing either. -/
theorem weak_assumes {gv : GlobalValue δ} (visible : gv.hasDefaultVisibility = true)
    (preempted : gv.dsoLocal = false) :
    (gv.setLinkage .WeakAnyLinkage).hasLocalLinkage = false ∧
      (gv.setLinkage .WeakAnyLinkage).hasDefaultVisibility = true ∧
      (gv.setLinkage .WeakAnyLinkage).dsoLocal = false := by
  have default_ : gv.visibility = .DefaultVisibility := of_decide_eq_true visible
  refine ⟨by simp [hasLocalLinkage, LinkageTypes.isLocalLinkage], ?_, ?_⟩
  · simp [setLinkage, hasDefaultVisibility, LinkageTypes.isLocalLinkage, default_]
  · simp [setLinkage, preempted, isImplicitDSOLocal, hasLocalLinkage, hasDefaultVisibility,
      LinkageTypes.isLocalLinkage, default_]

/-- A variable ends up sanitised unless it is one whose dropped initializer was assumed
to be local. -/
theorem variable_sanitised_iff (lookup : SymbolLookup) (gv : GlobalVariable) :
    Sanitised (throughVariable lookup gv) ↔
      (reusedVariable lookup gv = true → gv.hasDefaultVisibility = true ∧ gv.dsoLocal = false) := by
  cases declared : gv.isDeclaration with
  | true =>
    rw [variable_declared declared]
    apply iff_of_true
    · intro _
      split
      · exact weak_assumes rfl rfl
      · exact sanitised_assumes gv
    · intro reused
      have defined := (reusedVariable_provided reused).1
      simp [declared] at defined
  | false =>
    rw [variable_defined declared]
    cases reused : reusedVariable lookup gv with
    | false =>
      have still : (gv.setLinkage .WeakAnyLinkage).isDeclaration = false :=
        (setLinkage_isDeclaration gv _).trans declared
      apply iff_of_true
      · intro undefined
        split at undefined
        · simp [still] at undefined
        · simp [declared] at undefined
      · intro impossible
        cases impossible
    | true =>
      have found := (reusedVariable_provided reused).2
      obtain ⟨notKept, notTypeinfo, notLocal, _⟩ := provided_linkOnce found
      have linkage : gv.linkage.isLocalLinkage = false := notLocal
      simp [notKept, notTypeinfo, Sanitised, isDeclaration, GlobalVariable.dropInitializer,
        hasLocalLinkage, hasDefaultVisibility, linkage]

/-- After the passes every declaration is sanitised exactly when each function and each
variable that is dropped in favour of an existing one had the default visibility and
was not assumed to be local. -/
theorem declarations_sanitised_iff (lookup : SymbolLookup) (module : Module) :
    ((∀ f ∈ (runModulePasses lookup module).functions, Sanitised f) ∧
      ∀ gv ∈ (runModulePasses lookup module).globals, Sanitised gv) ↔
    (∀ f ∈ module.functions, reusedFunction lookup f = true →
        f.hasDefaultVisibility = true ∧ f.dsoLocal = false) ∧
      ∀ gv ∈ module.globals, reusedVariable lookup gv = true →
        gv.hasDefaultVisibility = true ∧ gv.dsoLocal = false := by
  simp only [runModulePasses_eq, List.forall_mem_map, function_sanitised_iff, variable_sanitised_iff]

/-- A hidden inline function that is long enough to be reused, as a module declares it
legally. -/
def hiddenInline : Function := ⟨text "f", .LinkOnceODRLinkage, .HiddenVisibility, true, some ⟨50⟩⟩

/-- The symbol lookup that finds every name. -/
def findsAll : SymbolLookup := ⟨fun _ => true, fun _ => true⟩

/-- The reused function is declared, hidden and assumed to be local after the passes
that sanitise declarations are over. -/
theorem hidden_inline_unsanitised : hiddenInline.Legal ∧
    ¬ ∀ f ∈ (runModulePasses findsAll ⟨[hiddenInline], []⟩).functions, Sanitised f := by
  refine ⟨⟨by decide, by decide⟩, ?_⟩
  intro sanitised
  have declared := sanitised hiddenInline.deleteBody (by decide) (by decide)
  exact absurd declared.2.1 (by decide)

/-- Every declaration has a linkage that the verifier admits. -/
def Linkable (module : Module) : Prop :=
  (∀ f ∈ module.functions, f.isDeclaration = true → f.linkage.isDeclarationLinkage = true) ∧
    ∀ gv ∈ module.globals, gv.isDeclaration = true → gv.linkage.isDeclarationLinkage = true

/-- Sanitising keeps an admissible declaration linkage. -/
theorem sanitised_linkage {gv : GlobalValue δ}
    (admissible : gv.linkage.isDeclarationLinkage = true) :
    (sanitised gv).linkage = gv.linkage := by
  cases linkage : gv.linkage <;>
    simp_all [sanitised, hasLocalLinkage, LinkageTypes.isLocalLinkage,
      LinkageTypes.isDeclarationLinkage]

/-- A function keeps an admissible declaration linkage. -/
theorem function_linkable {f : Function} (lookup : SymbolLookup)
    (before : f.isDeclaration = true → f.linkage.isDeclarationLinkage = true)
    (after : (throughFunction lookup f).isDeclaration = true) :
    (throughFunction lookup f).linkage.isDeclarationLinkage = true := by
  cases declared : f.isDeclaration with
  | true =>
    rw [function_declared declared, sanitised_linkage (before declared)]
    exact before declared
  | false =>
    rw [function_defined declared] at after ⊢
    cases kept : keepsLocal f with
    | true => simp [kept, setLinkage_isDeclaration, declared] at after
    | false =>
      cases reused : reusedFunction lookup f with
      | true => simp [LinkageTypes.isDeclarationLinkage]
      | false => simp [kept, reused, declared] at after

/-- A variable keeps an admissible declaration linkage unless it is declared type
information or loses its initializer. -/
theorem variable_linkable_iff {gv : GlobalVariable} (lookup : SymbolLookup)
    (before : gv.isDeclaration = true → gv.linkage.isDeclarationLinkage = true) :
    ((throughVariable lookup gv).isDeclaration = true →
      (throughVariable lookup gv).linkage.isDeclarationLinkage = true) ↔
    (gv.isDeclaration = true → namesTypeinfo gv = false) ∧ reusedVariable lookup gv = false := by
  cases declared : gv.isDeclaration with
  | true =>
    have linkage := sanitised_linkage (before declared)
    have typeinfo : namesTypeinfo (sanitised gv) = namesTypeinfo gv := by
      rw [namesTypeinfo, linkage]
      rfl
    have kept : reusedVariable lookup gv = false := by
      simp [reusedVariable, declared]
    rw [variable_declared declared, typeinfo]
    cases names : namesTypeinfo gv with
    | true =>
      have still : ((sanitised gv).setLinkage .WeakAnyLinkage).isDeclaration = true := by
        rw [setLinkage_isDeclaration]
        exact declared
      simp [still, LinkageTypes.isDeclarationLinkage]
    | false => simp [linkage, before declared, kept]
  | false =>
    rw [variable_defined declared]
    cases reused : reusedVariable lookup gv with
    | true =>
      have found := (reusedVariable_provided reused).2
      obtain ⟨notKept, notTypeinfo, _, notAdmissible⟩ := provided_linkOnce found
      simp [notKept, notTypeinfo, GlobalVariable.dropInitializer, isDeclaration, notAdmissible]
    | false =>
      split
      · simp [setLinkage_isDeclaration, declared]
      · simp [declared]

/-- In a module whose declarations have admissible linkages the passes keep them so
exactly when no declared external variable is type information, and no variable is
dropped in favour of an existing one. -/
theorem linkable_iff (lookup : SymbolLookup) (module : Module) (before : Linkable module) :
    Linkable (runModulePasses lookup module) ↔
      (∀ gv ∈ module.globals, gv.isDeclaration = true → namesTypeinfo gv = false) ∧
        ∀ gv ∈ module.globals, reusedVariable lookup gv = false := by
  obtain ⟨functions, globals⟩ := before
  simp only [Linkable, runModulePasses_eq, List.forall_mem_map]
  rw [and_iff_right fun f member => function_linkable lookup (functions f member), ← forall₂_and]
  exact forall₂_congr fun gv member => variable_linkable_iff lookup (globals gv member)

/-- The linkage of a declared vtable of another module. -/
def declaredVTable : GlobalVariable :=
  ⟨text "_ZTV1A", .ExternalLinkage, .DefaultVisibility, false, none⟩

/-- The equivalence on a module with a declared variable that is no type information. -/
theorem linkable_plain : Linkable (runModulePasses findsAll
      ⟨[], [⟨text "errno", .ExternalLinkage, .DefaultVisibility, false, none⟩]⟩) ↔
    (∀ gv ∈ [(⟨text "errno", .ExternalLinkage, .DefaultVisibility, false, none⟩ : GlobalVariable)],
        gv.isDeclaration = true → namesTypeinfo gv = false) ∧
      ∀ gv ∈ [(⟨text "errno", .ExternalLinkage, .DefaultVisibility, false, none⟩ : GlobalVariable)],
        reusedVariable findsAll gv = false :=
  linkable_iff findsAll ⟨[], [⟨text "errno", .ExternalLinkage, .DefaultVisibility, false, none⟩]⟩
    ⟨by decide, by decide⟩

/-- A declared vtable becomes a weak declaration. -/
theorem declared_vtable_unlinkable : Linkable ⟨[], [declaredVTable]⟩ ∧
    ¬ Linkable (runModulePasses findsAll ⟨[], [declaredVTable]⟩) := by
  refine ⟨⟨by decide, by decide⟩, ?_⟩
  rintro ⟨_, globals⟩
  have admissible := globals (declaredVTable.setLinkage .WeakAnyLinkage) (by decide) (by decide)
  exact absurd admissible (by decide)

/-- What the passes do to a global value, seen from its definition before. A definition
is lost only where it is link-once, found elsewhere and droppable. An internal one with
a linker name becomes weak, as do those of a further class; any other one that is still
there keeps its linkage. -/
structure Kept (lookup : SymbolLookup) (droppable weakened : GlobalValue δ → Prop)
    (before after : GlobalValue δ) : Prop where
  name : after.name = before.name
  lost : before.isDeclaration = false →
    (after.isDeclaration = true ↔ before.linkage.isLinkOnceLinkage = true ∧
      (lookup.doesSymbolAlreadyExist before.name = true ∨
        lookup.searchForAddressOfSymbol before.name = true) ∧ droppable before)
  internal : before.isDeclaration = false → before.linkage = .InternalLinkage → before.name ≠ [] →
    startswith before.name (text ".str") = false →
    after.isDeclaration = false ∧ after.linkage = .WeakAnyLinkage
  weak : before.isDeclaration = false → weakened before →
    after.isDeclaration = false ∧ after.linkage = .WeakAnyLinkage
  linkage : before.isDeclaration = false → after.isDeclaration = false →
    ¬ (before.linkage = .InternalLinkage ∧ before.name ≠ [] ∧
      startswith before.name (text ".str") = false) →
    ¬ weakened before → after.linkage = before.linkage

/-- The internal definitions with a linker name, spelled out. -/
theorem keepsLocal_iff (gv : GlobalValue δ) : keepsLocal gv = true ↔
    gv.linkage = .InternalLinkage ∧ gv.name ≠ [] ∧ startswith gv.name (text ".str") = false := by
  simp [keepsLocal, hasName, and_assoc]

/-- The link-once values that exist elsewhere, spelled out. -/
theorem provided_iff (lookup : SymbolLookup) (gv : GlobalValue δ) : provided lookup gv = true ↔
    gv.linkage.isLinkOnceLinkage = true ∧
      (lookup.doesSymbolAlreadyExist gv.name = true ∨
        lookup.searchForAddressOfSymbol gv.name = true) := by
  simp [provided]

section Fates

variable {lookup : SymbolLookup} {droppable weakened : GlobalValue δ → Prop}
  {before after : GlobalValue δ}

/-- Of a declaration only the name matters. -/
theorem kept_declared (declared : before.isDeclaration = true) (name : after.name = before.name) :
    Kept lookup droppable weakened before after := by
  constructor <;> simp [declared, name]

/-- A definition that is made weak is one that has a reason to be. -/
theorem kept_weak (defined : before.isDeclaration = false)
    (reason : keepsLocal before = true ∨ weakened before)
    (plain : before.linkage.isLinkOnceLinkage = false) :
    Kept lookup droppable weakened before (before.setLinkage .WeakAnyLinkage) where
  name := by simp
  lost _ := by simp [setLinkage_isDeclaration, defined, plain]
  internal _ _ _ _ := by simp [setLinkage_isDeclaration, defined]
  weak _ _ := by simp [setLinkage_isDeclaration, defined]
  linkage _ _ notInternal notWeakened := by
    rcases reason with kept | weak
    · exact absurd ((keepsLocal_iff before).mp kept) notInternal
    · exact absurd weak notWeakened

/-- An internal definition with a linker name becomes weak. -/
theorem kept_internal (defined : before.isDeclaration = false) (kept : keepsLocal before = true) :
    Kept lookup droppable weakened before (before.setLinkage .WeakAnyLinkage) := by
  have internal := ((keepsLocal_iff before).mp kept).1
  exact kept_weak defined (.inl kept) (by simp [internal, LinkageTypes.isLinkOnceLinkage])

/-- A lost definition is link-once, found elsewhere and droppable. -/
theorem kept_lost (found : provided lookup before = true) (drops : droppable before)
    (strong : ¬ weakened before) (name : after.name = before.name)
    (declared : after.isDeclaration = true) : Kept lookup droppable weakened before after where
  name := name
  lost _ := by
    rw [provided_iff] at found
    exact iff_of_true declared ⟨found.1, found.2, drops⟩
  internal _ internal named plain := by
    have kept := (keepsLocal_iff before).mpr ⟨internal, named, plain⟩
    simp [(provided_linkOnce found).1] at kept
  weak _ weak := absurd weak strong
  linkage _ defined := by simp [declared] at defined

/-- Any other definition stays as it is. -/
theorem kept_same (notKept : keepsLocal before = false) (strong : ¬ weakened before)
    (needed : ¬ (provided lookup before = true ∧ droppable before)) :
    Kept lookup droppable weakened before before where
  name := rfl
  lost defined := by
    rw [provided_iff] at needed
    apply iff_of_false
    · simp [defined]
    · rintro ⟨linkOnce, found, lost⟩
      exact needed ⟨⟨linkOnce, found⟩, lost⟩
  internal _ internal named plain := by
    have kept := (keepsLocal_iff before).mpr ⟨internal, named, plain⟩
    simp [notKept] at kept
  weak _ weak := absurd weak strong
  linkage _ _ _ _ := rfl

end Fates

/-- A function of at least 50 instructions. -/
theorem isLarge_iff (f : Function) : isLarge f = true ↔
    ∃ body, f.definition = some body ∧ 50 ≤ body.instructionCount := by
  simp [isLarge, Option.any_eq_true]

/-- Functions of at least 50 instructions are droppable, and no function is type
information. -/
theorem function_kept (lookup : SymbolLookup) (f : Function) :
    Kept lookup (fun f => ∃ body, f.definition = some body ∧ 50 ≤ body.instructionCount)
      (fun _ => False) f (throughFunction lookup f) := by
  cases declared : f.isDeclaration with
  | true =>
    rw [function_declared declared]
    exact kept_declared declared rfl
  | false =>
    rw [function_defined declared]
    cases kept : keepsLocal f with
    | true => exact kept_internal declared kept
    | false =>
      cases reused : reusedFunction lookup f with
      | true =>
        have split := Bool.and_eq_true_iff.mp reused
        exact kept_lost split.2 ((isLarge_iff f).mp split.1) id f.deleteBody_name
          (by simp [isDeclaration])
      | false =>
        apply kept_same kept id
        intro lost
        rw [← isLarge_iff] at lost
        simp [reusedFunction, lost] at reused

/-- Every variable is droppable, and the external type information is made weak. -/
theorem variable_kept (lookup : SymbolLookup) (gv : GlobalVariable) :
    Kept lookup (fun _ => True)
      (fun gv => gv.linkage = .ExternalLinkage ∧ startswith gv.name (text "_ZT") = true)
      gv (throughVariable lookup gv) := by
  have typeinfo_iff : namesTypeinfo gv = true ↔
      gv.linkage = .ExternalLinkage ∧ startswith gv.name (text "_ZT") = true := by
    simp [namesTypeinfo]
  cases declared : gv.isDeclaration with
  | true =>
    rw [variable_declared declared]
    apply kept_declared declared
    split <;> simp [sanitised]
  | false =>
    rw [variable_defined declared]
    cases kept : keepsLocal gv with
    | true => exact kept_internal declared kept
    | false =>
      cases typeinfo : namesTypeinfo gv with
      | true =>
        have external := typeinfo_iff.mp typeinfo
        exact kept_weak declared (.inr external)
          (by simp [external.1, LinkageTypes.isLinkOnceLinkage])
      | false =>
        have strong : ¬ (gv.linkage = .ExternalLinkage ∧ startswith gv.name (text "_ZT") = true) := by
          rw [← typeinfo_iff, typeinfo]
          exact Bool.false_ne_true
        cases reused : reusedVariable lookup gv with
        | true => exact kept_lost (reusedVariable_provided reused).2 trivial strong rfl rfl
        | false =>
          apply kept_same kept strong
          intro lost
          simp [reusedVariable, declared, lost.1] at reused

/-- The passes lose no definition that is not provided elsewhere, keep or weaken the
linkage of the others, and change no name. -/
theorem pipeline_keeps (lookup : SymbolLookup) (module : Module) :
    List.Forall₂
      (Kept lookup (fun f => ∃ body, f.definition = some body ∧ 50 ≤ body.instructionCount)
        fun _ => False)
      module.functions (runModulePasses lookup module).functions ∧
    List.Forall₂
      (Kept lookup (fun _ => True)
        fun gv => gv.linkage = .ExternalLinkage ∧ startswith gv.name (text "_ZT") = true)
      module.globals (runModulePasses lookup module).globals := by
  rw [runModulePasses_eq]
  constructor
  · rw [List.forall₂_map_right_iff]
    apply List.forall₂_same.mpr
    intro f _
    exact function_kept lookup f
  · rw [List.forall₂_map_right_iff]
    apply List.forall₂_same.mpr
    intro gv _
    exact variable_kept lookup gv

end CppInterpreter.ModulePipeline
