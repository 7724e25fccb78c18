import CppInterpreter.CudaStructors
import CppInterpreter.ModulePipeline

/-!
# What the module passes report

A pass manager drops the analyses of a module when a pass reports a change. Each pass
reports exactly the changes that it makes, and leaves nothing to change for itself: the
value that it rewrites no longer has the linkage, the assumptions, the definition or the
name that it looked for. Setting a visibility or a linkage may set the local flag on the
way, but the flag that counts in the end is the one that is cleared last.
-/

namespace CppInterpreter.PassReports

open Bytes GlobalValue ModulePipeline Sweeps

variable {δ : Type}

/-- A weak value is not internal any more. -/
theorem keepLocal_settles :
    Settles (@KeepLocalGVPass.runOnGlobal δ) KeepLocalGVPass.runOnGlobal := by
  apply guarded_settles (fun gv => !gv.isDeclaration && keepsLocal gv)
    (fun gv => gv.setLinkage .WeakAnyLinkage)
  · intro gv
    simp [keepLocal_eq]
  · intro gv _
    simp [keepsLocal]

/-- A sanitised declaration assumes nothing. -/
theorem preventLocal_settles :
    Settles (@PreventLocalOptPass.runOnGlobal δ) PreventLocalOptPass.runOnGlobal := by
  apply guarded_settles assumesLocal sanitised preventLocal_eq
  intro gv _
  obtain ⟨linkage, visibility, dsoLocal⟩ := sanitised_assumes gv
  simp [assumesLocal, linkage, visibility, dsoLocal]

/-- Weak type information is not external any more. -/
theorem weakTypeinfo_settles :
    Settles WeakTypeinfoVTablePass.runOnGlobalVariable WeakTypeinfoVTablePass.runOnGlobalVariable := by
  apply guarded_settles namesTypeinfo (fun gv => gv.setLinkage .WeakAnyLinkage) weakTypeinfo_eq
  intro gv _
  simp [namesTypeinfo]

/-- A function without a body has none to drop. -/
theorem reuseFunc_settles (lookup : SymbolLookup) :
    Settles (ReuseExistingWeakSymbols.runOnFunc lookup) (ReuseExistingWeakSymbols.runOnFunc lookup) := by
  apply guarded_settles (reusedFunction lookup) Function.deleteBody (reuseFunc_eq lookup)
  intro f _
  simp [reusedFunction, isLarge]

/-- A variable without an initializer has none to drop. -/
theorem reuseVar_settles (lookup : SymbolLookup) :
    Settles (ReuseExistingWeakSymbols.runOnVar lookup) (ReuseExistingWeakSymbols.runOnVar lookup) := by
  apply guarded_settles (reusedVariable lookup) GlobalVariable.dropInitializer (reuseVar_eq lookup)
  intro gv _
  simp [reusedVariable, GlobalVariable.dropInitializer, isDeclaration]

/-- Values that are passed over are settled. -/
theorem skipped_settles : Settles (fun f : Function => (false, f)) fun f => (false, f) where
  reports _ := by simp
  again _ := rfl

/-- A sweep over a module settles when its rewrites do. -/
theorem sweep_settles {onFunction : Function → Bool × Function}
    {onGlobal : GlobalVariable → Bool × GlobalVariable} (functions : Settles onFunction onFunction)
    (globals : Settles onGlobal onGlobal) :
    Settles (fun module => Module.sweep module onFunction onGlobal)
      fun module => module.sweep onFunction onGlobal where
  reports module := by
    have left := (each_settles functions).reports module.functions
    have right := (each_settles globals).reports module.globals
    simp only [each] at left right
    obtain ⟨fs, gvs⟩ := module
    simp only [Module.sweep, Bool.or_eq_true, left, right, ne_eq, Module.mk.injEq, not_and_or]
  again module := by
    have left := (each_settles functions).again module.functions
    have right := (each_settles globals).again module.globals
    simp only [each, Prod.mk.injEq] at left right
    simp only [Module.sweep, left, right, Bool.or_false]

/-- The passes that run for every module settle, whatever the lookup answers. -/
theorem modulePass_settles (lookup : SymbolLookup) (pass : ModulePass) :
    Settles (fun module => pass.runOnModule lookup module) fun module => pass.runOnModule lookup module := by
  cases pass with
  | KeepLocalGVPass => exact sweep_settles keepLocal_settles keepLocal_settles
  | PreventLocalOptPass => exact sweep_settles preventLocal_settles preventLocal_settles
  | WeakTypeinfoVTablePass => exact sweep_settles skipped_settles weakTypeinfo_settles
  | ReuseExistingWeakSymbols => exact sweep_settles (reuseFunc_settles lookup) (reuseVar_settles lookup)

section Structors

open UniqueCUDAStructorName

variable {renames : GlobalValue δ → Bool}

/-- A value is renamed once at most. -/
theorem renameIf_once (named : ∀ gv, renames gv = true → gv.name ∈ structors) (clone : CloneText)
    (moduleName : Bytes) (table : List Bytes) (gv : GlobalValue δ) :
    renames (renameIf renames clone moduleName table gv).2.1 = false := by
  cases chosen : renames gv with
  | true =>
    have structor := named gv chosen
    obtain ⟨tail, suffixed⟩ := setName_suffixed clone moduleName table structor
    rw [renameIf, if_pos chosen, Bool.eq_false_iff]
    intro again
    have still := named _ again
    rw [suffixed] at still
    exact suffixed_ordinary structor tail still
  | false => simp [renameIf, chosen]

/-- A renamed value has another name, so it is another value. -/
theorem renameIf_reports (named : ∀ gv, renames gv = true → gv.name ∈ structors) (clone : CloneText)
    (moduleName : Bytes) (table : List Bytes) (gv : GlobalValue δ) :
    (renameIf renames clone moduleName table gv).1 = true ↔
      (renameIf renames clone moduleName table gv).2.1 ≠ gv := by
  have once := renameIf_once named clone moduleName table gv
  cases chosen : renames gv with
  | true =>
    have different : (renameIf renames clone moduleName table gv).2.1 ≠ gv := by
      intro same
      simp [same, chosen] at once
    exact iff_of_true (by simp [renameIf, chosen]) different
  | false => simp [renameIf, chosen]

/-- A second sweep, whatever the table holds by then, finds nothing to rename. -/
theorem rename_again (named : ∀ gv, renames gv = true → gv.name ∈ structors)
    (clone other : CloneText) (moduleName : Bytes) (table later : List Bytes)
    (values : List (GlobalValue δ)) :
    let swept := (thread (renameIf renames clone moduleName) table values).2.1
    thread (renameIf renames other moduleName) later swept = (false, swept, later) := by
  apply thread_untouched
  intro gv member state
  have plain := thread_establishes (fun gv => renames gv = false) (renameIf_once named clone moduleName)
    table values gv member
  simp [renameIf, plain]

/-- The pass for CUDA modules settles, whatever is appended to names that are taken. -/
theorem uniqueStructors_settles (clone other : CloneText) :
    Settles (UniqueCUDAStructorName.runOnModule clone) (UniqueCUDAStructorName.runOnModule other) where
  reports m := by
    have functions := thread_reports (renameIf_reports structorFunction_mem clone m.name)
    have globals := thread_reports (renameIf_reports structorVariable_mem clone m.name)
    obtain ⟨⟨fs, gvs⟩, name, others⟩ := m
    simp only [UniqueCUDAStructorName.runOnModule, runOnFunction_eq, runOnGlobal_eq,
      Bool.or_eq_true, functions, globals, ne_eq, NamedModule.mk.injEq, Module.mk.injEq, and_true,
      not_and_or]
  again m := by
    simp only [UniqueCUDAStructorName.runOnModule, runOnFunction_eq, runOnGlobal_eq,
      rename_again structorFunction_mem, rename_again structorVariable_mem, Bool.or_false]

end Structors

/-- Every module pass reports a change exactly when it leaves another module, and a second
run of it right after changes and reports nothing. -/
theorem passes_settle :
    (∀ (lookup : SymbolLookup) (pass : ModulePass),
      Settles (fun module => pass.runOnModule lookup module)
        fun module => pass.runOnModule lookup module) ∧
    ∀ clone other : UniqueCUDAStructorName.CloneText,
      Settles (UniqueCUDAStructorName.runOnModule clone) (UniqueCUDAStructorName.runOnModule other) :=
  ⟨modulePass_settles, uniqueStructors_settles⟩

end CppInterpreter.PassReports
