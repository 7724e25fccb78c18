import CppInterpreter.GlobalValues

/-!
# The module passes

Each pass sweeps over the functions and the global variables of a module and rewrites
them one by one, so a pass acts on a module through its action on single global
values. It reports whether it changed any of them.

Four passes run for every module, in the order in which `CreatePasses` adds them. The
last of them asks the JIT and the process for existing symbols.
-/

namespace CppInterpreter

open Bytes

/-- The answers to a search for an existing definition: among the symbols that the JIT
compiled before, and in the process with its loaded libraries. -/
structure SymbolLookup where
  doesSymbolAlreadyExist : Bytes → Bool
  searchForAddressOfSymbol : Bytes → Bool

variable {δ : Type}

/-- Rewrite a module value by value, reporting whether any rewrite was a change. -/
def Module.sweep (module : Module) (onFunction : Function → Bool × Function)
    (onGlobal : GlobalVariable → Bool × GlobalVariable) : Bool × Module :=
  let functions := module.functions.map onFunction
  let globals := module.globals.map onGlobal
  (functions.any (·.1) || globals.any (·.1), ⟨functions.map (·.2), globals.map (·.2)⟩)

namespace KeepLocalGVPass

def runOnGlobal (gv : GlobalValue δ) : Bool × GlobalValue δ :=
  if gv.isDeclaration then (false, gv)
  else if !gv.hasName then (false, gv)
  else if startswith gv.name (text ".str") then (false, gv)
  else if !gv.linkage.isDiscardableIfUnused then (false, gv)
  else if gv.linkage = .InternalLinkage then (true, gv.setLinkage .WeakAnyLinkage)
  else (false, gv)

def runOnModule (module : Module) : Bool × Module := module.sweep runOnGlobal runOnGlobal

end KeepLocalGVPass

namespace PreventLocalOptPass

def runOnGlobal (gv : GlobalValue δ) : Bool × GlobalValue δ :=
  if !gv.isDeclaration then (false, gv)
  else
    let (changed, gv) :=
      if gv.hasLocalLinkage then (true, gv.setLinkage .ExternalLinkage) else (false, gv)
    let (changed, gv) :=
      if !gv.hasDefaultVisibility then (true, gv.setVisibility .DefaultVisibility) else (changed, gv)
    -- The flag comes last, because the two setters above may set it.
    if gv.dsoLocal then (true, gv.setDSOLocal false) else (changed, gv)

def runOnModule (module : Module) : Bool × Module := module.sweep runOnGlobal runOnGlobal

end PreventLocalOptPass

namespace WeakTypeinfoVTablePass

/-- The pass looks at the linkage and the name alone: it treats a declaration like a
definition. -/
def runOnGlobalVariable (gv : GlobalVariable) : Bool × GlobalVariable :=
  if gv.linkage ≠ .ExternalLinkage then (false, gv)
  else if startswith gv.name (text "_ZT") then (true, gv.setLinkage .WeakAnyLinkage)
  else (false, gv)

def runOnModule (module : Module) : Bool × Module :=
  module.sweep (fun f => (false, f)) runOnGlobalVariable

end WeakTypeinfoVTablePass

namespace ReuseExistingWeakSymbols

def shouldRemoveGlobalDefinition (lookup : SymbolLookup) (gv : GlobalValue δ) : Bool :=
  if !gv.linkage.isDiscardableIfUnused || !gv.linkage.isWeakForLinker then false
  else if lookup.doesSymbolAlreadyExist gv.name then true
  else lookup.searchForAddressOfSymbol gv.name

def runOnVar (lookup : SymbolLookup) (gv : GlobalVariable) : Bool × GlobalVariable :=
  if gv.isDeclaration then (false, gv)
  else if shouldRemoveGlobalDefinition lookup gv then (true, gv.dropInitializer)
  else (false, gv)

/-- A declaration has no instructions; a small function stays for inlining. -/
def runOnFunc (lookup : SymbolLookup) (func : Function) : Bool × Function :=
  match func.definition with
  | none => (false, func)
  | some body =>
    if body.instructionCount < 50 then (false, func)
    else if shouldRemoveGlobalDefinition lookup func then (true, func.deleteBody)
    else (false, func)

def runOnModule (lookup : SymbolLookup) (module : Module) : Bool × Module :=
  module.sweep (runOnFunc lookup) (runOnVar lookup)

end ReuseExistingWeakSymbols

/-- The passes that run for every module. -/
inductive ModulePass where
  | KeepLocalGVPass
  | PreventLocalOptPass
  | WeakTypeinfoVTablePass
  | ReuseExistingWeakSymbols
deriving DecidableEq, Repr

/-- `runOnModule` of a pass. -/
def ModulePass.runOnModule (lookup : SymbolLookup) (module : Module) : ModulePass → Bool × Module
  | .KeepLocalGVPass => CppInterpreter.KeepLocalGVPass.runOnModule module
  | .PreventLocalOptPass => CppInterpreter.PreventLocalOptPass.runOnModule module
  | .WeakTypeinfoVTablePass => CppInterpreter.WeakTypeinfoVTablePass.runOnModule module
  | .ReuseExistingWeakSymbols => CppInterpreter.ReuseExistingWeakSymbols.runOnModule lookup module

/-- The order in which `CreatePasses` adds them. -/
def modulePasses : List ModulePass :=
  [.KeepLocalGVPass, .PreventLocalOptPass, .WeakTypeinfoVTablePass, .ReuseExistingWeakSymbols]

/-- Run passes one after the other, as a pass manager does. -/
def runPasses (lookup : SymbolLookup) (passes : List ModulePass) (module : Module) : Module :=
  passes.foldl (fun module pass => (pass.runOnModule lookup module).2) module

/-- The module that the four passes leave. -/
def runModulePasses (lookup : SymbolLookup) (module : Module) : Module :=
  runPasses lookup modulePasses module

end CppInterpreter
