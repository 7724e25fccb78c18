import CppInterpreter.ModulePipeline
import Mathlib.Data.List.Nodup

/-!
# Sessions of modules

A session brings one module after the other to the passes. LLVM's optimisations follow
them in the same pass manager; these may discard what the linkage of a value allows to
discard. The JIT takes what is left, and from then on it knows how to emit the symbols
of the module, so the passes of later modules find them.

A definition that the passes take away is there already, and one that has to last is
found ever after. What is there already is not emitted once more, and no two modules
give the JIT a strong definition of the same name unless both were submitted with one.
-/

namespace CppInterpreter.ModuleSessions

open Bytes GlobalValue ModulePipeline

variable {δ : Type}

/-- Whether the JIT takes a symbol from a value: it needs a name, and a definition that is
visible to other modules. -/
def emits (gv : GlobalValue δ) : Bool :=
  !gv.isDeclaration && gv.hasName && !gv.hasLocalLinkage &&
    gv.linkage ≠ .AvailableExternallyLinkage && gv.linkage ≠ .AppendingLinkage

/-- The symbols that the JIT takes from a module. -/
def symbolsOf (module : Module) : List Bytes :=
  (module.functions.filter emits).map (·.name) ++ (module.globals.filter emits).map (·.name)

/-- A definition with a name and a linkage. -/
def Defines (values : List (GlobalValue δ)) (name : Bytes) (linkage : LinkageTypes) : Prop :=
  ∃ gv ∈ values, gv.isDeclaration = false ∧ gv.name = name ∧ gv.linkage = linkage

/-- What optimisation may do to values: it keeps the definitions that must not be discarded
when they are unused, and it brings no symbol and no linkage of its own. -/
structure Optimised (before after : List (GlobalValue δ)) : Prop where
  kept : ∀ gv ∈ before, gv.isDeclaration = false → gv.linkage.isDiscardableIfUnused = false →
    Defines after gv.name gv.linkage
  origin : ∀ gv ∈ after, emits gv = true → Defines before gv.name gv.linkage

/-- A module that was submitted, and what the JIT was given of it. -/
structure Submission where
  submitted : Module
  emitted : Module

/-- The passes run on the submitted module, and the optimisations after them. -/
structure Submission.Processed (lookup : SymbolLookup) (submission : Submission) : Prop where
  functions : Optimised (runModulePasses lookup submission.submitted).functions
    submission.emitted.functions
  globals : Optimised (runModulePasses lookup submission.submitted).globals
    submission.emitted.globals

/-- The passes of a module find the symbols of the JIT and those of the process. -/
def lookupIn (process : Bytes → Bool) (symbols : List Bytes) : SymbolLookup :=
  ⟨symbols.contains, process⟩

/-- The symbols of the JIT after a session. -/
def symbolsAfter (symbols : List Bytes) (session : List Submission) : List Bytes :=
  symbols ++ session.flatMap fun submission => symbolsOf submission.emitted

/-- Each module is processed in the presence of the symbols of those before it. -/
def Session (process : Bytes → Bool) : List Bytes → List Submission → Prop
  | _, [] => True
  | symbols, next :: rest =>
    next.Processed (lookupIn process symbols) ∧
      Session process (symbols ++ symbolsOf next.emitted) rest

/-- A name that the JIT or the process resolves. -/
def Resolves (process : Bytes → Bool) (symbols : List Bytes) (name : Bytes) : Prop :=
  name ∈ symbols ∨ process name = true

/-- The linkages that are not discardable, apart from that of the arrays which the linker
appends to one another. -/
def exports (lt : LinkageTypes) : Bool := !lt.isDiscardableIfUnused && lt ≠ .AppendingLinkage

/-- A definition that later modules have to find: one with a linkage of this kind, or an
internal one with a linker name. -/
structure Lasting (gv : GlobalValue δ) : Prop where
  defined : gv.isDeclaration = false
  named : gv.name ≠ []
  linkage : exports gv.linkage = true ∨
    (gv.linkage = .InternalLinkage ∧ startswith gv.name (text ".str") = false)

section Sessions

variable {process : Bytes → Bool} {symbols : List Bytes} {submission : Submission}

/-- The symbols of a session are those of its first part, and then those of its second. -/
theorem symbolsAfter_append (symbols : List Bytes) (session rest : List Submission) :
    symbolsAfter symbols (session ++ rest) = symbolsAfter (symbolsAfter symbols session) rest := by
  simp [symbolsAfter, List.append_assoc]

/-- A name that is resolved once stays so. -/
theorem resolves_later {name : Bytes} (session : List Submission)
    (resolved : Resolves process symbols name) :
    Resolves process (symbolsAfter symbols session) name :=
  resolved.imp_left (List.mem_append_left _)

/-- Any module of a session is processed in the presence of the symbols before it. -/
theorem session_processes {before after : List Submission}
    (session : Session process symbols (before ++ submission :: after)) :
    submission.Processed (lookupIn process (symbolsAfter symbols before)) := by
  induction before generalizing symbols with
  | nil => simpa [symbolsAfter] using session.1
  | cons first rest inductionHypothesis =>
    have later := inductionHypothesis session.2
    simpa [symbolsAfter, List.append_assoc] using later

/-- The lookup of a session answers as the JIT and the process resolve. -/
theorem provided_lookupIn (gv : GlobalValue δ) : provided (lookupIn process symbols) gv = true ↔
    gv.linkage.isLinkOnceLinkage = true ∧ Resolves process symbols gv.name := by
  simp [provided_iff, lookupIn, Resolves]

end Sessions

/-- A session in which the optimisations leave everything as it is. -/
def unoptimised (process : Bytes → Bool) : List Bytes → List Module → List Submission
  | _, [] => []
  | symbols, module :: rest =>
    let emitted := runModulePasses (lookupIn process symbols) module
    ⟨module, emitted⟩ :: unoptimised process (symbols ++ symbolsOf emitted) rest

/-- Any modules make such a session. -/
theorem unoptimised_session (process : Bytes → Bool) (symbols : List Bytes) (modules : List Module) :
    Session process symbols (unoptimised process symbols modules) := by
  have unchanged : ∀ {δ : Type} (values : List (GlobalValue δ)), Optimised values values := by
    intro δ values
    constructor
    · intro gv member defined _
      exact ⟨gv, member, defined, rfl, rfl⟩
    · intro gv member symbol
      simp only [emits, Bool.and_eq_true, Bool.not_eq_true'] at symbol
      exact ⟨gv, member, symbol.1.1.1.1, rfl, rfl⟩
  induction modules generalizing symbols with
  | nil => trivial
  | cons module rest inductionHypothesis =>
    exact ⟨⟨unchanged _, unchanged _⟩, inductionHypothesis _⟩

/-- A large inline function and an internal counter, as a header brings them to each module. -/
def headerModule : Module where
  functions := [⟨text "f", .LinkOnceODRLinkage, .DefaultVisibility, false, some ⟨50⟩⟩]
  globals := [⟨text "counter", .InternalLinkage, .DefaultVisibility, true, some ()⟩]

/-- A definition whose linkage exports it is a symbol. -/
theorem exported_emits {gv : GlobalValue δ} (defined : gv.isDeclaration = false)
    (named : gv.name ≠ []) (exported : exports gv.linkage = true) : emits gv = true := by
  unfold exports at exported
  cases linkage : gv.linkage <;>
    simp_all [emits, hasName, hasLocalLinkage, LinkageTypes.isDiscardableIfUnused,
      LinkageTypes.isLinkOnceLinkage, LinkageTypes.isLocalLinkage]

/-- A link-once value is not exported: it may be discarded. -/
theorem provided_not_exported {lookup : SymbolLookup} {gv : GlobalValue δ}
    (found : provided lookup gv = true) : exports gv.linkage = false := by
  simp [exports, LinkageTypes.isDiscardableIfUnused, ((provided_iff lookup gv).mp found).1]

/-- A lasting definition is exported unless the first pass makes it weak. -/
theorem lasting_exported {gv : GlobalValue δ} (lasting : Lasting gv) :
    keepsLocal gv = true ∨ exports gv.linkage = true := by
  obtain exported | ⟨internal, plain⟩ := lasting.linkage
  · exact .inr exported
  · exact .inl ((keepsLocal_iff gv).mpr ⟨internal, lasting.named, plain⟩)

/-- The passes export a lasting function. -/
theorem function_exported {f : Function} (lookup : SymbolLookup) (lasting : Lasting f) :
    (throughFunction lookup f).isDeclaration = false ∧ (throughFunction lookup f).name = f.name ∧
      exports (throughFunction lookup f).linkage = true := by
  rw [function_defined lasting.defined]
  cases kept : keepsLocal f with
  | true =>
    refine ⟨?_, f.setLinkage_name _, ?_⟩
    · simpa [setLinkage_isDeclaration] using lasting.defined
    · simp [exports, LinkageTypes.isDiscardableIfUnused, LinkageTypes.isLinkOnceLinkage,
        LinkageTypes.isLocalLinkage]
  | false =>
    have exported : exports f.linkage = true := by
      simpa [kept] using lasting_exported lasting
    have needed : reusedFunction lookup f = false := by
      by_contra reused
      have found := (reusedFunction_provided (Bool.of_not_eq_false reused)).2
      simp [provided_not_exported found] at exported
    simpa [needed] using ⟨lasting.defined, exported⟩

/-- The passes export a lasting variable. -/
theorem variable_exported {gv : GlobalVariable} (lookup : SymbolLookup) (lasting : Lasting gv) :
    (throughVariable lookup gv).isDeclaration = false ∧ (throughVariable lookup gv).name = gv.name ∧
      exports (throughVariable lookup gv).linkage = true := by
  rw [variable_defined lasting.defined]
  split
  · refine ⟨?_, gv.setLinkage_name _, ?_⟩
    · simpa [setLinkage_isDeclaration] using lasting.defined
    · simp [exports, LinkageTypes.isDiscardableIfUnused, LinkageTypes.isLinkOnceLinkage,
        LinkageTypes.isLocalLinkage]
  · next notWeakened =>
    have exported : exports gv.linkage = true := by
      obtain kept | exported := lasting_exported lasting
      · exact absurd (.inl kept) notWeakened
      · exact exported
    have needed : reusedVariable lookup gv = false := by
      by_contra reused
      have found := (reusedVariable_provided (Bool.of_not_eq_false reused)).2
      simp [provided_not_exported found] at exported
    simpa [needed] using ⟨lasting.defined, exported⟩

/-- What is exported on the way to the optimisations is a symbol behind them. -/
theorem optimised_emits {before after : List (GlobalValue δ)} (optimised : Optimised before after)
    {gv : GlobalValue δ} (member : gv ∈ before) (defined : gv.isDeclaration = false)
    (named : gv.name ≠ []) (exported : exports gv.linkage = true) :
    gv.name ∈ (after.filter emits).map (·.name) := by
  have needed : gv.linkage.isDiscardableIfUnused = false := by
    simp only [exports, Bool.and_eq_true, Bool.not_eq_true'] at exported
    exact exported.1
  obtain ⟨left, stays, still, sameName, sameLinkage⟩ := optimised.kept gv member defined needed
  have symbol : emits left = true :=
    exported_emits still (sameName ▸ named) (sameLinkage ▸ exported)
  exact List.mem_map.mpr ⟨left, List.mem_filter.mpr ⟨stays, symbol⟩, sameName⟩

/-- A lasting definition of a module is among the symbols that the JIT takes from it. -/
theorem processed_emits {lookup : SymbolLookup} {submission : Submission}
    (processed : submission.Processed lookup) :
    (∀ f ∈ submission.submitted.functions, Lasting f → f.name ∈ symbolsOf submission.emitted) ∧
      ∀ gv ∈ submission.submitted.globals, Lasting gv → gv.name ∈ symbolsOf submission.emitted := by
  obtain ⟨functions, globals⟩ := processed
  rw [runModulePasses_eq] at functions globals
  constructor
  · intro f member lasting
    obtain ⟨defined, name, exported⟩ := function_exported lookup lasting
    rw [← name]
    exact List.mem_append_left _ (optimised_emits functions (List.mem_map_of_mem member) defined
      (name ▸ lasting.named) exported)
  · intro gv member lasting
    obtain ⟨defined, name, exported⟩ := variable_exported lookup lasting
    rw [← name]
    exact List.mem_append_right _ (optimised_emits globals (List.mem_map_of_mem member) defined
      (name ▸ lasting.named) exported)

/-- The passes take a function away only where its name is provided. -/
theorem function_taken {lookup : SymbolLookup} {f : Function} (defined : f.isDeclaration = false)
    (taken : (throughFunction lookup f).isDeclaration = true) : provided lookup f = true := by
  rw [function_defined defined] at taken
  split at taken
  · simp [setLinkage_isDeclaration, defined] at taken
  · split at taken
    · next reused => exact (reusedFunction_provided reused).2
    · simp [defined] at taken

/-- The passes take a variable away only where its name is provided. -/
theorem variable_taken {lookup : SymbolLookup} {gv : GlobalVariable}
    (defined : gv.isDeclaration = false)
    (taken : (throughVariable lookup gv).isDeclaration = true) : provided lookup gv = true := by
  rw [variable_defined defined] at taken
  split at taken
  · simp [setLinkage_isDeclaration, defined] at taken
  · split at taken
    · next reused => exact (reusedVariable_provided reused).2
    · simp [defined] at taken

/-- A definition that is lasting, or that the passes have taken away. -/
def LastingOrTaken (through : GlobalValue δ → GlobalValue δ) (gv : GlobalValue δ) : Prop :=
  Lasting gv ∨ (gv.isDeclaration = false ∧ (through gv).isDeclaration = true)

/-- No definition is lost in a session. Each one that has to last, and each one that the
passes take away, is resolved at the end, whatever the optimisations discard. -/
theorem session_resolves (process : Bytes → Bool) (symbols : List Bytes)
    (before : List Submission) (submission : Submission) (after : List Submission)
    (session : Session process symbols (before ++ submission :: after)) :
    let lookup := lookupIn process (symbolsAfter symbols before)
    let resolved := Resolves process (symbolsAfter symbols (before ++ submission :: after))
    (∀ f ∈ submission.submitted.functions,
        LastingOrTaken (throughFunction lookup) f → resolved f.name) ∧
      ∀ gv ∈ submission.submitted.globals,
        LastingOrTaken (throughVariable lookup) gv → resolved gv.name := by
  intro lookup resolved
  have processed := session_processes session
  have emitted : ∀ name ∈ symbolsOf submission.emitted, resolved name := by
    intro name member
    apply Or.inl
    simp only [symbolsAfter, List.flatMap_append, List.flatMap_cons, List.mem_append]
    exact .inr (.inr (.inl member))
  have found : ∀ {δ : Type} (gv : GlobalValue δ), provided lookup gv = true → resolved gv.name := by
    intro δ gv found
    have earlier := ((provided_lookupIn gv).mp found).2
    simpa only [resolved, symbolsAfter_append] using resolves_later (submission :: after) earlier
  constructor
  · rintro f member (lasting | ⟨defined, taken⟩)
    · exact emitted f.name ((processed_emits processed).1 f member lasting)
    · exact found f (function_taken defined taken)
  · rintro gv member (lasting | ⟨defined, taken⟩)
    · exact emitted gv.name ((processed_emits processed).2 gv member lasting)
    · exact found gv (variable_taken defined taken)

/-- The function that the second module loses is the one of the first. -/
theorem header_resolves : Resolves (fun _ => false)
    (symbolsAfter [] (unoptimised (fun _ => false) [] [headerModule, headerModule])) (text "f") := by
  let process : Bytes → Bool := fun _ => false
  let first : Submission := ⟨headerModule, runModulePasses (lookupIn process []) headerModule⟩
  let second : Submission :=
    ⟨headerModule, runModulePasses (lookupIn process (symbolsOf first.emitted)) headerModule⟩
  have runs : Session process [] ([first] ++ second :: []) :=
    unoptimised_session process [] [headerModule, headerModule]
  have resolved := (session_resolves process [] [first] second [] runs).1
  exact resolved ⟨text "f", .LinkOnceODRLinkage, .DefaultVisibility, false, some ⟨50⟩⟩
    List.mem_cons_self (.inr ⟨rfl, by decide⟩)

/-- Values with a name have it for themselves. -/
def Unambiguous (module : Module) : Prop :=
  ((module.functions.map (·.name) ++ module.globals.map (·.name)).filter (· ≠ [])).Nodup

/-- Two values of a list with the same name are one, if their names are distinct. -/
theorem same_value {values : List (GlobalValue δ)} {name : Bytes}
    (distinct : ((values.map (·.name)).filter (· ≠ [])).Nodup) (named : name ≠ []) :
    ∀ gv ∈ values, ∀ other ∈ values, gv.name = name → other.name = name → gv = other := by
  intro gv member other another same equal
  rw [List.filter_map] at distinct
  refine List.inj_on_of_nodup_map distinct ?_ ?_ (same.trans equal.symm)
  · exact List.mem_filter.mpr ⟨member, by simpa [same] using named⟩
  · exact List.mem_filter.mpr ⟨another, by simpa [equal] using named⟩

section Unambiguous

variable {module : Module}

/-- Named functions are distinct. -/
theorem Unambiguous.functions (unambiguous : Unambiguous module) :
    ((module.functions.map (·.name)).filter (· ≠ [])).Nodup := by
  rw [Unambiguous, List.filter_append] at unambiguous
  exact (List.nodup_append.mp unambiguous).1

/-- Named variables are distinct. -/
theorem Unambiguous.globals (unambiguous : Unambiguous module) :
    ((module.globals.map (·.name)).filter (· ≠ [])).Nodup := by
  rw [Unambiguous, List.filter_append] at unambiguous
  exact (List.nodup_append.mp unambiguous).2.1

/-- No function has the name of a variable. -/
theorem Unambiguous.apart (unambiguous : Unambiguous module) {f : Function} {gv : GlobalVariable}
    {name : Bytes} (named : name ≠ []) (function : f ∈ module.functions) (same : f.name = name)
    (global : gv ∈ module.globals) : gv.name ≠ name := by
  rw [Unambiguous, List.filter_append] at unambiguous
  intro equal
  refine (List.nodup_append.mp unambiguous).2.2 name ?_ name ?_ rfl
  · exact List.mem_filter.mpr ⟨List.mem_map.mpr ⟨f, function, same⟩, by simpa using named⟩
  · exact List.mem_filter.mpr ⟨List.mem_map.mpr ⟨gv, global, equal⟩, by simpa using named⟩

end Unambiguous

/-- A symbol behind the optimisations comes from a value that the passes left defined. -/
theorem optimised_origin {through : GlobalValue δ → GlobalValue δ}
    (names : ∀ gv, (through gv).name = gv.name) {before after : List (GlobalValue δ)}
    (optimised : Optimised (before.map through) after) {left : GlobalValue δ} (member : left ∈ after)
    (symbol : emits left = true) : ∃ gv ∈ before, gv.name = left.name ∧
      (through gv).isDeclaration = false ∧ (through gv).linkage = left.linkage := by
  obtain ⟨passed, present, defined, name, linkage⟩ := optimised.origin left member symbol
  obtain ⟨gv, submitted, rfl⟩ := List.mem_map.mp present
  exact ⟨gv, submitted, (names gv).symm.trans name, defined, linkage⟩

/-- No pass changes the name of a function. -/
theorem throughFunction_name (lookup : SymbolLookup) (f : Function) :
    (throughFunction lookup f).name = f.name :=
  (function_kept lookup f).name

/-- No pass changes the name of a variable. -/
theorem throughVariable_name (lookup : SymbolLookup) (gv : GlobalVariable) :
    (throughVariable lookup gv).name = gv.name :=
  (variable_kept lookup gv).name

/-- Every symbol of a module was submitted with a definition that the passes left. -/
theorem symbol_origin {lookup : SymbolLookup} {submission : Submission}
    (processed : submission.Processed lookup) {name : Bytes}
    (symbol : name ∈ symbolsOf submission.emitted) : name ≠ [] ∧
      ((∃ f ∈ submission.submitted.functions,
          f.name = name ∧ (throughFunction lookup f).isDeclaration = false) ∨
        ∃ gv ∈ submission.submitted.globals,
          gv.name = name ∧ (throughVariable lookup gv).isDeclaration = false) := by
  have named : ∀ {δ : Type} (gv : GlobalValue δ), emits gv = true → gv.name ≠ [] := by
    intro δ gv symbol
    simp only [emits, hasName, Bool.and_eq_true, decide_eq_true_eq] at symbol
    exact symbol.1.1.1.2
  obtain ⟨functions, globals⟩ := processed
  rw [runModulePasses_eq] at functions globals
  simp only [symbolsOf, List.mem_append, List.mem_map, List.mem_filter] at symbol
  obtain ⟨left, ⟨member, emitted⟩, rfl⟩ | ⟨left, ⟨member, emitted⟩, rfl⟩ := symbol
  · obtain ⟨f, submitted, same, defined, _⟩ :=
      optimised_origin (throughFunction_name lookup) functions member emitted
    exact ⟨named left emitted, .inl ⟨f, submitted, same, defined⟩⟩
  · obtain ⟨gv, submitted, same, defined, _⟩ :=
      optimised_origin (throughVariable_name lookup) globals member emitted
    exact ⟨named left emitted, .inr ⟨gv, submitted, same, defined⟩⟩

/-- A name under which a module brings a link-once definition that the last pass drops
when it is provided: a variable, or a function that is long enough. -/
def Replaceable (module : Module) (name : Bytes) : Prop :=
  (∃ f ∈ module.functions, f.name = name ∧ isLarge f = true ∧ f.linkage.isLinkOnceLinkage = true) ∨
    ∃ gv ∈ module.globals,
      gv.name = name ∧ gv.isDeclaration = false ∧ gv.linkage.isLinkOnceLinkage = true

/-- A large function is a definition. -/
theorem large_defined {f : Function} (large : isLarge f = true) : f.isDeclaration = false := by
  obtain ⟨body, definition, _⟩ := (isLarge_iff f).mp large
  simp [isDeclaration, definition]

/-- What is replaceable and resolved is not emitted once more. -/
theorem processed_reuses {process : Bytes → Bool} {symbols : List Bytes} {submission : Submission}
    (processed : submission.Processed (lookupIn process symbols))
    (unambiguous : Unambiguous submission.submitted) {name : Bytes}
    (replaceable : Replaceable submission.submitted name)
    (resolved : Resolves process symbols name) : name ∉ symbolsOf submission.emitted := by
  intro symbol
  obtain ⟨named, origin⟩ := symbol_origin processed symbol
  obtain ⟨f, function, rfl, large, linkOnce⟩ | ⟨gv, global, rfl, defined, linkOnce⟩ := replaceable
  · have taken : (throughFunction (lookupIn process symbols) f).isDeclaration = true := by
      apply ((function_kept _ f).lost (large_defined large)).mpr
      have found := (provided_iff _ f).mp ((provided_lookupIn f).mpr ⟨linkOnce, resolved⟩)
      exact ⟨found.1, found.2, (isLarge_iff f).mp large⟩
    obtain ⟨other, present, same, left⟩ | ⟨gv, global, same, _⟩ := origin
    · obtain rfl := same_value unambiguous.functions named f function other present rfl same
      simp [taken] at left
    · exact unambiguous.apart named function rfl global same
  · have taken : (throughVariable (lookupIn process symbols) gv).isDeclaration = true := by
      apply ((variable_kept _ gv).lost defined).mpr
      have found := (provided_iff _ gv).mp ((provided_lookupIn gv).mpr ⟨linkOnce, resolved⟩)
      exact ⟨found.1, found.2, trivial⟩
    obtain ⟨f, function, same, _⟩ | ⟨other, present, same, left⟩ := origin
    · exact unambiguous.apart named function same global rfl
    · obtain rfl := same_value unambiguous.globals named gv global other present rfl same
      simp [taken] at left

/-- A replaceable definition is not emitted when the JIT or the process has its name at the
beginning of the session, nor by two modules of it. -/
theorem replaceable_emitted_once (process : Bytes → Bool) (symbols : List Bytes)
    (session : List Submission) (runs : Session process symbols session)
    (unambiguous : ∀ submission ∈ session, Unambiguous submission.submitted) :
    session.Pairwise (fun earlier later => ∀ name ∈ symbolsOf earlier.emitted,
        Replaceable later.submitted name → name ∉ symbolsOf later.emitted) ∧
      ∀ submission ∈ session, ∀ name, Resolves process symbols name →
        Replaceable submission.submitted name → name ∉ symbolsOf submission.emitted := by
  induction session generalizing symbols with
  | nil => simp
  | cons first rest inductionHypothesis =>
    obtain ⟨processed, runs⟩ := runs
    obtain ⟨distinct, others⟩ := List.forall_mem_cons.mp unambiguous
    obtain ⟨apart, reused⟩ := inductionHypothesis _ runs others
    refine ⟨List.pairwise_cons.mpr ⟨?_, apart⟩, List.forall_mem_cons.mpr ⟨?_, ?_⟩⟩
    · intro later member name symbol
      exact reused later member name (.inl (List.mem_append_right symbols symbol))
    · intro name resolved replaceable
      exact processed_reuses processed distinct replaceable resolved
    · intro later member name resolved
      exact reused later member name (resolved.imp_left (List.mem_append_left _))

/-- The header brings its function to the JIT once. -/
theorem header_emitted_once :
    (unoptimised (fun _ => false) [] [headerModule, headerModule]).Pairwise fun earlier later =>
      ∀ name ∈ symbolsOf earlier.emitted,
        Replaceable later.submitted name → name ∉ symbolsOf later.emitted :=
  (replaceable_emitted_once (fun _ => false) []
    (unoptimised (fun _ => false) [] [headerModule, headerModule])
    (unoptimised_session _ _ _) (by
      have distinct : Unambiguous headerModule := by
        unfold Unambiguous
        decide
      simp [unoptimised, distinct])).1

/-- A symbol that the JIT refuses to take twice. -/
def isStrong (gv : GlobalValue δ) : Bool := emits gv && gv.linkage = .ExternalLinkage

/-- The strong symbols that the JIT takes from a module. -/
def strongSymbolsOf (module : Module) : List Bytes :=
  (module.functions.filter isStrong).map (·.name) ++ (module.globals.filter isStrong).map (·.name)

/-- The strong symbols that a module is submitted with, type information and vtables apart. -/
def submittedStrong (module : Module) : List Bytes :=
  (module.functions.filter isStrong).map (·.name) ++
    (module.globals.filter fun gv => isStrong gv && !startswith gv.name (text "_ZT")).map (·.name)

/-- The strong symbols are the named external definitions. -/
theorem strong_iff (gv : GlobalValue δ) : isStrong gv = true ↔
    gv.isDeclaration = false ∧ gv.name ≠ [] ∧ gv.linkage = .ExternalLinkage := by
  by_cases external : gv.linkage = .ExternalLinkage
  · simp [isStrong, emits, hasName, hasLocalLinkage, LinkageTypes.isLocalLinkage, external]
  · simp [isStrong, external]

/-- A declaration is no strong symbol. -/
theorem declared_not_strong {gv : GlobalValue δ} (declared : gv.isDeclaration = true) :
    isStrong gv = false := by
  simp [isStrong, emits, declared]

/-- A definition with a linkage other than the external one is no strong symbol. -/
theorem other_not_strong {gv : GlobalValue δ} (other : gv.linkage ≠ .ExternalLinkage) :
    isStrong gv = false := by
  simp [isStrong, other]

/-- The passes keep the strong functions, and make no further ones. -/
theorem function_strong (lookup : SymbolLookup) (f : Function) :
    isStrong (throughFunction lookup f) = isStrong f := by
  cases declared : f.isDeclaration with
  | true =>
    have still : (sanitised f).isDeclaration = true := declared
    rw [function_declared declared, declared_not_strong still, declared_not_strong declared]
  | false =>
    rw [function_defined declared]
    split
    · next kept =>
      have internal := ((keepsLocal_iff f).mp kept).1
      rw [other_not_strong (by simp), other_not_strong (by simp [internal])]
    · split
      · next reused =>
        have linkOnce := ((provided_iff lookup f).mp (reusedFunction_provided reused).2).1
        rw [declared_not_strong (by simp [isDeclaration]), other_not_strong]
        intro external
        simp [external, LinkageTypes.isLinkOnceLinkage] at linkOnce
      · rfl

/-- The passes keep the strong variables but for type information, and make no further ones. -/
theorem variable_strong (lookup : SymbolLookup) (gv : GlobalVariable) :
    isStrong (throughVariable lookup gv) = (isStrong gv && !startswith gv.name (text "_ZT")) := by
  cases declared : gv.isDeclaration with
  | true =>
    have still : (throughVariable lookup gv).isDeclaration = true := by
      rw [variable_declared declared]
      split
      · rw [setLinkage_isDeclaration]
        exact declared
      · exact declared
    rw [declared_not_strong still, declared_not_strong declared, Bool.false_and]
  | false =>
    rw [variable_defined declared]
    split
    · next weakened =>
      rw [other_not_strong (by simp)]
      obtain kept | typeinfo := weakened
      · have internal := ((keepsLocal_iff gv).mp kept).1
        rw [other_not_strong (by simp [internal]), Bool.false_and]
      · simp only [namesTypeinfo, Bool.and_eq_true] at typeinfo
        rw [typeinfo.2, Bool.not_true, Bool.and_false]
    · next notWeakened =>
      split
      · next reused =>
        have linkOnce := ((provided_iff lookup gv).mp (reusedVariable_provided reused).2).1
        have weak : gv.linkage ≠ .ExternalLinkage := by
          intro external
          simp [external, LinkageTypes.isLinkOnceLinkage] at linkOnce
        rw [declared_not_strong rfl, other_not_strong weak, Bool.false_and]
      · by_cases external : gv.linkage = .ExternalLinkage
        · have plain : startswith gv.name (text "_ZT") = false := by
            simpa [namesTypeinfo, external] using fun typeinfo => notWeakened (.inr typeinfo)
          rw [plain, Bool.not_false, Bool.and_true]
        · rw [other_not_strong external, Bool.false_and]

/-- Optimisation neither discards nor makes strong symbols. -/
theorem optimised_strong {before after : List (GlobalValue δ)} (optimised : Optimised before after)
    (name : Bytes) :
    name ∈ (after.filter isStrong).map (·.name) ↔ name ∈ (before.filter isStrong).map (·.name) := by
  simp only [List.mem_map, List.mem_filter]
  constructor
  · rintro ⟨gv, ⟨member, strong⟩, rfl⟩
    have symbol : emits gv = true := by
      simp only [isStrong, Bool.and_eq_true] at strong
      exact strong.1
    obtain ⟨_, named, external⟩ := (strong_iff gv).mp strong
    obtain ⟨earlier, present, defined, same, linkage⟩ := optimised.origin gv member symbol
    exact ⟨earlier, ⟨present, (strong_iff earlier).mpr ⟨defined, same ▸ named, linkage.trans external⟩⟩,
      same⟩
  · rintro ⟨gv, ⟨member, strong⟩, rfl⟩
    obtain ⟨defined, named, external⟩ := (strong_iff gv).mp strong
    have needed : gv.linkage.isDiscardableIfUnused = false := by
      rw [external]
      rfl
    obtain ⟨left, stays, still, same, linkage⟩ := optimised.kept gv member defined needed
    exact ⟨left, ⟨stays, (strong_iff left).mpr ⟨still, same ▸ named, linkage.trans external⟩⟩, same⟩

/-- A pass that keeps names keeps those of a class, if it keeps the class. -/
theorem filter_through {through : GlobalValue δ → GlobalValue δ}
    (names : ∀ gv, (through gv).name = gv.name) (passed submitted : GlobalValue δ → Bool)
    (same : ∀ gv, passed (through gv) = submitted gv) (values : List (GlobalValue δ)) :
    ((values.map through).filter passed).map (·.name) = (values.filter submitted).map (·.name) := by
  rw [List.filter_map, List.map_map]
  congr 1
  · funext gv
    exact names gv
  · congr 1
    funext gv
    exact same gv

/-- The JIT takes the strong symbols that a module is submitted with. -/
theorem processed_strong {lookup : SymbolLookup} {submission : Submission}
    (processed : submission.Processed lookup) (name : Bytes) :
    name ∈ strongSymbolsOf submission.emitted ↔ name ∈ submittedStrong submission.submitted := by
  obtain ⟨functions, globals⟩ := processed
  rw [runModulePasses_eq] at functions globals
  rw [strongSymbolsOf, submittedStrong, List.mem_append, List.mem_append, optimised_strong functions,
    optimised_strong globals,
    filter_through (throughFunction_name lookup) isStrong isStrong (function_strong lookup),
    filter_through (throughVariable_name lookup) isStrong _ (variable_strong lookup)]

/-- Two modules of a session give the JIT a strong definition of one name exactly when both
were submitted with one that is neither type information nor a vtable. -/
theorem strong_symbols_apart_iff (process : Bytes → Bool) (symbols : List Bytes)
    (session : List Submission) (runs : Session process symbols session) :
    session.Pairwise (fun earlier later =>
        (strongSymbolsOf earlier.emitted).Disjoint (strongSymbolsOf later.emitted)) ↔
      session.Pairwise fun earlier later =>
        (submittedStrong earlier.submitted).Disjoint (submittedStrong later.submitted) := by
  have taken : ∀ submission ∈ session, ∀ name,
      name ∈ strongSymbolsOf submission.emitted ↔ name ∈ submittedStrong submission.submitted := by
    intro submission member
    obtain ⟨before, after, rfl⟩ := List.append_of_mem member
    exact processed_strong (session_processes runs)
  apply List.Pairwise.iff_of_mem
  intro earlier later first second
  simp only [List.Disjoint, taken earlier first, taken later second]

/-- The internal counters of two modules do not clash in the JIT. -/
theorem header_strong_apart :
    (unoptimised (fun _ => false) [] [headerModule, headerModule]).Pairwise fun earlier later =>
      (strongSymbolsOf earlier.emitted).Disjoint (strongSymbolsOf later.emitted) := by
  refine (strong_symbols_apart_iff (fun _ => false) []
    (unoptimised (fun _ => false) [] [headerModule, headerModule]) (unoptimised_session _ _ _)).mpr ?_
  have strong : submittedStrong headerModule = [] := by decide
  simp [unoptimised, strong]

end CppInterpreter.ModuleSessions
