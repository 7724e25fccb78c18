import CppInterpreter.Strings

/-!
# The contents of a transaction

A transaction queues groups of declarations as they are seen, those that are deserialized,
macros, and transactions that are nested in it. The nested ones are in a list behind a
pointer, so there may be none in two ways: no list, or an empty list. What `clear` leaves is
compared with what the observers take for an empty transaction.

A declaration is looked for by its name in two passes over the queue: first among the members
of the groups, then among those of linkage specifications. Linkage specifications nest, and
the second pass looks into the outermost ones only.
-/

namespace CppInterpreter

/-- `clang::NamedDecl`. Declarations are told apart by their addresses. -/
structure NamedDecl where
  address : Nat
  nameAsString : Bytes
deriving DecidableEq, Repr

/-- `clang::Decl`, as far as it is asked for a name or for the members of a linkage
specification. -/
inductive Decl where
  | named (decl : NamedDecl)
  | linkageSpec (decls : List Decl)
  | other

/-- `clang::DeclGroupRef`. -/
abbrev DeclGroup := List Decl

/-- `Transaction::MacroDirectiveInfo`: the addresses of an identifier and of its directive. -/
structure MacroDirectiveInfo where
  ii : Nat
  md : Nat
deriving DecidableEq, Repr

/-- The last element of an empty vector is read. -/
structure EmptyBack where
deriving DecidableEq, Repr

/-- The containers of a transaction. Nested transactions are addresses. -/
structure TransactionContents where
  declQueue : List DeclGroup
  deserializedDeclQueue : List DeclGroup
  nestedTransactions : Option (List Nat)
  macroDirectiveInfoQueue : List MacroDirectiveInfo

namespace TransactionContents

section Observers

variable (contents : TransactionContents)

/-- The iterators over the macros, as positions. -/
def macrosBegin (_contents : TransactionContents) : Nat := 0

def macrosEnd : Nat := contents.macroDirectiveInfoQueue.length

def hasNestedTransactions : Bool := contents.nestedTransactions.isSome

def getLastNestedTransaction : Except EmptyBack (Option Nat) :=
  match contents.nestedTransactions with
  | none => .ok none
  | some nested =>
    match nested.getLast? with
    | none => .error ⟨⟩
    | some last => .ok (some last)

def empty : Bool :=
  contents.declQueue.isEmpty && contents.deserializedDeclQueue.isEmpty &&
    contents.nestedTransactions.all List.isEmpty && contents.macroDirectiveInfoQueue.isEmpty

/-- `clear`. -/
def clear : TransactionContents :=
  { contents with
    declQueue := []
    deserializedDeclQueue := []
    nestedTransactions := contents.nestedTransactions.map fun _ => [] }

end Observers

/-- The observers agree that a transaction is empty. -/
structure NothingLeft (contents : TransactionContents) : Prop where
  empty : contents.empty = true
  macros : contents.macrosBegin = contents.macrosEnd
  nested : contents.hasNestedTransactions = false ∨ ∃ nested, nested ≠ [] ∧
    contents.nestedTransactions = some nested
  last : ∃ last, contents.getLastNestedTransaction = .ok last

/-- The observers agree on a transaction exactly when its queues are empty and it has no list
of nested transactions. -/
theorem nothingLeft_iff (contents : TransactionContents) : NothingLeft contents ↔
    contents.declQueue = [] ∧ contents.deserializedDeclQueue = [] ∧
      contents.nestedTransactions = none ∧ contents.macroDirectiveInfoQueue = [] := by
  constructor
  · rintro ⟨empty, _, nested, _⟩
    simp only [TransactionContents.empty, Bool.and_eq_true, List.isEmpty_iff] at empty
    obtain ⟨⟨⟨decls, deserialized⟩, none⟩, macros⟩ := empty
    refine ⟨decls, deserialized, ?_, macros⟩
    obtain absent | ⟨list, some, present⟩ := nested
    · exact Option.isNone_iff_eq_none.mp (Option.isSome_eq_false_iff.mp absent)
    · rw [present, Option.all_some, List.isEmpty_iff] at none
      exact absurd none some
  · rintro ⟨decls, deserialized, none, macros⟩
    refine ⟨?_, ?_, Or.inl ?_, Option.none, ?_⟩
    · simp [TransactionContents.empty, decls, deserialized, none, macros]
    · simp [macrosBegin, macrosEnd, macros]
    · rw [hasNestedTransactions, none, Option.isSome_none]
    · rw [getLastNestedTransaction, none]

/-- After `clear` the observers agree that nothing is left exactly when there was no macro and
no list of nested transactions, even an empty one. -/
theorem clear_nothingLeft_iff (contents : TransactionContents) : NothingLeft contents.clear ↔
    contents.macroDirectiveInfoQueue = [] ∧ contents.nestedTransactions = none := by
  rw [nothingLeft_iff]
  simp only [clear, Option.map_eq_none_iff, true_and]
  exact and_comm

/-- Clearing leaves macros, and an empty list of nested transactions whose last one is read. -/
theorem clear_leaves :
    let cleared := clear ⟨[], [], some [1], [⟨1, 2⟩]⟩
    cleared.empty = false ∧ cleared.macrosBegin ≠ cleared.macrosEnd ∧
      cleared.hasNestedTransactions = true ∧ cleared.nestedTransactions = some [] ∧
      cleared.getLastNestedTransaction = .error ⟨⟩ ∧ ¬ NothingLeft cleared := by
  refine ⟨by decide, by decide, rfl, rfl, rfl, ?_⟩
  intro left
  exact absurd left.empty (by decide)

end TransactionContents

namespace Decl

/-- A declaration with a name. -/
def named? : Decl → Option NamedDecl
  | named decl => some decl
  | linkageSpec _ => none
  | other => none

/-- The test of a declaration for a name. -/
def ifNamed (name : Bytes) : Decl → Option NamedDecl
  | named decl => if name = decl.nameAsString then some decl else none
  | linkageSpec _ => none
  | other => none

/-- A named declaration is a declaration, or lies inside a linkage specification at any depth. -/
inductive Lies (found : NamedDecl) : Decl → Prop where
  | here : Lies found (named found)
  | inside {decls : List Decl} {member : Decl} :
    member ∈ decls → Lies found member → Lies found (linkageSpec decls)

end Decl

namespace TransactionContents

/-- `containsNamedDecl`, with the null pointer as `none`. -/
def containsNamedDecl (contents : TransactionContents) (name : Bytes) : Option NamedDecl :=
  let direct := contents.declQueue.findSome? fun dgr => dgr.findSome? (Decl.ifNamed name)
  direct.or <| contents.declQueue.findSome? fun dgr => dgr.findSome? fun decl =>
    match decl with
    | .linkageSpec decls => decls.findSome? (Decl.ifNamed name)
    | .named _ | .other => none

variable {contents : TransactionContents} {name : Bytes}

/-- A named declaration lies in the queue. -/
def Declares (contents : TransactionContents) (found : NamedDecl) : Prop :=
  ∃ dgr ∈ contents.declQueue, ∃ decl ∈ dgr, decl.Lies found

/-- The members of the groups, in order. -/
def members (contents : TransactionContents) : List NamedDecl :=
  contents.declQueue.flatten.filterMap Decl.named?

/-- What is found for a name: a declaration of that name from the queue if there is one, and
nothing otherwise. The first member of a group goes before anything in a linkage
specification. -/
structure FindsDeclared (contents : TransactionContents) (name : Bytes) : Prop where
  sound : ∀ found, contents.containsNamedDecl name = some found →
    found.nameAsString = name ∧ contents.Declares found
  complete : ∀ found, contents.Declares found → found.nameAsString = name →
    (contents.containsNamedDecl name).isSome = true
  direct : ∀ found, (contents.members.find? fun member => member.nameAsString = name) = some found →
    contents.containsNamedDecl name = some found

/-- A named declaration is a member of a group, or of a linkage specification that is one. -/
def Near (contents : TransactionContents) (found : NamedDecl) : Prop :=
  ∃ dgr ∈ contents.declQueue, ∃ decl ∈ dgr,
    decl = .named found ∨ ∃ decls, decl = .linkageSpec decls ∧ .named found ∈ decls

/-- The members of the linkage specifications that are members of groups, in order. -/
def specMembers (contents : TransactionContents) : List NamedDecl :=
  contents.declQueue.flatten.flatMap fun decl =>
    match decl with
    | .linkageSpec decls => decls.filterMap Decl.named?
    | .named _ | .other => []

/-- Looking for a name in a list of declarations. -/
theorem findSome?_ifNamed (name : Bytes) (decls : List Decl) : decls.findSome? (Decl.ifNamed name) =
    (decls.filterMap Decl.named?).find? fun decl => decl.nameAsString = name := by
  induction decls with
  | nil => rfl
  | cons decl decls inductionHypothesis =>
    cases decl with
    | named found =>
      by_cases same : name = found.nameAsString
      · simp [Decl.ifNamed, Decl.named?, same]
      · simpa [Decl.ifNamed, Decl.named?, same, eq_comm] using inductionHypothesis
    | linkageSpec inner =>
      rw [List.findSome?_cons_of_isNone rfl, List.filterMap_cons_none rfl, inductionHypothesis]
    | other => rw [List.findSome?_cons_of_isNone rfl, List.filterMap_cons_none rfl, inductionHypothesis]

/-- Two loops, one over the groups and one over a group, are one over all declarations. -/
theorem findSome?_flatten {α β : Type*} (test : α → Option β) (groups : List (List α)) :
    (groups.findSome? fun group => group.findSome? test) = groups.flatten.findSome? test := by
  induction groups with
  | nil => rfl
  | cons group groups inductionHypothesis =>
    rw [List.flatten_cons, List.findSome?_append, List.findSome?_cons, ← inductionHypothesis]
    cases group.findSome? test with
    | none => rfl
    | some found => rfl

/-- The two passes find the first declaration of a name among the members of groups and then
among those of their linkage specifications. -/
theorem containsNamedDecl_eq (contents : TransactionContents) (name : Bytes) :
    contents.containsNamedDecl name =
      (contents.members ++ contents.specMembers).find? fun member => member.nameAsString = name := by
  rw [containsNamedDecl, findSome?_flatten, findSome?_flatten, findSome?_ifNamed, List.find?_append]
  congr 1
  rw [specMembers, List.find?_flatMap]
  congr 1
  funext decl
  cases decl with
  | linkageSpec decls => exact findSome?_ifNamed name decls
  | named found => rfl
  | other => rfl

/-- What the passes look at are the declarations that are near. -/
theorem near_iff (found : NamedDecl) :
    contents.Near found ↔ found ∈ contents.members ++ contents.specMembers := by
  have named : ∀ decl : Decl, decl.named? = some found ↔ decl = .named found := by
    intro decl
    cases decl with
    | named other => simp [Decl.named?]
    | linkageSpec decls => simp [Decl.named?]
    | other => simp [Decl.named?]
  have spec : ∀ decl : Decl, (found ∈ match decl with
      | .linkageSpec decls => decls.filterMap Decl.named?
      | .named _ | .other => []) ↔ ∃ decls, decl = .linkageSpec decls ∧ .named found ∈ decls := by
    intro decl
    cases decl with
    | named other => simp
    | linkageSpec decls => simp [List.mem_filterMap, named]
    | other => simp
  simp only [Near, members, specMembers, List.mem_append, List.mem_filterMap, List.mem_flatMap,
    List.mem_flatten, named, spec]
  constructor
  · rintro ⟨dgr, queued, decl, member, rfl | inside⟩
    · exact Or.inl ⟨_, ⟨dgr, queued, member⟩, rfl⟩
    · exact Or.inr ⟨decl, ⟨dgr, queued, member⟩, inside⟩
  · rintro (⟨decl, ⟨dgr, queued, member⟩, rfl⟩ | ⟨decl, ⟨dgr, queued, member⟩, inside⟩)
    · exact ⟨dgr, queued, _, member, Or.inl rfl⟩
    · exact ⟨dgr, queued, decl, member, Or.inr inside⟩

/-- What is near is declared. -/
theorem declares_of_near {found : NamedDecl} (near : contents.Near found) : contents.Declares found := by
  obtain ⟨dgr, queued, decl, member, rfl | ⟨decls, rfl, inside⟩⟩ := near
  · exact ⟨dgr, queued, _, member, .here⟩
  · exact ⟨dgr, queued, _, member, .inside inside .here⟩

/-- Something is found exactly when something near has the name. -/
theorem containsNamedDecl_isSome : (contents.containsNamedDecl name).isSome = true ↔
    ∃ found, contents.Near found ∧ found.nameAsString = name := by
  rw [containsNamedDecl_eq, List.find?_isSome]
  simp only [← near_iff, decide_eq_true_eq]

/-- `containsNamedDecl` finds the declared names exactly if a name that is declared at any depth
is declared near as well. -/
theorem finds_declared_iff (contents : TransactionContents) (name : Bytes) :
    FindsDeclared contents name ↔
      ((∃ found, contents.Declares found ∧ found.nameAsString = name) →
        ∃ found, contents.Near found ∧ found.nameAsString = name) := by
  rw [← containsNamedDecl_isSome]
  constructor
  · rintro finds ⟨found, declared, named⟩
    exact finds.complete found declared named
  · intro covered
    refine ⟨?_, fun found declared named => covered ⟨found, declared, named⟩, ?_⟩
    · intro found returned
      rw [containsNamedDecl_eq] at returned
      have near := (near_iff found).mpr (List.mem_of_find?_eq_some returned)
      have named := List.find?_some returned
      exact ⟨by simpa using named, declares_of_near near⟩
    · intro found first
      rw [containsNamedDecl_eq, List.find?_append, first, Option.some_or]

/-- A declaration in two linkage specifications, one around the other, is not found. -/
theorem nested_spec_missed :
    let decl : NamedDecl := ⟨1, Bytes.text "f"⟩
    let contents : TransactionContents :=
      ⟨[[.linkageSpec [.linkageSpec [.named decl]]]], [], none, []⟩
    contents.Declares decl ∧ contents.containsNamedDecl (Bytes.text "f") = none ∧
      ¬ FindsDeclared contents (Bytes.text "f") := by
  intro decl contents
  have declared : contents.Declares decl :=
    ⟨_, List.mem_cons_self, _, List.mem_cons_self,
      .inside List.mem_cons_self (.inside List.mem_cons_self .here)⟩
  have missed : contents.containsNamedDecl (Bytes.text "f") = none := by
    simp [contents, containsNamedDecl, Decl.ifNamed]
  refine ⟨declared, missed, ?_⟩
  intro finds
  have found := finds.complete decl declared rfl
  rw [missed] at found
  cases found

end TransactionContents

end CppInterpreter
