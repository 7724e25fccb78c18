import CppInterpreter.Worklist

/-!
# Diagnostics of transaction trees

A transaction knows the transaction it is nested in. Whether diagnostics have been issued is
kept in two bits of each transaction, but read and written at the topmost parent only, which
is looked for in a loop along the parents.

The links to the parents do not change here, there are finitely many of them, and they have
no cycle. Then the loop ends, and each tree has one status, the one that was set last through
any of its transactions.
-/

namespace CppInterpreter

/-- `Transaction::IssuedDiags`. -/
inductive IssuedDiags where
  | kErrors
  | kWarnings
  | kNone
deriving DecidableEq, Repr

/-- The value that is stored in the bits of `issued_diags_`. -/
def IssuedDiags.toBits : IssuedDiags → BitVec 2
  | kErrors => 0
  | kWarnings => 1
  | kNone => 2

/-- The enumerator that the bits are cast to. One value of them has none. -/
def IssuedDiags.ofBits (bits : BitVec 2) : Option IssuedDiags :=
  if bits = 0 then some .kErrors
  else if bits = 1 then some .kWarnings
  else if bits = 2 then some .kNone
  else none

/-- Two bits are enough for what is stored. -/
@[simp] theorem IssuedDiags.ofBits_toBits (val : IssuedDiags) : ofBits val.toBits = some val := by
  cases val with
  | kErrors => rfl
  | kWarnings => rfl
  | kNone => rfl

namespace TransactionForest

variable {α : Type*}

/-- Transactions with the links to their parents. -/
structure Forest (α : Type*) where
  parent : α → Option α
  finite : {node | ∃ child, node ∈ (parent child).toList}.Finite
  acyclic : ∀ node, ¬ Worklist.OnCycle (fun child => (parent child).toList) node

/-- One test and execution of the loop in `getTopmostParent`. -/
def climb (forest : Forest α) (ret : α) : α ⊕ α :=
  match forest.parent ret with
  | some parent => .inl parent
  | none => .inr ret

/-- `getTopmostParent`. -/
def getTopmostParent (forest : Forest α) (fuel : Nat) (node : α) : Option α :=
  Loops.run (climb forest) fuel node

/-- The `issued_diags_` of each transaction. -/
abbrev DiagsFields (α : Type*) := α → BitVec 2

/-- `Initialize`. -/
def initialized : DiagsFields α := fun _ => IssuedDiags.kNone.toBits

/-- `getIssuedDiags`. -/
def getIssuedDiags (forest : Forest α) (fuel : Nat) (diags : DiagsFields α) (node : α) :
    Option IssuedDiags :=
  (getTopmostParent forest fuel node).bind fun topmost => IssuedDiags.ofBits (diags topmost)

/-- A call of `setIssuedDiags`. -/
structure SetCall (α : Type*) where
  node : α
  val : IssuedDiags
deriving DecidableEq, Repr

variable [DecidableEq α]

/-- `setIssuedDiags`. -/
def setIssuedDiags (forest : Forest α) (fuel : Nat) (diags : DiagsFields α) (call : SetCall α) :
    Option (DiagsFields α) :=
  (getTopmostParent forest fuel call.node).map fun topmost =>
    Function.update diags topmost call.val.toBits

/-- Several calls, one after the other. -/
def setAll (forest : Forest α) (fuel : Nat) (calls : List (SetCall α)) : Option (DiagsFields α) :=
  calls.foldlM (setIssuedDiags forest fuel) initialized

omit [DecidableEq α] in
/-- Climbing along the parents is well-founded. -/
theorem Forest.wellFounded (forest : Forest α) :
    WellFounded (Worklist.Child fun child => (forest.parent child).toList) := by
  constructor
  intro node
  rw [Worklist.acc_iff_no_cycle forest.finite]
  rintro ⟨reached, _, cycle⟩
  exact forest.acyclic reached cycle

/-- The topmost parent, by recursion along the parents. -/
def topmost (forest : Forest α) (node : α) : α :=
  match _above : forest.parent node with
  | some parent => topmost forest parent
  | none => node
termination_by forest.wellFounded.wrap node
decreasing_by
  simpa [Worklist.Child, Option.mem_toList] using _above

omit [DecidableEq α] in
/-- A transaction without a parent is its own topmost parent. -/
theorem topmost_root {forest : Forest α} {node : α} (root : forest.parent node = none) :
    topmost forest node = node := by
  rw [topmost]
  split
  · next above => cases root.symm.trans above
  · rfl

omit [DecidableEq α] in
/-- A transaction has the topmost parent of its parent. -/
theorem topmost_nested {forest : Forest α} {node parent : α} (nested : forest.parent node = some parent) :
    topmost forest node = topmost forest parent := by
  rw [topmost]
  split
  · next above => rw [Option.some.inj (above.symm.trans nested)]
  · next none => cases nested.symm.trans none

omit [DecidableEq α] in
/-- The loop ends, at the topmost parent. -/
theorem returns_topmost (forest : Forest α) (node : α) :
    Loops.Returns (climb forest) node (topmost forest node) := by
  induction node using forest.wellFounded.induction with
  | _ node inductionHypothesis =>
    cases above : forest.parent node with
    | none =>
      have leaves : climb forest node = .inr node := by rw [climb, above]
      rw [topmost_root above]
      exact (Loops.returns_of_leaves leaves node).mpr rfl
    | some parent =>
      have continues : climb forest node = .inl parent := by rw [climb, above]
      rw [topmost_nested above]
      apply (Loops.returns_of_continues continues _).mpr
      apply inductionHypothesis
      simp [Worklist.Child, above]

omit [DecidableEq α] in
/-- From some budget on, the topmost parent is found. -/
theorem getTopmostParent_eq (forest : Forest α) (node : α) :
    ∃ budget, ∀ fuel ≥ budget, getTopmostParent forest fuel node = some (topmost forest node) := by
  obtain ⟨budget, finished⟩ := returns_topmost forest node
  exact ⟨budget, fun fuel enough => Loops.run_mono finished enough⟩

/-- What calls write, at the topmost parents of their transactions. -/
def written (forest : Forest α) (diags : DiagsFields α) (calls : List (SetCall α)) : DiagsFields α :=
  calls.foldl (fun diags call => Function.update diags (topmost forest call.node) call.val.toBits) diags

/-- From some budget on, all calls return. -/
theorem foldlM_set (forest : Forest α) (calls : List (SetCall α)) (diags : DiagsFields α) :
    ∃ budget, ∀ fuel ≥ budget,
      calls.foldlM (setIssuedDiags forest fuel) diags = some (written forest diags calls) := by
  induction calls generalizing diags with
  | nil => exact ⟨0, fun _ _ => rfl⟩
  | cons call calls inductionHypothesis =>
    obtain ⟨first, climbs⟩ := getTopmostParent_eq forest call.node
    obtain ⟨others, performs⟩ := inductionHypothesis
      (Function.update diags (topmost forest call.node) call.val.toBits)
    refine ⟨max first others, fun fuel enough => ?_⟩
    have performed : setIssuedDiags forest fuel diags call =
        some (Function.update diags (topmost forest call.node) call.val.toBits) := by
      rw [setIssuedDiags, climbs fuel (le_of_max_le_left enough), Option.map_some]
    rw [List.foldlM_cons, performed]
    exact performs fuel (le_of_max_le_right enough)

/-- The value of the last call through a transaction with the same topmost parent. -/
def latest (forest : Forest α) (calls : List (SetCall α)) (node : α) : Option IssuedDiags :=
  (calls.filter fun call => topmost forest call.node = topmost forest node).getLast?.map SetCall.val

/-- What is written for a tree is the value of the last call in it. -/
theorem written_latest (forest : Forest α) (calls : List (SetCall α)) (diags : DiagsFields α) (node : α) :
    written forest diags calls (topmost forest node) =
      ((latest forest calls node).map IssuedDiags.toBits).getD (diags (topmost forest node)) := by
  induction calls generalizing diags with
  | nil => rfl
  | cons call calls inductionHypothesis =>
    rw [written, List.foldl_cons, ← written, inductionHypothesis]
    by_cases same : topmost forest call.node = topmost forest node
    · have front : latest forest (call :: calls) node =
          some ((latest forest calls node).getD call.val) := by
        simp [latest, same, List.getLast?_cons, Option.getD_map]
      rw [front, same, Function.update_self]
      cases latest forest calls node with
      | none => rfl
      | some val => rfl
    · have front : latest forest (call :: calls) node = latest forest calls node := by
        simp [latest, same]
      rw [front, Function.update_of_ne (Ne.symm same)]

/-- With a sufficient budget, all calls return, and then `getIssuedDiags` returns a value. -/
def Reads (forest : Forest α) (calls : List (SetCall α)) (node : α) (val : IssuedDiags) : Prop :=
  ∃ budget, ∀ fuel ≥ budget, ∃ diags, setAll forest fuel calls = some diags ∧
    getIssuedDiags forest fuel diags node = some val

/-- The value that was set last in a tree is read, and `kNone` if there is none. -/
theorem reads_latest (forest : Forest α) (calls : List (SetCall α)) (node : α) :
    Reads forest calls node ((latest forest calls node).getD .kNone) := by
  obtain ⟨sets, performs⟩ := foldlM_set forest calls initialized
  obtain ⟨climbing, climbs⟩ := getTopmostParent_eq forest node
  refine ⟨max sets climbing, fun fuel enough => ⟨_, performs fuel (le_of_max_le_left enough), ?_⟩⟩
  rw [getIssuedDiags, climbs fuel (le_of_max_le_right enough), Option.bind_some, written_latest]
  cases latest forest calls node with
  | none => exact IssuedDiags.ofBits_toBits .kNone
  | some val => exact IssuedDiags.ofBits_toBits val

/-- One value is read. -/
theorem reads_iff (forest : Forest α) (calls : List (SetCall α)) (node : α) (val : IssuedDiags) :
    Reads forest calls node val ↔ val = (latest forest calls node).getD .kNone := by
  constructor
  · rintro ⟨budget, reads⟩
    obtain ⟨other, again⟩ := reads_latest forest calls node
    obtain ⟨diags, set, got⟩ := reads (max budget other) (Nat.le_max_left ..)
    obtain ⟨diags', set', got'⟩ := again (max budget other) (Nat.le_max_right ..)
    obtain rfl := Option.some.inj (set.symm.trans set')
    exact Option.some.inj (got.symm.trans got')
  · rintro rfl
    exact reads_latest forest calls node

/-- A call in another tree is not the latest one. -/
theorem latest_elsewhere {forest : Forest α} {call : SetCall α} {node : α}
    (elsewhere : topmost forest call.node ≠ topmost forest node) (before after : List (SetCall α)) :
    latest forest (before ++ call :: after) node = latest forest (before ++ after) node := by
  simp only [latest, List.filter_append, List.filter_cons, elsewhere, decide_false, Bool.false_eq_true,
    ↓reduceIte]

/-- `getIssuedDiags` returns the value that was set last through a transaction with the same
topmost parent, and `kNone` if there was none. Leaving out a call in another tree changes
nothing. -/
theorem issuedDiags_shared (forest : Forest α) (calls : List (SetCall α)) (node : α) :
    Reads forest calls node ((latest forest calls node).getD .kNone) ∧
      ∀ before call after, calls = before ++ call :: after →
        topmost forest call.node ≠ topmost forest node →
        ∀ val, Reads forest calls node val ↔ Reads forest (before ++ after) node val := by
  refine ⟨reads_latest forest calls node, ?_⟩
  rintro before call after rfl elsewhere val
  rw [reads_iff, reads_iff, latest_elsewhere elsewhere]

/-- One transaction nested in another one. -/
def pair : Forest Nat where
  parent node := if node = 1 then some 0 else none
  finite := by
    apply (Set.finite_singleton 0).subset
    rintro node ⟨child, above⟩
    split_ifs at above
    · simpa using above
    · cases above
  acyclic := by
    have descends : ∀ first last : Nat, Relation.TransGen
        (fun child node => node ∈ (if child = 1 then some 0 else none).toList) first last →
          last < first := by
      intro first last path
      induction path with
      | single above => grind
      | tail _ above inductionHypothesis => grind
    exact fun node cycle => Nat.lt_irrefl node (descends node node cycle)

example : (setAll pair 2 [⟨1, .kErrors⟩, ⟨2, .kWarnings⟩]).bind
    (fun diags => getIssuedDiags pair 2 diags 0) = some .kErrors := by decide

end TransactionForest

end CppInterpreter
