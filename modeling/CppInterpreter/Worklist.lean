import Mathlib.Data.Set.Finite.Basic
import Mathlib.Data.Fintype.Pigeonhole
import Mathlib.Logic.Relation
import CppInterpreter.Loops

/-!
# Expanding a worklist

A worklist is consumed from the front: the first item is replaced by its children,
which precede the items still waiting. The loop ends when nothing waits. It
terminates exactly when every waiting item is accessible along the child relation,
so the order of the expansion and the remaining items never matter.

When the items that occur as children form a finite set, accessibility is the
absence of a cycle among the items that can be reached.
-/

namespace CppInterpreter.Worklist

variable {α : Type*}

/-- Replace the first waiting item by its children; an empty worklist is done. -/
def expand (children : α → List α) : List α → List α ⊕ Unit
  | [] => .inr ()
  | item :: waiting => .inl (children item ++ waiting)

/-- The relation from a child to its parent, decreasing along an expansion. -/
def Child (children : α → List α) (child parent : α) : Prop := child ∈ children parent

/-- An item can be reached from another one by descending through children. -/
def Reaches (children : α → List α) : α → α → Prop :=
  Relation.ReflTransGen (fun parent child => child ∈ children parent)

/-- An item that can be reached from itself by at least one descent. -/
def OnCycle (children : α → List α) (item : α) : Prop :=
  Relation.TransGen (fun parent child => child ∈ children parent) item item

/-- Putting an accessible item in front of a terminating worklist keeps it
terminating. Induction on accessibility handles the item's children, and the
inner list induction puts them in front one by one. -/
theorem terminates_cons {children : α → List α} {item : α}
    (accessible : Acc (Child children) item) (waiting : List α)
    (rest : Loops.Terminates (expand children) waiting) :
    Loops.Terminates (expand children) (item :: waiting) := by
  induction accessible generalizing waiting with
  | intro item _ inductionHypothesis =>
    have front : ∀ items : List α, (∀ child ∈ items, child ∈ children item) →
        Loops.Terminates (expand children) (items ++ waiting) := by
      intro items included
      induction items with
      | nil => exact rest
      | cons child items inner =>
        have below : ∀ other ∈ items, other ∈ children item := fun other member =>
          included other (List.mem_cons_of_mem child member)
        exact inductionHypothesis child (included child List.mem_cons_self) _ (inner below)
    have continues : expand children (item :: waiting) = .inl (children item ++ waiting) := rfl
    exact (Loops.terminates_of_continues continues).mpr
      (front (children item) fun _ member => member)

/-- The worklist loop terminates exactly when each waiting item is accessible. -/
theorem terminates_iff (children : α → List α) (waiting : List α) :
    Loops.Terminates (expand children) waiting ↔
      ∀ item ∈ waiting, Acc (Child children) item := by
  constructor
  · rw [Loops.terminates_iff_acc]
    intro accessible
    induction accessible with
    | intro waiting _ inductionHypothesis =>
      cases waiting with
      | nil => simp
      | cons first waiting =>
        have later := inductionHypothesis (children first ++ waiting) rfl
        intro item member
        rcases List.mem_cons.mp member with rfl | member
        · exact Acc.intro item fun child below =>
            later child (List.mem_append_left waiting below)
        · exact later item (List.mem_append_right (children first) member)
  · intro accessible
    induction waiting with
    | nil => exact Loops.terminates_of_leaves rfl
    | cons first waiting inductionHypothesis =>
      exact terminates_cons (accessible first List.mem_cons_self) waiting
        (inductionHypothesis fun item member =>
          accessible item (List.mem_cons_of_mem first member))

/-- Accessibility descends along reachability. -/
theorem acc_of_reaches {children : α → List α} {item reached : α}
    (accessible : Acc (Child children) item) (path : Reaches children item reached) :
    Acc (Child children) reached := by
  induction path with
  | refl => exact accessible
  | tail _ descends inductionHypothesis => exact inductionHypothesis.inv descends

/-- No accessible item lies on a cycle. -/
theorem not_onCycle_of_acc {children : α → List α} {item : α}
    (accessible : Acc (Child children) item) : ¬ OnCycle children item := by
  induction accessible with
  | intro item _ inductionHypothesis =>
    intro cycle
    obtain ⟨child, descends, back⟩ := Relation.TransGen.head'_iff.mp cycle
    exact inductionHypothesis child descends (Relation.TransGen.tail' back descends)

/-- Along a descending chain every later item is reached by at least one descent. -/
theorem chain_descends {children : α → List α} {chain : Nat → α}
    (descends : ∀ index, chain (index + 1) ∈ children (chain index))
    {first last : Nat} (before : first < last) :
    Relation.TransGen (fun parent child => child ∈ children parent) (chain first) (chain last) := by
  induction before with
  | refl => exact .single (descends first)
  | step _ inductionHypothesis => exact .tail inductionHypothesis (descends _)

/-- When only finitely many items occur as children, an item is accessible exactly
when it reaches no cycle. An inaccessible item starts an infinite descending chain,
whose later items lie in the finite set and therefore repeat. -/
theorem acc_iff_no_cycle {children : α → List α}
    (finite : {child | ∃ parent, child ∈ children parent}.Finite) (item : α) :
    Acc (Child children) item ↔ ¬ ∃ reached, Reaches children item reached ∧ OnCycle children reached := by
  constructor
  · rintro accessible ⟨reached, path, cycle⟩
    exact not_onCycle_of_acc (acc_of_reaches accessible path) cycle
  · intro noCycle
    by_contra inaccessible
    obtain ⟨chain, start, descends⟩ := not_acc_iff_exists_descending_chain.mp inaccessible
    have below : ∀ index, chain (index + 1) ∈ {child | ∃ parent, child ∈ children parent} :=
      fun index => ⟨chain index, descends index⟩
    have := finite.to_subtype
    obtain ⟨first, last, different, same⟩ :=
      Finite.exists_ne_map_eq_of_infinite fun index : Nat =>
        (⟨chain (index + 1), below index⟩ : {child | ∃ parent, child ∈ children parent})
    have repeated : chain (first + 1) = chain (last + 1) := congrArg Subtype.val same
    have fromStart : ∀ index, Reaches children item (chain (index + 1)) := fun index =>
      (start ▸ chain_descends descends (Nat.succ_pos index)).to_reflTransGen
    rcases Nat.lt_or_gt_of_ne different with before | after
    · have cycle := chain_descends descends (Nat.succ_lt_succ before)
      rw [← repeated] at cycle
      exact noCycle ⟨chain (first + 1), fromStart first, cycle⟩
    · have cycle := chain_descends descends (Nat.succ_lt_succ after)
      rw [repeated] at cycle
      exact noCycle ⟨chain (last + 1), fromStart last, cycle⟩

end CppInterpreter.Worklist
