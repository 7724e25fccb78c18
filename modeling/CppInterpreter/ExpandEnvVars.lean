import CppInterpreter.Strings
import CppInterpreter.Worklist

/-!
# Expansion of environment variables

`ExpandEnvVars` rewrites a string in place. A token begins at a `$` and ends before
the next `/`, or at the end of the string; it is replaced by the value of the
variable it names, and the search resumes one byte after the replaced `$`, inside
the text just inserted. Its loop is modeled with that resumption point, so tokens
of a value are expanded in turn and the loop need not return.

A segment is a maximal stretch without `/`. The tokens still to be expanded are
the ones of the segments after the current position, and one iteration replaces
the first of them by the tokens of its value without that value's first byte.
This makes the loop a worklist over names, and its termination a property of the
references among variables.
-/

namespace CppInterpreter.ExpandEnvVars

open Bytes

def dollar : UInt8 := '$'.toUInt8
def slash : UInt8 := '/'.toUInt8

/-- A process environment: finitely many variables, whose values are C strings. -/
structure Environment where
  entries : List (Bytes × Bytes)
  nulFree : ∀ entry ∈ entries, 0 ∉ entry.2

/-- `::getenv`, which reads its argument as a C string. -/
def Environment.getenv (env : Environment) (name : Bytes) : Option Bytes :=
  env.entries.lookup (cStr name)

/-- The string under rewriting and the position of the next `$`. -/
structure State where
  str : Bytes
  dollarPos : Option Nat
deriving DecidableEq

/-- One test of the loop condition and, when a `$` remains, one execution of the
loop body. -/
def body (env : Environment) (state : State) : State ⊕ Bytes :=
  match state.dollarPos with
  | none => .inr state.str
  | some dollarPos =>
    let sPos := find state.str slash (dollarPos + 1)
    let length := match sPos with
      | none => state.str.length
      | some sPos => sPos - dollarPos
    let envVar := substr state.str (dollarPos + 1) (length - 1)
    let fullPath := (env.getenv envVar).getD []
    let str := replace state.str dollarPos length fullPath
    .inl ⟨str, find str dollar (dollarPos + 1)⟩

/-- The state in which the loop is entered. -/
def start (str : Bytes) : State := ⟨str, find str dollar 0⟩

/-- `ExpandEnvVars`: the rewritten string and the returned flag. The file system
is consulted only on request; an exhausted budget returns nothing. -/
def expandEnvVars (env : Environment) (fileExists : Bytes → Bool) (fuel : Nat) (str : Bytes)
    (path : Bool) : Option (Bytes × Bool) :=
  (Loops.run (body env) fuel (start str)).map fun str => (str, if path then fileExists str else true)

/-- The name after the first `$` of a segment, when the segment has one. -/
def tokenOf : Bytes → Option Bytes
  | [] => none
  | ch :: rest => if ch = dollar then some rest else tokenOf rest

/-- The names that the segments of a text refer to, in order. -/
def tokens (str : Bytes) : List Bytes := (str.splitOn slash).filterMap tokenOf

/-- The names that the value of a variable refers to after its first byte. An unset
variable has the empty value. -/
def references (env : Environment) (name : Bytes) : List Bytes :=
  tokens (((env.getenv name).getD []).drop 1)

/-- The tokens still to be expanded from the current position on. -/
def pending (state : State) : List Bytes :=
  match state.dollarPos with
  | none => []
  | some dollarPos => tokens (state.str.drop dollarPos)

/-- The position held by a state is the position of a `$`. -/
def AtDollar (state : State) : Prop :=
  ∀ dollarPos, state.dollarPos = some dollarPos → ∃ rest, state.str.drop dollarPos = dollar :: rest

/-- A text that can follow a whole segment: the end, or a text that opens with `/`. -/
def Boundary (after : Bytes) : Prop := after = [] ∨ ∃ tail, after = slash :: tail

/-- The tokens of two texts joined by a `/` are the tokens of both. -/
theorem tokens_join (front tail : Bytes) :
    tokens (front ++ slash :: tail) = tokens front ++ tokens tail := by
  simp only [tokens, List.splitOn_append_cons_self, List.filterMap_append]

/-- A first byte that is not `$` belongs to no token. -/
theorem tokens_cons {ch : UInt8} (plain : ch ≠ dollar) (rest : Bytes) :
    tokens (ch :: rest) = tokens rest := by
  obtain ⟨segment, segments, split⟩ := List.exists_cons_of_ne_nil (List.splitOn_ne_nil slash rest)
  simp only [tokens, List.splitOn_cons_eq_if_modifyHead]
  by_cases separator : ch = slash
  · simp [separator, List.filterMap_cons, tokenOf]
  · simp [separator, split, List.filterMap_cons, tokenOf, plain]

/-- Skipping bytes that are not `$` keeps the tokens. -/
theorem tokens_skip {skipped : Bytes} (plain : dollar ∉ skipped) (rest : Bytes) :
    tokens (skipped ++ rest) = tokens rest := by
  induction skipped with
  | nil => rfl
  | cons ch skipped inductionHypothesis =>
    rw [List.mem_cons, not_or] at plain
    rw [List.cons_append, tokens_cons (Ne.symm plain.1)]
    exact inductionHypothesis plain.2

/-- A text without `$` has no tokens. -/
theorem tokens_plain {str : Bytes} (plain : dollar ∉ str) : tokens str = [] := by
  have empty : tokens [] = [] := by simp [tokens, List.splitOn_eq_singleton, tokenOf]
  simpa only [List.append_nil, empty] using tokens_skip plain []

/-- A boundary separates the tokens before it from the tokens after it. -/
theorem tokens_boundary (front : Bytes) {after : Bytes} (boundary : Boundary after) :
    tokens (front ++ after) = tokens front ++ tokens after := by
  obtain rfl | ⟨tail, rfl⟩ := boundary
  · simp [tokens_plain]
  · rw [tokens_join, tokens_cons (by decide)]

/-- A `$` opens the token that extends to the next boundary. -/
theorem tokens_dollar {name after : Bytes} (whole : slash ∉ name) (boundary : Boundary after) :
    tokens (dollar :: (name ++ after)) = name :: tokens after := by
  have segment : slash ∉ dollar :: name := by
    simp only [List.mem_cons, not_or]
    exact ⟨by decide, whole⟩
  have single : tokens (dollar :: name) = [name] := by
    simp [tokens, List.splitOn_eq_singleton segment, tokenOf]
  rw [← List.cons_append, tokens_boundary _ boundary, single, List.singleton_append]

/-- The tokens after a position are those from the next `$` on. -/
theorem pending_find (str : Bytes) (pos : Nat) :
    pending ⟨str, find str dollar pos⟩ = tokens (str.drop pos) := by
  cases located : find str dollar pos with
  | none => exact (tokens_plain (find_none located)).symm
  | some found =>
    obtain ⟨skipped, rest, split, plain, _, atFound⟩ := find_some located
    simp only [pending, atFound, split, tokens_skip plain]

/-- A position that was searched for is the position of a `$`. -/
theorem atDollar_find (str : Bytes) (pos : Nat) : AtDollar ⟨str, find str dollar pos⟩ := by
  intro found located
  obtain ⟨_, rest, _, _, _, atFound⟩ := find_some located
  exact ⟨rest, atFound⟩

/-- One execution of the loop body replaces the text from the `$` to the boundary
by the value of the variable named there, and leaves the text before the `$` and
the text from the boundary on unchanged. -/
theorem body_replaces (env : Environment) {str : Bytes} {dollarPos : Nat} {rest : Bytes}
    (atDollar : str.drop dollarPos = dollar :: rest) :
    ∃ name after, rest = name ++ after ∧ slash ∉ name ∧ Boundary after ∧
      ∃ replaced, body env ⟨str, some dollarPos⟩ =
          .inl ⟨replaced, find replaced dollar (dollarPos + 1)⟩ ∧
        replaced = str.take dollarPos ++ (env.getenv name).getD [] ++ after := by
  have next : str.drop (dollarPos + 1) = rest := by
    rw [← List.drop_drop, atDollar]
    rfl
  have bound : dollarPos + 1 + rest.length = str.length := by
    have lengths := congrArg List.length atDollar
    simp only [List.length_drop, List.length_cons] at lengths
    omega
  cases located : find str slash (dollarPos + 1) with
  | none =>
    have whole : slash ∉ rest := next ▸ find_none located
    refine ⟨rest, [], by simp, whole, Or.inl rfl, _, by simp only [body, located]; rfl, ?_⟩
    have name : substr str (dollarPos + 1) (str.length - 1) = rest := by
      simp only [substr, next]
      exact List.take_of_length_le (by omega)
    have past : str.drop (dollarPos + str.length) = [] := List.drop_of_length_le (by omega)
    simp only [replace, name, past]
  | some sPos =>
    obtain ⟨name, tail, split, whole, same, atSlash⟩ := find_some located
    rw [next] at split
    refine ⟨name, slash :: tail, split, whole, Or.inr ⟨tail, rfl⟩, _,
      by simp only [body, located]; rfl, ?_⟩
    have extent : sPos - dollarPos - 1 = name.length := by omega
    have read : substr str (dollarPos + 1) (sPos - dollarPos - 1) = name := by
      simp only [substr, next, split, extent, List.take_left]
    have remains : str.drop (dollarPos + (sPos - dollarPos)) = slash :: tail := by
      rw [← atSlash]
      congr 1
      omega
    simp only [replace, read, remains]

/-- The loop is the expansion of a worklist of names: one iteration replaces the
first pending token by the references of the variable it names.

The search resumes one byte after the replaced `$`. When the value is not empty
this skips its first byte; when it is empty it skips at most the `/` of the
boundary, which belongs to no token. -/
theorem body_expands (env : Environment) (state next : State) (atDollar : AtDollar state)
    (continues : body env state = .inl next) :
    Worklist.expand (references env) (pending state) = .inl (pending next) ∧ AtDollar next := by
  obtain ⟨str, position⟩ := state
  cases position with
  | none => simp [body] at continues
  | some dollarPos =>
    obtain ⟨rest, here⟩ := atDollar dollarPos rfl
    change str.drop dollarPos = dollar :: rest at here
    obtain ⟨name, after, rfl, whole, boundary, replaced, stepped, same⟩ := body_replaces env here
    rw [stepped, Sum.inl.injEq] at continues
    subst continues
    refine ⟨?_, atDollar_find replaced (dollarPos + 1)⟩
    have bound : dollarPos < str.length := by
      by_contra beyond
      rw [List.drop_of_length_le (by omega)] at here
      exact absurd here (by simp)
    have resumed : replaced.drop (dollarPos + 1) =
        ((env.getenv name).getD [] ++ after).drop 1 := by
      rw [same, List.append_assoc, List.drop_append, List.length_take, Nat.min_eq_left (by omega),
        List.drop_of_length_le (by simp), List.nil_append, Nat.add_sub_cancel_left]
    have remaining : tokens (((env.getenv name).getD [] ++ after).drop 1) =
        references env name ++ tokens after := by
      cases value : (env.getenv name).getD [] with
      | nil =>
        obtain rfl | ⟨tail, rfl⟩ := boundary
        · simp [references, value, tokens_plain]
        · simp [references, value, tokens_plain, tokens_cons (show slash ≠ dollar by decide)]
      | cons ch value_ =>
        simp only [references, value, List.cons_append, List.drop_succ_cons, List.drop_zero]
        exact tokens_boundary value_ boundary
    simp only [pending_find, resumed, remaining]
    simp only [pending, here, tokens_dollar whole boundary, Worklist.expand]

/-- The loop terminates exactly when every token of the string is accessible along
the references among variables. -/
theorem loop_terminates_iff (env : Environment) (str : Bytes) :
    Loops.Terminates (body env) (start str) ↔
      ∀ token ∈ tokens str, Acc (Worklist.Child (references env)) token := by
  have simulated : Loops.Terminates (body env) (start str) ↔
      Loops.Terminates (Worklist.expand (references env)) (pending (start str)) := by
    refine Loops.terminates_iff_abstract pending AtDollar (body_expands env) ?_ (start str)
      (atDollar_find str 0)
    intro state result _ leaves
    obtain ⟨str, position⟩ := state
    cases position with
    | none => exact ⟨(), rfl⟩
    | some dollarPos => simp [body] at leaves
  rw [simulated, Worklist.terminates_iff, start, pending_find, List.drop_zero]

/-- Only the finitely many values of the environment contain names to refer to. -/
theorem references_finite (env : Environment) :
    {child | ∃ parent, child ∈ references env parent}.Finite := by
  refine (env.entries.flatMap fun entry => tokens (entry.2.drop 1)).finite_toSet.subset ?_
  rintro child ⟨parent, referred⟩
  simp only [references, Environment.getenv] at referred
  cases found : env.entries.lookup (cStr parent) with
  | none => simp [found, tokens_plain] at referred
  | some value =>
    rw [found, Option.getD_some] at referred
    exact List.mem_flatMap.mpr ⟨(cStr parent, value), mem_of_lookup found, referred⟩

/-- A call returns the strings that its loop returns. -/
theorem yields_iff_returns (env : Environment) (fileExists : Bytes → Bool) (str : Bytes)
    (path : Bool) (result : Bytes) :
    (∃ fuel flag, expandEnvVars env fileExists fuel str path = some (result, flag)) ↔
      Loops.Returns (body env) (start str) result := by
  constructor
  · rintro ⟨fuel, flag, returned⟩
    obtain ⟨expanded, finished, same⟩ := Option.map_eq_some_iff.mp returned
    obtain ⟨rfl, _⟩ := Prod.mk.inj same
    exact ⟨fuel, finished⟩
  · rintro ⟨fuel, finished⟩
    exact ⟨fuel, _, Option.map_eq_some_iff.mpr ⟨result, finished, rfl⟩⟩

/-- A call returns exactly when its loop terminates. -/
theorem returns_iff_terminates (env : Environment) (fileExists : Bytes → Bool) (str : Bytes)
    (path : Bool) : (∃ fuel result, expandEnvVars env fileExists fuel str path = some result) ↔
      Loops.Terminates (body env) (start str) := by
  constructor
  · rintro ⟨fuel, ⟨result, flag⟩, returned⟩
    exact ⟨result, (yields_iff_returns env fileExists str path result).mp ⟨fuel, flag, returned⟩⟩
  · rintro ⟨result, returned⟩
    obtain ⟨fuel, flag, called⟩ := (yields_iff_returns env fileExists str path result).mpr returned
    exact ⟨fuel, (result, flag), called⟩

/-- The loop terminates exactly when no token of the string leads to a variable that
refers to itself. -/
theorem terminates_iff_no_cycle (env : Environment) (str : Bytes) :
    Loops.Terminates (body env) (start str) ↔
      ∀ token ∈ tokens str, ¬ ∃ reached, Worklist.Reaches (references env) token reached ∧
        Worklist.OnCycle (references env) reached := by
  rw [loop_terminates_iff]
  exact forall₂_congr fun token _ => Worklist.acc_iff_no_cycle (references_finite env) token

/-- `ExpandEnvVars` returns exactly when no variable reachable from the tokens of the
string refers to itself, directly or through the values of other variables. The
first byte of a value never takes part in a reference, because the search resumes
behind it. -/
theorem expansion_returns_iff (env : Environment) (fileExists : Bytes → Bool) (str : Bytes) :
    (∃ fuel result, expandEnvVars env fileExists fuel str false = some result) ↔
      ∀ token ∈ tokens str, ¬ ∃ reached, Worklist.Reaches (references env) token reached ∧
        Worklist.OnCycle (references env) reached :=
  (returns_iff_terminates env fileExists str false).trans (terminates_iff_no_cycle env str)

example : expandEnvVars ⟨[(text "HOME", text "/root")], by decide⟩ (fun _ => false) 3
    (text "$HOME/lib/$NONE") false = some (text "/root/lib/", true) := by decide

/-- A variable whose value mentions the variable behind its first byte. -/
def selfReferring : Environment where
  entries := [(text "A", text "x$A")]
  nulFree := by decide

/-- No budget suffices to expand `$A` when the value of `A` is `x$A`. -/
theorem self_reference_never_returns : ¬ ∃ fuel result,
    expandEnvVars selfReferring (fun _ => false) fuel (text "$A") false = some result := by
  rw [returns_iff_terminates, terminates_iff_no_cycle]
  intro acyclic
  have itself : text "A" ∈ references selfReferring (text "A") := by decide
  exact acyclic (text "A") (by decide) ⟨text "A", .refl, .single itself⟩

end CppInterpreter.ExpandEnvVars
