import CppInterpreter.ExpandEnvVars
import Mathlib.Data.List.TakeWhile

/-!
# Expansion in a single pass

Where the values of an environment do not contain a `$`, nothing that is inserted is
expanded again. The loop then goes over the string once: it leaves alone what stands before
the first `$` of a segment, and replaces the rest of the segment by the value of the
variable that is named there. No `$` is left, so expanding the result changes nothing.

A token reaches to the end of its segment, whatever follows. Tokens that stand next to each
other are one, and its name is that of no variable. Their values are put together only
where there is nothing to put together.
-/

namespace CppInterpreter.ExpandEnvVars

open Bytes

/-- The value of a variable, which is empty for an unset one. -/
def Environment.value (env : Environment) (name : Bytes) : Bytes := (env.entries.lookup name).getD []

/-- No value contains a `$`. -/
def Environment.Plain (env : Environment) : Prop := ∀ entry ∈ env.entries, dollar ∉ entry.2

/-- A segment with the part from its first `$` on replaced by the value of the variable that
is named behind the `$`. -/
def expandSegment (env : Environment) (segment : Bytes) : Bytes :=
  match tokenOf segment with
  | none => segment
  | some name => segment.takeWhile (· ≠ dollar) ++ env.value name

/-- A string with each of its segments expanded. -/
def expandOnce (env : Environment) (str : Bytes) : Bytes :=
  [slash].intercalate ((str.splitOn slash).map (expandSegment env))

section Segments

variable {env : Environment}

/-- Reading a name that has no NUL gives the value of the variable. -/
theorem getenv_value {name : Bytes} (nulFree : 0 ∉ name) :
    (env.getenv name).getD [] = env.value name := by
  rw [Environment.getenv, cStr_nulFree nulFree, Environment.value]

/-- The values of a plain environment do not contain a `$`. -/
theorem value_plain (plain : env.Plain) (name : Bytes) : dollar ∉ env.value name := by
  cases found : env.entries.lookup name with
  | none => simp [Environment.value, found]
  | some value =>
    rw [Environment.value, found]
    exact plain (name, value) (mem_of_lookup found)

/-- A first byte that is no `$` stays in front of its segment. -/
theorem expandSegment_cons {ch : UInt8} (other : ch ≠ dollar) (segment : Bytes) :
    expandSegment env (ch :: segment) = ch :: expandSegment env segment := by
  have same : tokenOf (ch :: segment) = tokenOf segment := by simp [tokenOf, other]
  rw [expandSegment, same, expandSegment]
  cases tokenOf segment with
  | none => rfl
  | some name => simp [other]

/-- A segment that begins with a `$` becomes a value. -/
theorem expandSegment_dollar (name : Bytes) :
    expandSegment env (dollar :: name) = env.value name := by
  simp [expandSegment, tokenOf]

/-- A first byte that is no `$` stays in front of the string. -/
theorem expandOnce_cons {ch : UInt8} (other : ch ≠ dollar) (str : Bytes) :
    expandOnce env (ch :: str) = ch :: expandOnce env str := by
  obtain ⟨segment, segments, split⟩ := List.exists_cons_of_ne_nil (List.splitOn_ne_nil slash str)
  simp only [expandOnce, List.splitOn_cons_eq_if_modifyHead, split]
  by_cases separator : ch = slash
  · subst separator
    have empty : expandSegment env [] = [] := rfl
    simp only [BEq.rfl, ↓reduceIte, List.map_cons, empty, List.intercalate_cons_cons,
      List.nil_append, List.singleton_append]
  · have apart : (ch == slash) = false := by simpa using separator
    simp only [apart, Bool.false_eq_true, ↓reduceIte, List.modifyHead_cons, List.map_cons,
      expandSegment_cons other, List.intercalate_cons_cons_left]

/-- Bytes that are no `$` stay in front of the string. -/
theorem expandOnce_skip {skipped : Bytes} (plain : dollar ∉ skipped) (str : Bytes) :
    expandOnce env (skipped ++ str) = skipped ++ expandOnce env str := by
  induction skipped with
  | nil => rfl
  | cons ch skipped inductionHypothesis =>
    rw [List.mem_cons, not_or] at plain
    rw [List.cons_append, expandOnce_cons (Ne.symm plain.1), inductionHypothesis plain.2,
      List.cons_append]

/-- A string without a `$` stays as it is. -/
theorem expandOnce_plain {str : Bytes} (plain : dollar ∉ str) : expandOnce env str = str := by
  have empty : expandOnce env [] = [] := rfl
  have skip : expandOnce env (str ++ []) = str ++ expandOnce env [] := expandOnce_skip plain []
  simpa only [List.append_nil, empty] using skip

/-- A token is replaced up to the next boundary. -/
theorem expandOnce_dollar {name after : Bytes} (whole : slash ∉ name) (boundary : Boundary after) :
    expandOnce env (dollar :: (name ++ after)) = env.value name ++ expandOnce env after := by
  have segment : slash ∉ dollar :: name := by
    simp only [List.mem_cons, not_or]
    exact ⟨by decide, whole⟩
  obtain rfl | ⟨tail, rfl⟩ := boundary
  · rw [List.append_nil, expandOnce, List.splitOn_eq_singleton segment]
    simp only [List.map_cons, List.map_nil, expandSegment_dollar, List.intercalate_singleton]
    exact (List.append_nil _).symm
  · obtain ⟨next, segments, split⟩ := List.exists_cons_of_ne_nil (List.splitOn_ne_nil slash tail)
    have separated : expandOnce env (slash :: tail) = slash :: expandOnce env tail :=
      expandOnce_cons (by decide) tail
    rw [separated, ← List.cons_append, expandOnce,
      List.splitOn_append_cons_self_of_not_mem segment, expandOnce, split]
    simp only [List.map_cons, expandSegment_dollar, List.intercalate_cons_cons, List.append_assoc,
      List.singleton_append]

/-- A segment that has no token has no `$`. -/
theorem tokenOf_none {segment : Bytes} (none : tokenOf segment = none) : dollar ∉ segment := by
  induction segment with
  | nil => exact List.not_mem_nil
  | cons ch segment inductionHypothesis =>
    by_cases same : ch = dollar
    · simp [tokenOf, same] at none
    · rw [tokenOf, if_neg same] at none
      rw [List.mem_cons, not_or]
      exact ⟨Ne.symm same, inductionHypothesis none⟩

/-- An expanded segment contains no `$`. -/
theorem dollar_not_mem_expandSegment (plain : env.Plain) (segment : Bytes) :
    dollar ∉ expandSegment env segment := by
  cases token : tokenOf segment with
  | none =>
    rw [expandSegment, token]
    exact tokenOf_none token
  | some name =>
    simp only [expandSegment, token, List.mem_append, not_or]
    refine ⟨?_, value_plain plain name⟩
    intro present
    have other := List.mem_takeWhile_imp present
    simp at other

/-- No `$` is left. -/
theorem dollar_not_mem_expandOnce (plain : env.Plain) (str : Bytes) :
    dollar ∉ expandOnce env str := by
  intro present
  obtain separator | ⟨expanded, member, inside⟩ := mem_intercalate present
  · exact absurd separator (by decide)
  · obtain ⟨segment, _, rfl⟩ := List.mem_map.mp member
    exact dollar_not_mem_expandSegment plain segment inside

end Segments

section Passes

variable {env : Environment}

/-- The search behind a replaced `$` finds what a search behind the inserted value would. -/
theorem find_resumed {front value after : Bytes} (plain : dollar ∉ value)
    (boundary : Boundary after) :
    find (front ++ value ++ after) dollar (front.length + 1) =
      find (front ++ value ++ after) dollar (front ++ value).length := by
  cases value with
  | nil =>
    have other : (front ++ [] ++ after)[front.length]? ≠ some dollar := by
      obtain rfl | ⟨tail, rfl⟩ := boundary
      · simp
      · have apart : slash ≠ dollar := by decide
        simp [apart]
    rw [← find_next other, List.append_nil]
  | cons head value =>
    have length : (front ++ head :: value).length = front.length + 1 + value.length := by
      rw [List.length_append, List.length_cons]
      omega
    rw [length]
    apply find_skip
    intro index behind before
    have inside : (front ++ head :: value ++ after)[index]? = (head :: value)[index - front.length]? := by
      rw [List.getElem?_append_left (by omega), List.getElem?_append_right (by omega)]
    rw [inside]
    intro present
    exact plain (List.mem_of_getElem? present)

/-- The loop that has reached a position expands the text from there on. -/
theorem expands_rest (plain : env.Plain) {rest : Bytes} (nulFree : 0 ∉ rest) (front : Bytes) :
    Loops.Returns (body env) ⟨front ++ rest, find (front ++ rest) dollar front.length⟩
      (front ++ expandOnce env rest) := by
  induction size : rest.length using Nat.strong_induction_on generalizing rest front with
  | h length inductionHypothesis =>
    cases located : find (front ++ rest) dollar front.length with
    | none =>
      have absent := find_none located
      rw [List.drop_left] at absent
      have leaves : body env ⟨front ++ rest, none⟩ = .inr (front ++ rest) := rfl
      rw [expandOnce_plain absent]
      exact (Loops.returns_of_leaves leaves _).mpr rfl
    | some found =>
      obtain ⟨skipped, behind, split, skippedPlain, same, atFound⟩ := find_some located
      rw [List.drop_left] at split
      obtain ⟨name, after, rfl, whole, boundary, replaced, stepped, result⟩ := body_replaces env atFound
      subst split
      simp only [List.mem_append, List.mem_cons, not_or] at nulFree
      obtain ⟨_, _, nameFree, afterFree⟩ := nulFree
      -- What stands before the token stays, and the token becomes its value.
      have kept : (front ++ (skipped ++ dollar :: (name ++ after))).take found = front ++ skipped := by
        rw [← List.append_assoc, same, ← List.length_append, List.take_left]
      rw [kept, getenv_value nameFree] at result
      have position : found = (front ++ skipped).length := by rw [same, List.length_append]
      have resumed : find replaced dollar (found + 1) =
          find replaced dollar (front ++ skipped ++ env.value name).length := by
        rw [result, position]
        exact find_resumed (value_plain plain name) boundary
      rw [resumed, result] at stepped
      have shorter : after.length < length := by
        rw [← size]
        simp only [List.length_append, List.length_cons]
        omega
      have later := inductionHypothesis after.length shorter afterFree
        (front ++ skipped ++ env.value name) rfl
      have continued := (Loops.returns_of_continues stepped _).mpr later
      rw [expandOnce_skip skippedPlain, expandOnce_dollar whole boundary]
      simpa only [List.append_assoc] using continued

/-- The loop expands the whole string. -/
theorem expands_start (plain : env.Plain) {str : Bytes} (nulFree : 0 ∉ str) :
    Loops.Returns (body env) (start str) (expandOnce env str) :=
  expands_rest plain nulFree []

/-- Under a plain environment a call returns the string expanded once, and nothing else. -/
theorem yields_iff (plain : env.Plain) (fileExists : Bytes → Bool) {str : Bytes}
    (nulFree : 0 ∉ str) (path : Bool) (result : Bytes) :
    (∃ fuel flag, expandEnvVars env fileExists fuel str path = some (result, flag)) ↔
      result = expandOnce env str := by
  rw [yields_iff_returns]
  constructor
  · intro returned
    exact Loops.returns_unique returned (expands_start plain nulFree)
  · rintro rfl
    exact expands_start plain nulFree

/-- Where the path is not asked for, the flag of a finished call is set. -/
theorem succeeds_of_yields {fileExists : Bytes → Bool} {str result : Bytes}
    (yields : ∃ fuel flag, expandEnvVars env fileExists fuel str false = some (result, flag)) :
    ∃ fuel, expandEnvVars env fileExists fuel str false = some (result, true) := by
  obtain ⟨fuel, flag, returned⟩ := yields
  obtain ⟨expanded, _, same⟩ := Option.map_eq_some_iff.mp returned
  obtain ⟨_, rfl⟩ := Prod.mk.inj same
  exact ⟨fuel, returned⟩

/-- `ExpandEnvVars` under an environment whose values have no `$` returns the string with each
segment expanded once. No `$` is left, and a second call changes nothing. The text behind the
first `$` of a segment is the name, so a further `$` of that segment is part of it. -/
theorem expands_once (plain : env.Plain) (fileExists : Bytes → Bool) {str : Bytes}
    (nulFree : 0 ∉ str) :
    (∃ fuel, expandEnvVars env fileExists fuel str false = some (expandOnce env str, true)) ∧
      dollar ∉ expandOnce env str ∧
      ∃ fuel, expandEnvVars env fileExists fuel (expandOnce env str) false =
        some (expandOnce env str, true) := by
  have absent := dollar_not_mem_expandOnce plain str
  refine ⟨succeeds_of_yields ((yields_iff plain fileExists nulFree false _).mpr rfl), absent, ?_⟩
  -- The second call finds no `$` and leaves at once, whatever bytes the values hold.
  have searched : find (expandOnce env str) dollar 0 = none := by
    simpa only [find, Option.map_eq_none_iff, List.idxOf?_eq_none_iff, List.drop_zero] using absent
  have leaves : body env (start (expandOnce env str)) = .inr (expandOnce env str) := by
    rw [start, searched, body]
  have returned := (Loops.returns_of_leaves leaves (expandOnce env str)).mpr rfl
  exact succeeds_of_yields ((yields_iff_returns env fileExists _ false _).mpr returned)

/-- An environment with a home directory. -/
def homeOnly : Environment where
  entries := [(text "HOME", text "/root")]
  nulFree := by decide

/-- No value of it has a `$`. -/
theorem homeOnly_plain : homeOnly.Plain := by
  unfold Environment.Plain
  decide

/-- The token in the middle becomes its value, and the token of an unset variable nothing. -/
theorem expands_once_home :
    0 ∉ text "a$HOME/lib/$NONE" ∧ ∃ fuel, expandEnvVars homeOnly (fun _ => false) fuel
      (text "a$HOME/lib/$NONE") false = some (text "a/root/lib/", true) := by
  have nulFree : 0 ∉ text "a$HOME/lib/$NONE" := by decide
  have expanded : expandOnce homeOnly (text "a$HOME/lib/$NONE") = text "a/root/lib/" := by decide
  obtain ⟨returned, _⟩ := expands_once homeOnly_plain (fun _ => false) nulFree
  rw [expanded] at returned
  exact ⟨nulFree, returned⟩

end Passes

section Adjacent

variable {env : Environment}

/-- Tokens that stand next to each other. -/
def adjacent (names : List Bytes) : Bytes := names.flatMap (dollar :: ·)

/-- A name with a `$` in it is that of no variable, when no variable has such a name. -/
theorem value_unset (named : ∀ entry ∈ env.entries, dollar ∉ entry.1) {name : Bytes}
    (odd : dollar ∈ name) : env.value name = [] := by
  cases found : env.entries.lookup name with
  | none => simp [Environment.value, found]
  | some value =>
    exact absurd odd (named (name, value) (mem_of_lookup found))

/-- Only a `$` or a byte of a name stands in adjacent tokens. -/
theorem not_mem_adjacent {names : List Bytes} {ch : UInt8} (other : ch ≠ dollar)
    (absent : ∀ name ∈ names, ch ∉ name) : ch ∉ adjacent names := by
  intro present
  obtain ⟨name, member, inside⟩ := List.mem_flatMap.mp present
  exact absent name member ((List.mem_cons.mp inside).resolve_left other)

/-- A token that is the whole string becomes its value. -/
theorem expandOnce_token {name : Bytes} (whole : slash ∉ name) :
    expandOnce env (dollar :: name) = env.value name := by
  have replaced : expandOnce env (dollar :: (name ++ [])) = env.value name ++ expandOnce env [] :=
    expandOnce_dollar whole (Or.inl rfl)
  have empty : expandOnce env [] = [] := rfl
  simpa only [List.append_nil, empty] using replaced

/-- Two or more adjacent tokens are one, which becomes nothing. -/
theorem expandOnce_adjacent (named : ∀ entry ∈ env.entries, dollar ∉ entry.1)
    {first second : Bytes} {names : List Bytes} (whole : slash ∉ adjacent (first :: second :: names)) :
    expandOnce env (adjacent (first :: second :: names)) = [] := by
  have opened : adjacent (first :: second :: names) =
      dollar :: (first ++ dollar :: (second ++ adjacent names)) := by
    simp only [adjacent, List.flatMap_cons, List.cons_append]
  rw [opened, List.mem_cons, not_or] at whole
  rw [opened, expandOnce_token whole.2]
  exact value_unset named (by simp)

/-- Tokens that stand next to each other are expanded to their values exactly when there is one
of them at most, or all the values are empty. -/
theorem expands_adjacent_iff (plain : env.Plain)
    (named : ∀ entry ∈ env.entries, dollar ∉ entry.1) (fileExists : Bytes → Bool)
    {names : List Bytes}
    (free : ∀ name ∈ names, dollar ∉ name ∧ slash ∉ name ∧ 0 ∉ name) (path : Bool) :
    (∃ fuel flag, expandEnvVars env fileExists fuel (adjacent names) path =
        some (names.flatMap env.value, flag)) ↔
      names.length ≤ 1 ∨ ∀ name ∈ names, env.value name = [] := by
  have nulFree : 0 ∉ adjacent names := by
    apply not_mem_adjacent (by decide)
    intro name member
    exact (free name member).2.2
  have whole : slash ∉ adjacent names := by
    apply not_mem_adjacent (by decide)
    intro name member
    exact (free name member).2.1
  rw [yields_iff plain fileExists nulFree]
  match names, free, whole with
  | [], _, _ =>
    have same : [] = expandOnce env [] := rfl
    exact iff_of_true same (Or.inl (Nat.zero_le 1))
  | [name], free, _ =>
    have same : expandOnce env (adjacent [name]) = env.value name := by
      simpa only [adjacent, List.flatMap_singleton] using
        expandOnce_token (free name List.mem_cons_self).2.1
    refine iff_of_true ?_ (Or.inl (Nat.le_refl 1))
    rw [same, List.flatMap_singleton]
  | first :: second :: names, _, whole =>
    rw [expandOnce_adjacent named whole, List.flatMap_eq_nil_iff]
    constructor
    · exact Or.inr
    · rintro (short | empty)
      · simp at short
      · exact empty

/-- A single token whose variable is set is expanded to its value. -/
theorem expands_home_alone :
    ∃ fuel flag, expandEnvVars homeOnly (fun _ => false) fuel (adjacent [text "HOME"]) false =
      some (text "/root", flag) := by
  have free : ∀ name ∈ [text "HOME"], dollar ∉ name ∧ slash ∉ name ∧ 0 ∉ name := by decide
  exact (expands_adjacent_iff homeOnly_plain (by decide) (fun _ => false) free false).mpr
    (Or.inl (by decide))

/-- Two variables that have a value each. -/
def twoVariables : Environment where
  entries := [(text "A", text "x"), (text "B", text "y")]
  nulFree := by decide

/-- `$A$B` becomes the empty string where both variables are set. -/
theorem adjacent_tokens_lost :
    expandEnvVars twoVariables (fun _ => false) 2 (adjacent [text "A", text "B"]) false =
        some ([], true) ∧
      ¬ ∃ fuel flag, expandEnvVars twoVariables (fun _ => false) fuel
        (adjacent [text "A", text "B"]) false =
          some ([text "A", text "B"].flatMap twoVariables.value, flag) := by
  have plain : twoVariables.Plain := by
    unfold Environment.Plain
    decide
  refine ⟨by decide, ?_⟩
  rw [yields_iff plain _ (by decide)]
  decide

end Adjacent

end CppInterpreter.ExpandEnvVars
