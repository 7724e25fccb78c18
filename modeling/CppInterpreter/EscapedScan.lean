import Mathlib.Algebra.Group.Nat.Even

/-!
# Scanning for an unescaped closer

A scan from the left passes over each escape together with the element behind it and
stops at the first closer it meets. Seen from the right, a closer counts when the run
of escapes directly before it has even length. The two views agree: the scan stops
at the least closer that counts. When there is none, the scan ends with the list or
passes over its end, according to the parity of the run of escapes at the end.
-/

namespace CppInterpreter.EscapedScan

variable {α : Type*}

/-- How a scan ends: at the closer with this index, with the list, or behind it. -/
inductive Ending where
  | closed (index : Nat)
  | unclosed
  | overrun
deriving DecidableEq, Repr

/-- The same ending seen from an earlier start. -/
def Ending.shift (distance : Nat) : Ending → Ending
  | .closed index => .closed (index + distance)
  | .unclosed => .unclosed
  | .overrun => .overrun

variable [DecidableEq α] (escape close : α)

/-- Scan from the left, passing over each escape and the element behind it. -/
def scan : List α → Ending
  | [] => .unclosed
  | head :: tail =>
    if head = escape then
      match tail with
      | [] => .overrun
      | _ :: rest => (scan rest).shift 2
    else if head = close then .closed 0
    else (scan tail).shift 1

/-- The length of the run of escapes directly before an index. -/
def escapeRun (list : List α) (index : Nat) : Nat :=
  ((list.take index).reverse.takeWhile (· = escape)).length

/-- A closer that is not escaped, judged by the run before it. -/
def Closes (list : List α) (index : Nat) : Prop :=
  list[index]? = some close ∧ Even (escapeRun escape list index)

variable {escape close}

/-- A first element that is no escape takes part in no run. -/
theorem escapeRun_cons {head : α} (plain : head ≠ escape) (tail : List α) (index : Nat) :
    escapeRun escape (head :: tail) (index + 1) = escapeRun escape tail index := by
  simp only [escapeRun, List.take_succ_cons, List.reverse_cons, List.takeWhile_append]
  split
  · next whole => simp [plain, whole]
  · rfl

/-- A leading escape and the element behind it change no parity: the run before a
later index contains both of them or neither. -/
theorem escapeRun_pair (second : α) (rest : List α) (index : Nat) :
    Even (escapeRun escape (escape :: second :: rest) (index + 2)) ↔
      Even (escapeRun escape rest index) := by
  simp only [escapeRun, List.take_succ_cons, List.reverse_cons, List.append_assoc,
    List.takeWhile_append]
  split
  · next whole =>
    by_cases escaped : second = escape
    · simp [escaped, whole, Nat.even_add, show Even 2 from ⟨1, rfl⟩]
    · simp [escaped, whole]
  · rfl

/-- The first index has no run before it. -/
@[simp] theorem escapeRun_zero (list : List α) : escapeRun escape list 0 = 0 := by
  simp [escapeRun]

/-- Behind a first element that is neither escape nor closer, closers are those of
the tail. -/
theorem closes_cons {head : α} (plain : head ≠ escape) (tail : List α) (index : Nat) :
    Closes escape close (head :: tail) (index + 1) ↔ Closes escape close tail index := by
  simp only [Closes, escapeRun_cons plain, List.getElem?_cons_succ]

/-- Behind a leading escape and its element, closers are those of the rest. -/
theorem closes_pair (second : α) (rest : List α) (index : Nat) :
    Closes escape close (escape :: second :: rest) (index + 2) ↔
      Closes escape close rest index := by
  simp only [Closes, escapeRun_pair, List.getElem?_cons_succ]

/-- Neither a leading escape nor the element behind it is a closer that counts. -/
theorem not_closes_escaped (different : escape ≠ close) (rest : List α) {index : Nat}
    (early : index < 2) : ¬ Closes escape close (escape :: rest) index := by
  rintro ⟨found, even⟩
  match index, early with
  | 0, _ => simp [different] at found
  | 1, _ => simp [escapeRun] at even

/-- What an ending says about the scanned list. -/
def Ending.Meets (escape close : α) (list : List α) : Ending → Prop
  | .closed index => Closes escape close list index ∧ ∀ earlier < index, ¬ Closes escape close list earlier
  | .unclosed => (∀ index, ¬ Closes escape close list index) ∧ Even (escapeRun escape list list.length)
  | .overrun => (∀ index, ¬ Closes escape close list index) ∧ ¬ Even (escapeRun escape list list.length)

/-- Passing over the front of a list shifts what an ending says, when no closer in the
front counts and the closers and the final run behind it stay the same. -/
theorem Ending.meets_shift {list rest : List α} {distance : Nat}
    (length : list.length = rest.length + distance)
    (early : ∀ index < distance, ¬ Closes escape close list index)
    (later : ∀ index, Closes escape close list (index + distance) ↔ Closes escape close rest index)
    (parity : Even (escapeRun escape list (rest.length + distance)) ↔
      Even (escapeRun escape rest rest.length))
    {ending : Ending} (met : ending.Meets escape close rest) :
    (ending.shift distance).Meets escape close list := by
  have absent : ∀ index, (∀ lower, lower + distance = index → ¬ Closes escape close rest lower) →
      ¬ Closes escape close list index := by
    intro index below
    by_cases inFront : index < distance
    · exact early index inFront
    · obtain ⟨lower, rfl⟩ := Nat.exists_eq_add_of_le' (Nat.le_of_not_lt inFront)
      rw [later]
      exact below lower rfl
  cases ending with
  | closed index =>
    refine ⟨(later index).mpr met.1, ?_⟩
    intro earlier before
    apply absent earlier
    intro lower same
    exact met.2 lower (by omega)
  | unclosed =>
    constructor
    · intro index
      apply absent index
      intro lower _
      exact met.1 lower
    · rw [length, parity]
      exact met.2
  | overrun =>
    constructor
    · intro index
      apply absent index
      intro lower _
      exact met.1 lower
    · rw [length, parity]
      exact met.2

/-- The scan ends as the runs of escapes say. Both kinds of step, over an escaped pair
and over a plain element, shift the closers of the remaining list and keep the
parity of its runs. -/
theorem scan_meets (different : escape ≠ close) (list : List α) :
    (scan escape close list).Meets escape close list := by
  fun_induction scan escape close list with
  | case1 => simp [Ending.Meets, Closes]
  | case2 =>
    refine ⟨?_, by simp [escapeRun]⟩
    rintro index ⟨found, _⟩
    cases index <;> simp [different] at found
  | case3 second rest inductionHypothesis =>
    apply Ending.meets_shift rfl _ (closes_pair second rest) _ inductionHypothesis
    · exact fun index early => not_closes_escaped different _ early
    · exact escapeRun_pair second rest rest.length
  | case4 tail plain => exact ⟨by simp [Closes], by simp⟩
  | case5 head tail plain other inductionHypothesis =>
    apply Ending.meets_shift rfl _ (closes_cons plain tail) _ inductionHypothesis
    · intro index early
      obtain rfl : index = 0 := Nat.lt_one_iff.mp early
      simp [Closes, other]
    · rw [escapeRun_cons plain]

/-- The scan stops at the least closer that counts. -/
theorem scan_closed_iff (different : escape ≠ close) (list : List α) (index : Nat) :
    scan escape close list = .closed index ↔
      Closes escape close list index ∧ ∀ earlier < index, ¬ Closes escape close list earlier := by
  have met := scan_meets different list
  constructor
  · intro ended
    rwa [ended] at met
  · rintro ⟨closes, least⟩
    cases ended : scan escape close list with
    | closed found =>
      rw [ended] at met
      rcases Nat.lt_trichotomy found index with before | same | after
      · exact absurd met.1 (least found before)
      · rw [same]
      · exact absurd closes (met.2 index after)
    | unclosed =>
      rw [ended] at met
      exact absurd closes (met.1 index)
    | overrun =>
      rw [ended] at met
      exact absurd closes (met.1 index)

/-- The scan passes over the end exactly when no closer counts and the run of escapes
at the end is odd. -/
theorem scan_overrun_iff (different : escape ≠ close) (list : List α) :
    scan escape close list = .overrun ↔
      (∀ index, ¬ Closes escape close list index) ∧
        ¬ Even (escapeRun escape list list.length) := by
  have met := scan_meets different list
  constructor
  · intro ended
    rwa [ended] at met
  · rintro ⟨never, odd⟩
    cases ended : scan escape close list with
    | closed found =>
      rw [ended] at met
      exact absurd met.1 (never found)
    | unclosed =>
      rw [ended] at met
      exact absurd met.2 odd
    | overrun => rfl

/-- The closer at which a scan stops lies within the list. -/
theorem scan_closed_bound (different : escape ≠ close) {list : List α} {index : Nat}
    (ended : scan escape close list = .closed index) : index < list.length :=
  (List.getElem?_eq_some_iff.mp ((scan_closed_iff different list index).mp ended).1.1).1

/-- A scan that stops at a closer stopped there before it was shifted. -/
theorem Ending.shift_closed {ending : Ending} {distance index : Nat} :
    ending.shift distance = .closed index ↔
      ∃ inner, ending = .closed inner ∧ inner + distance = index := by
  cases ending <;> simp [Ending.shift]

/-- What follows the closer at which a scan stops makes no difference. -/
theorem scan_append {list : List α} {index : Nat} (ended : scan escape close list = .closed index)
    (tail : List α) : scan escape close (list ++ tail) = .closed index := by
  fun_induction scan escape close list generalizing index with
  | case1 | case2 => cases ended
  | case3 second rest inductionHypothesis =>
    obtain ⟨inner, closed, rfl⟩ := Ending.shift_closed.mp ended
    simp only [List.cons_append, scan, ↓reduceIte]
    exact Ending.shift_closed.mpr ⟨inner, inductionHypothesis closed, rfl⟩
  | case4 rest plain =>
    rw [List.cons_append, scan.eq_def]
    simp only [plain, ↓reduceIte, ended]
  | case5 head rest plain other inductionHypothesis =>
    obtain ⟨inner, closed, rfl⟩ := Ending.shift_closed.mp ended
    rw [List.cons_append, scan.eq_def]
    simp only [plain, other, ↓reduceIte]
    exact Ending.shift_closed.mpr ⟨inner, inductionHypothesis closed, rfl⟩

/-- A list that does not end with an escape has no run of escapes at its end. -/
theorem escapeRun_ending {list : List α} (ending : list.getLast? ≠ some escape) :
    escapeRun escape list list.length = 0 := by
  rw [escapeRun, List.take_length, List.getLast?_eq_head?_reverse] at *
  cases backwards : list.reverse with
  | nil => rfl
  | cons last earlier =>
    rw [backwards] at ending
    have plain : last ≠ escape := by simpa using ending
    simp [plain]

end CppInterpreter.EscapedScan
