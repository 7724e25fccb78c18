import Mathlib.Data.List.Infix

/-!
# Splitting at a delimiter

A delimiter is a nonempty list; a list is cut at the leftmost occurrence of it.
Cutting repeatedly yields the pieces between leftmost nonoverlapping occurrences.
The pieces that are followed by a delimiter and by further elements are the leading
ones: a loop that cuts until nothing follows visits exactly these and stops in front
of the trailing rest, which holds at most one more nonempty piece.
-/

namespace CppInterpreter.DelimiterSplit

variable {α : Type*}

/-- A list that can separate others. -/
structure Delimiter (α : Type*) where
  text : List α
  nonempty : text ≠ []

/-- The members of a list of pieces that are not empty, in order. -/
def nonempty (items : List (List α)) : List (List α) := items.filter (· ≠ [])

@[simp] theorem nonempty_nil : nonempty ([] : List (List α)) = [] := rfl

@[simp] theorem nonempty_cons_nil (items : List (List α)) : nonempty ([] :: items) = nonempty items := by
  simp [nonempty]

@[simp] theorem nonempty_cons {item : List α} (present : item ≠ []) (items : List (List α)) :
    nonempty (item :: items) = item :: nonempty items := by
  simp [nonempty, present]

theorem nonempty_append (front back : List (List α)) :
    nonempty (front ++ back) = nonempty front ++ nonempty back := List.filter_append ..

theorem mem_nonempty {item : List α} {items : List (List α)} :
    item ∈ nonempty items ↔ item ∈ items ∧ item ≠ [] := by
  simp [nonempty]

variable [DecidableEq α]

/-- The elements before and after the leftmost occurrence of the delimiter. -/
def cut (delim : Delimiter α) : List α → Option (List α × List α)
  | [] => none
  | head :: tail =>
    if delim.text <+: head :: tail then some ([], (head :: tail).drop delim.text.length)
    else (cut delim tail).map fun halves => (head :: halves.1, halves.2)

/-- A cut splits the list around one occurrence of the delimiter. -/
theorem cut_append {delim : Delimiter α} {list before after : List α}
    (found : cut delim list = some (before, after)) : list = before ++ delim.text ++ after := by
  induction list generalizing before with
  | nil => simp [cut] at found
  | cons head tail inductionHypothesis =>
    by_cases here : delim.text <+: head :: tail
    · simp only [cut, here, ↓reduceIte, Option.some.injEq, Prod.mk.injEq] at found
      obtain ⟨rfl, rfl⟩ := found
      simpa using (List.prefix_iff_eq_append.mp here).symm
    · simp only [cut, here, ↓reduceIte, Option.map_eq_some_iff, Prod.mk.injEq] at found
      obtain ⟨⟨front, back⟩, later, rfl, rfl⟩ := found
      simp only [List.cons_append, ← inductionHypothesis later]

/-- A list without a cut does not contain the delimiter. -/
theorem cut_none_iff (delim : Delimiter α) (list : List α) :
    cut delim list = none ↔ ¬ delim.text <:+: list := by
  induction list with
  | nil => simp [cut, delim.nonempty]
  | cons head tail inductionHypothesis =>
    by_cases here : delim.text <+: head :: tail
    · simp [cut, here, here.isInfix]
    · simp [cut, here, inductionHypothesis, List.infix_cons_iff]

/-- What follows a cut is strictly shorter than the list. -/
theorem cut_shorter {delim : Delimiter α} {list before after : List α}
    (found : cut delim list = some (before, after)) : after.length < list.length := by
  have positive : 0 < delim.text.length := List.length_pos_of_ne_nil delim.nonempty
  have lengths := congrArg List.length (cut_append found)
  simp only [List.length_append] at lengths
  omega

/-- A list that begins with the delimiter is cut there. -/
theorem cut_here (delim : Delimiter α) (rest : List α) :
    cut delim (delim.text ++ rest) = some ([], rest) := by
  obtain ⟨head, tail, spelled⟩ := List.exists_cons_of_ne_nil delim.nonempty
  have here : delim.text <+: head :: (tail ++ rest) := by simp [spelled]
  rw [spelled, List.cons_append, cut, if_pos here, spelled]
  simp

/-- A cut passes over a front in which no occurrence of the delimiter begins. -/
theorem cut_skip {delim : Delimiter α} {front rest : List α}
    (clear : ∀ suffix, suffix ≠ [] → suffix <:+ front → ¬ delim.text <+: suffix ++ rest) :
    cut delim (front ++ rest) = (cut delim rest).map fun halves => (front ++ halves.1, halves.2) := by
  induction front with
  | nil => simp
  | cons head front inductionHypothesis =>
    have here : ¬ delim.text <+: head :: (front ++ rest) :=
      clear (head :: front) (List.cons_ne_nil head front) (List.suffix_refl _)
    have later := inductionHypothesis fun suffix present ends =>
      clear suffix present (ends.trans (List.suffix_cons head front))
    rw [List.cons_append, cut, if_neg here, later, Option.map_map]
    rfl

/-- A cut passes over a front without the first element of the delimiter. -/
theorem cut_past {delim : Delimiter α} {head : α} {tail : List α} (spelled : delim.text = head :: tail)
    {front : List α} (absent : head ∉ front) (rest : List α) :
    cut delim (front ++ rest) = (cut delim rest).map fun halves => (front ++ halves.1, halves.2) := by
  apply cut_skip
  intro suffix present ends occurs
  obtain ⟨first, others, rfl⟩ := List.exists_cons_of_ne_nil present
  rw [spelled, List.cons_append, List.cons_prefix_cons] at occurs
  exact absent (occurs.1 ▸ ends.subset List.mem_cons_self)

/-- A list is cut at the first of the elements that are the delimiter. -/
theorem cut_first {delim : Delimiter α} {separator : α} (single : delim.text = [separator])
    {front : List α} (absent : separator ∉ front) (rest : List α) :
    cut delim (front ++ separator :: rest) = some (front, rest) := by
  have here : cut delim (separator :: rest) = some ([], rest) := by
    simpa [single] using cut_here delim rest
  rw [cut_past single absent, here, Option.map_some, List.append_nil]

/-- What stands before a cut does not have the one element of the delimiter. -/
theorem cut_free {delim : Delimiter α} {separator : α} (single : delim.text = [separator])
    {list before after : List α} (found : cut delim list = some (before, after)) :
    separator ∉ before := by
  have present : separator ∈ list := by
    rw [cut_append found, single]
    simp
  obtain ⟨front, rest, rfl, absent⟩ := List.eq_append_cons_of_mem present
  rw [cut_first single absent] at found
  exact (Prod.mk.inj (Option.some.inj found)).1 ▸ absent

/-- A cut passes over a line that does not contain the delimiter, when the end of the line
is no element of the delimiter. -/
theorem cut_line {delim : Delimiter α} {separator : α} (single : separator ∉ delim.text)
    {line : List α} (absent : ¬ delim.text <:+: line) (rest : List α) :
    cut delim (line ++ separator :: rest) =
      (cut delim rest).map fun halves => (line ++ separator :: halves.1, halves.2) := by
  have passes : cut delim ((line ++ [separator]) ++ rest) =
      (cut delim rest).map fun halves => ((line ++ [separator]) ++ halves.1, halves.2) := by
    apply cut_skip
    intro suffix present ends occurs
    obtain ⟨front, rfl, inside⟩ : ∃ front, suffix = front ++ [separator] ∧ front <:+ line := by
      obtain rfl | found := List.suffix_concat_iff.mp ends
      · exact absurd rfl present
      · exact found
    obtain within | beyond := List.prefix_or_prefix_of_prefix occurs (List.prefix_append _ rest)
    · obtain same | shorter := List.prefix_concat_iff.mp within
      · exact single (by simp [same])
      · exact absent (shorter.isInfix.trans inside.isInfix)
    · exact single (beyond.subset (by simp))
  simpa using passes

/-- The pieces between the leftmost nonoverlapping occurrences of the delimiter. -/
def pieces (delim : Delimiter α) (list : List α) : List (List α) :=
  match _found : cut delim list with
  | none => [list]
  | some (before, after) => before :: pieces delim after
termination_by list.length
decreasing_by exact cut_shorter _found

/-- The pieces that are followed by a delimiter and by further elements. -/
def leading (delim : Delimiter α) (list : List α) : List (List α) :=
  match _found : cut delim list with
  | none => []
  | some (before, after) => if after = [] then [] else before :: leading delim after
termination_by list.length
decreasing_by exact cut_shorter _found

/-- What remains behind the leading pieces and their delimiters. -/
def trailing (delim : Delimiter α) (list : List α) : List α :=
  match _found : cut delim list with
  | none => list
  | some (_, after) => if after = [] then list else trailing delim after
termination_by list.length
decreasing_by exact cut_shorter _found

section Equations

variable {delim : Delimiter α} {list before after : List α}

theorem pieces_uncut (uncut : cut delim list = none) : pieces delim list = [list] := by
  rw [pieces]
  split
  · rfl
  · next found => simp [uncut] at found

theorem pieces_cut (found : cut delim list = some (before, after)) :
    pieces delim list = before :: pieces delim after := by
  rw [pieces]
  split
  · next uncut => simp [uncut] at found
  · next other =>
    rw [found, Option.some.injEq, Prod.mk.injEq] at other
    rw [other.1, other.2]

theorem leading_uncut (uncut : cut delim list = none) : leading delim list = [] := by
  rw [leading]
  split
  · rfl
  · next found => simp [uncut] at found

theorem leading_last (found : cut delim list = some (before, [])) : leading delim list = [] := by
  rw [leading]
  split
  · rfl
  · next other =>
    rw [found, Option.some.injEq, Prod.mk.injEq] at other
    simp [← other.2]

theorem leading_cut (found : cut delim list = some (before, after)) (more : after ≠ []) :
    leading delim list = before :: leading delim after := by
  rw [leading]
  split
  · next uncut => simp [uncut] at found
  · next other =>
    rw [found, Option.some.injEq, Prod.mk.injEq] at other
    simp [← other.1, ← other.2, more]

theorem trailing_uncut (uncut : cut delim list = none) : trailing delim list = list := by
  rw [trailing]
  split
  · rfl
  · next found => simp [uncut] at found

theorem trailing_last (found : cut delim list = some (before, [])) : trailing delim list = list := by
  rw [trailing]
  split
  · rfl
  · next other =>
    rw [found, Option.some.injEq, Prod.mk.injEq] at other
    simp [← other.2]

theorem trailing_cut (found : cut delim list = some (before, after)) (more : after ≠ []) :
    trailing delim list = trailing delim after := by
  rw [trailing]
  split
  · next uncut => simp [uncut] at found
  · next other =>
    rw [found, Option.some.injEq, Prod.mk.injEq] at other
    simp [← other.2, more]

end Equations

/-- An element that the delimiter does not have stands in some piece. -/
theorem mem_pieces {delim : Delimiter α} {list : List α} {element : α} (other : element ∉ delim.text)
    (present : element ∈ list) : ∃ piece ∈ pieces delim list, element ∈ piece := by
  induction list using pieces.induct delim with
  | case1 list uncut =>
    rw [pieces_uncut uncut]
    exact ⟨list, List.mem_singleton_self list, present⟩
  | case2 list before after found inductionHypothesis =>
    rw [pieces_cut found]
    rw [cut_append found, List.append_assoc, List.mem_append, List.mem_append] at present
    obtain here | separator | later := present
    · exact ⟨before, List.mem_cons_self, here⟩
    · exact absurd separator other
    · obtain ⟨piece, member, inside⟩ := inductionHypothesis later
      exact ⟨piece, List.mem_cons_of_mem before member, inside⟩

/-- No piece has the one element of the delimiter. -/
theorem pieces_free {delim : Delimiter α} {separator : α} (single : delim.text = [separator])
    (list : List α) : ∀ piece ∈ pieces delim list, separator ∉ piece := by
  induction list using pieces.induct delim with
  | case1 list uncut =>
    rw [pieces_uncut uncut]
    rw [cut_none_iff, single, List.singleton_infix_iff] at uncut
    simpa using uncut
  | case2 list before after found inductionHypothesis =>
    rw [pieces_cut found]
    exact List.forall_mem_cons.mpr ⟨cut_free single found, inductionHypothesis⟩

/-- Items that are joined by one element, which none of them has, are the pieces again. -/
theorem pieces_intercalate {delim : Delimiter α} {separator : α} (single : delim.text = [separator])
    {items : List (List α)} (free : ∀ item ∈ items, separator ∉ item) (some : items ≠ []) :
    pieces delim ([separator].intercalate items) = items := by
  induction items with
  | nil => exact absurd rfl some
  | cons item items inductionHypothesis =>
    have absent : separator ∉ item := free item List.mem_cons_self
    cases items with
    | nil =>
      rw [List.intercalate_singleton]
      apply pieces_uncut
      rw [cut_none_iff, single, List.singleton_infix_iff]
      exact absent
    | cons next items =>
      have later := inductionHypothesis (fun item member => free item (List.mem_cons_of_mem _ member))
        (List.cons_ne_nil next items)
      have found : cut delim ([separator].intercalate (item :: next :: items)) =
          Option.some (item, [separator].intercalate (next :: items)) := by
        rw [List.intercalate_cons_cons, List.append_assoc, List.singleton_append, cut_first single absent]
      rw [pieces_cut found, later]

/-- The list without one delimiter at its end, if there is one. -/
def trim (delim : Delimiter α) (list : List α) : List α :=
  if delim.text <:+ list then list.take (list.length - delim.text.length) else list

/-- An uncut list ends in no delimiter. -/
theorem trim_uncut {delim : Delimiter α} {list : List α} (uncut : cut delim list = none) :
    trim delim list = list := by
  have absent : ¬ delim.text <:+ list := fun ends =>
    (cut_none_iff delim list).mp uncut ends.isInfix
  simp [trim, absent]

/-- A cut that nothing follows is undone by trimming. -/
theorem trim_cut {delim : Delimiter α} {list before : List α}
    (found : cut delim list = some (before, [])) : trim delim list = before := by
  have whole : list = before ++ delim.text := by simpa using cut_append found
  simp [trim, whole]

/-- The nonempty pieces of a split list. -/
def components (delim : Delimiter α) (list : List α) : List (List α) := nonempty (pieces delim list)

/-- The components of joined items are the items that are not empty. -/
theorem components_intercalate {delim : Delimiter α} {separator : α} (single : delim.text = [separator])
    {items : List (List α)} (free : ∀ item ∈ items, separator ∉ item) :
    components delim ([separator].intercalate items) = nonempty items := by
  cases items with
  | nil =>
    have alone : pieces delim ([] : List α) = [[]] := pieces_uncut rfl
    rw [components, List.intercalate_nil, alone, nonempty_cons_nil]
  | cons item items => rw [components, pieces_intercalate single free (List.cons_ne_nil item items)]

/-- The components are the nonempty leading pieces and, unless it is empty, the
trimmed rest behind them. A rest that ends in a delimiter consists of one piece and
an empty last piece. -/
theorem components_eq (delim : Delimiter α) (list : List α) :
    components delim list =
      nonempty (leading delim list) ++ nonempty [trim delim (trailing delim list)] := by
  induction list using pieces.induct delim with
  | case1 list uncut =>
    simp only [components, pieces_uncut uncut, leading_uncut uncut, trailing_uncut uncut,
      trim_uncut uncut, nonempty_nil, List.nil_append]
  | case2 list before after found inductionHypothesis =>
    rw [components] at inductionHypothesis
    by_cases more : after = []
    · subst more
      have alone : pieces delim ([] : List α) = [[]] := pieces_uncut rfl
      rw [components, pieces_cut found, alone, leading_last found, trailing_last found,
        trim_cut found]
      by_cases vacant : before = [] <;> simp [vacant]
    · rw [components, pieces_cut found, leading_cut found more, trailing_cut found more]
      by_cases vacant : before = [] <;> simp [vacant, inductionHypothesis]

end CppInterpreter.DelimiterSplit
