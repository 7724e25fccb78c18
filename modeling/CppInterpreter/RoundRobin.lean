import Mathlib.Algebra.Group.Fin.Basic
import Mathlib.Algebra.GroupWithZero.Nat
import Mathlib.Data.List.Induction
import Mathlib.Logic.Function.Basic

/-!
# Round-robin lines

A fixed number of lines is overwritten in a circle: what enters first, leaves first. A
property of every line survives an entry that has it. As many entries as there are lines
leave nothing of the initial contents.
-/

namespace CppInterpreter.RoundRobin

variable {α : Type*} {size : Nat} [NeZero size]

/-- The lines, and the index of the one written last. -/
structure Cache (α : Type*) (size : Nat) where
  lines : Fin size → α
  mostRecent : Fin size

namespace Cache

/-- The line behind the one written last is overwritten. -/
def push (cache : Cache α size) (item : α) : Cache α size :=
  ⟨Function.update cache.lines (cache.mostRecent + 1) item, cache.mostRecent + 1⟩

/-- Some line contains the item. -/
def Holds (cache : Cache α size) (item : α) : Prop := ∃ index, cache.lines index = item

instance [DecidableEq α] (cache : Cache α size) (item : α) : Decidable (cache.Holds item) :=
  inferInstanceAs (Decidable (∃ _, _))

/-- A line after an entry is the entry or a line before. -/
theorem line_push (cache : Cache α size) (item : α) (index : Fin size) :
    (cache.push item).lines index =
      if index = cache.mostRecent + 1 then item else cache.lines index := by
  simp [push, Function.update_apply]

/-- What holds of every line and of an entry holds of every line after the entry. -/
theorem forall_line_push (good : α → Prop) {cache : Cache α size} {item : α}
    (before : ∀ index, good (cache.lines index)) (entering : good item) (index : Fin size) :
    good ((cache.push item).lines index) := by
  rw [line_push]
  split
  · exact entering
  · exact before index

/-- The entries of a list, one after another. -/
def pushAll (cache : Cache α size) (items : List α) : Cache α size := items.foldl push cache

/-- The number of entries that a line survives. -/
def lifetime (cache : Cache α size) (index : Fin size) : Nat :=
  (index - (cache.mostRecent + 1)).val

/-- An entry overwrites the line without a lifetime, and each other line survives one
entry less. -/
theorem lifetime_push (cache : Cache α size) (item : α) {index : Fin size}
    (spared : index ≠ cache.mostRecent + 1) :
    (cache.push item).lifetime index + 1 = cache.lifetime index := by
  have ahead : index - (cache.mostRecent + 1) ≠ 0 := sub_ne_zero.mpr spared
  have positive : 0 < (index - (cache.mostRecent + 1)).val := Nat.pos_of_ne_zero (by simpa using ahead)
  simp only [lifetime, push, sub_add_eq_sub_sub _ (cache.mostRecent + 1) 1,
    Fin.val_sub_one_of_ne_zero ahead]
  omega

/-- A line contains an entry, or still has its initial contents and a lifetime. -/
theorem line_pushAll (cache : Cache α size) (items : List α) (index : Fin size) :
    (cache.pushAll items).lines index ∈ items ∨
      (cache.pushAll items).lifetime index + items.length < size := by
  induction items using List.reverseRecOn with
  | nil => exact .inr (index - (cache.mostRecent + 1)).isLt
  | append_singleton items item inductionHypothesis =>
    have pushed : cache.pushAll (items ++ [item]) = (cache.pushAll items).push item := by
      simp [pushAll]
    rw [pushed, line_push]
    split
    · simp
    · next spared =>
      refine inductionHypothesis.imp (fun entered => by simp [entered]) fun initial => ?_
      have shorter := lifetime_push (cache.pushAll items) item spared
      rw [List.length_append, List.length_singleton]
      omega

/-- After as many entries as there are lines, every line contains an entry. -/
theorem mem_of_holds_pushAll {cache : Cache α size} {items : List α} {item : α}
    (enough : size ≤ items.length) (held : (cache.pushAll items).Holds item) : item ∈ items := by
  obtain ⟨index, rfl⟩ := held
  refine (line_pushAll cache items index).resolve_right fun initial => ?_
  omega

/-- The contents of the lines, the latest first. -/
def latest (cache : Cache α size) : List α :=
  List.ofFn fun age : Fin size => cache.lines (cache.mostRecent - age)

omit [NeZero size] in
/-- A content by its age. -/
theorem getElem?_latest (cache : Cache α size) {age : Nat} (inside : age < size) :
    cache.latest[age]? = some (cache.lines (cache.mostRecent - ⟨age, inside⟩)) := by
  simp [latest, inside]

/-- The lines contain the latest contents. -/
theorem holds_iff_latest (cache : Cache α size) (item : α) : cache.Holds item ↔ item ∈ cache.latest := by
  rw [Holds, latest, List.mem_ofFn]
  constructor
  · rintro ⟨index, rfl⟩
    exact ⟨cache.mostRecent - index, by rw [sub_sub_cancel]⟩
  · rintro ⟨age, rfl⟩
    exact ⟨_, rfl⟩

/-- An entry is the latest content, and the oldest one is lost. -/
theorem latest_push (cache : Cache α size) (item : α) :
    (cache.push item).latest = (item :: cache.latest).take size := by
  apply List.ext_getElem?
  intro age
  by_cases inside : age < size
  · rw [getElem?_latest _ inside, List.getElem?_take_of_lt inside, line_push]
    cases age with
    | zero => simp [push]
    | succ age =>
      have before : age < size := Nat.lt_of_succ_lt inside
      have older : (⟨age + 1, inside⟩ : Fin size) = ⟨age, before⟩ + 1 := by
        ext
        simp [Fin.val_add, Nat.mod_eq_of_lt inside]
      have spared : (⟨age + 1, inside⟩ : Fin size) ≠ 0 := by
        intro none_
        simpa using congrArg Fin.val none_
      have written : (cache.push item).mostRecent = cache.mostRecent + 1 := rfl
      rw [List.getElem?_cons_succ, getElem?_latest cache before, written,
        if_neg (fun same => spared (sub_eq_self.mp same)), older, add_sub_add_right_eq_sub]
  · have outside : size ≤ age := Nat.not_lt.mp inside
    simp [latest, outside]

end Cache

end CppInterpreter.RoundRobin
