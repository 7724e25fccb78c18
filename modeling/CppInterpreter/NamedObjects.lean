import CppInterpreter.Holders
import Mathlib.Data.List.Nodup

/-!
# Objects that last as long as they are named

Slots have contents, and a content may name an object. Objects are numbered in the order in
which they are created, and no number is given to a second one. There are no counts: an
object has ended as soon as a slot gets another content and none names the object any more.

In every state the objects without a name are those that have ended, each of them once. When
nothing is named any more, all objects have ended.
-/

namespace CppInterpreter.NamedObjects

open Holders

/-- The contents of the slots, all objects that were ever created, and the numbers of those
that have ended, in the order of their ends. -/
structure Registry (σ ω : Type*) where
  slots : List σ
  objects : List ω
  ended : List Nat

variable {σ ω : Type*}

/-- No slots and no objects. -/
def Registry.start : Registry σ ω := ⟨[], [], []⟩

/-- A new slot. -/
def Registry.add (registry : Registry σ ω) (content : σ) : Registry σ ω :=
  { registry with slots := registry.slots ++ [content] }

/-- A new slot and a new object. -/
def Registry.enter (registry : Registry σ ω) (content : σ) (object : ω) : Registry σ ω :=
  { registry with slots := registry.slots ++ [content], objects := registry.objects ++ [object] }

/-- An object is replaced. -/
def Registry.revise (registry : Registry σ ω) (id : Nat) (object : ω) : Registry σ ω :=
  { registry with objects := registry.objects.set id object }

variable (name : σ → Option Nat)

/-- What the slots name. -/
def Registry.names (registry : Registry σ ω) : List (Option Nat) := registry.slots.map name

/-- The object that a slot has given up, unless it is still named. -/
def given (released : Option Nat) (names : List (Option Nat)) : List Nat :=
  released.toList.filter fun id => some id ∉ names

/-- A slot gets another content. -/
def Registry.assign (registry : Registry σ ω) (slot : Nat) (content : σ) : Registry σ ω :=
  { registry with
    slots := registry.slots.set slot content
    ended := registry.ended ++
      given ((registry.slots[slot]?).bind name) ((registry.slots.set slot content).map name) }

/-- Named objects have been created, and those without a name have ended once. -/
structure Registry.Sound (registry : Registry σ ω) : Prop where
  created : ∀ id, some id ∈ registry.names name → id < registry.objects.length
  ended_iff : ∀ id, id ∈ registry.ended ↔
    id < registry.objects.length ∧ some id ∉ registry.names name
  distinct : registry.ended.Nodup

variable {name} {registry : Registry σ ω} {slot : Nat} {content : σ}

@[simp] theorem Registry.names_add :
    (registry.add content).names name = registry.names name ++ [name content] := by
  simp [Registry.add, Registry.names]

@[simp] theorem Registry.names_enter (object : ω) :
    (registry.enter content object).names name = registry.names name ++ [name content] := by
  simp [Registry.enter, Registry.names]

@[simp] theorem Registry.names_assign :
    (registry.assign name slot content).names name = (registry.names name).set slot (name content) := by
  simp [Registry.assign, Registry.names]

/-- A slot with another content gives up what it has named. -/
theorem Registry.ended_assign {released : Option Nat}
    (held : (registry.names name)[slot]? = some released) :
    (registry.assign name slot content).ended =
      registry.ended ++ given released ((registry.names name).set slot (name content)) := by
  rw [Registry.names, List.getElem?_map] at held
  obtain ⟨old, present, rfl⟩ := Option.map_eq_some_iff.mp held
  simp [Registry.assign, Registry.names, present]

/-- A given object is the one that was released, and has no name. -/
theorem mem_given {released : Option Nat} {names : List (Option Nat)} {id : Nat} :
    id ∈ given released names ↔ released = some id ∧ some id ∉ names := by
  simp [given]

/-- At most one object is given. -/
theorem given_nodup (released : Option Nat) (names : List (Option Nat)) :
    (given released names).Nodup := by
  cases released with
  | none => exact List.nodup_nil
  | some id => exact (List.nodup_singleton id).filter _

/-- No object has a name at the beginning. -/
theorem start_sound : (Registry.start : Registry σ ω).Sound name := by
  refine ⟨?_, ?_, List.nodup_nil⟩ <;> simp [Registry.start, Registry.names]

/-- A new slot may name an object that has a name. -/
theorem Registry.Sound.add (sound : registry.Sound name)
    (known : ∀ id, name content = some id → some id ∈ registry.names name) :
    (registry.add content).Sound name := by
  have same : ∀ id, some id ∈ (registry.add content).names name ↔ some id ∈ registry.names name := by
    intro id
    rw [Registry.names_add, List.mem_append, List.mem_singleton]
    constructor
    · rintro (earlier | here)
      · exact earlier
      · exact known id here.symm
    · exact Or.inl
  refine ⟨?_, ?_, sound.distinct⟩
  · intro id named
    exact sound.created id ((same id).mp named)
  · intro id
    rw [same]
    exact sound.ended_iff id

/-- A new slot names a new object. -/
theorem Registry.Sound.enter (sound : registry.Sound name)
    (fresh : name content = some registry.objects.length) (object : ω) :
    (registry.enter content object).Sound name := by
  have named_iff : ∀ id, some id ∈ (registry.enter content object).names name ↔
      some id ∈ registry.names name ∨ id = registry.objects.length := by
    intro id
    rw [Registry.names_enter, List.mem_append, List.mem_singleton, fresh, Option.some.injEq]
  have longer : (registry.enter content object).objects.length = registry.objects.length + 1 := by
    simp [Registry.enter]
  refine ⟨?_, ?_, sound.distinct⟩
  · intro id named
    rw [longer]
    rcases (named_iff id).mp named with earlier | rfl
    · exact Nat.lt_succ_of_lt (sound.created id earlier)
    · exact Nat.lt_succ_self _
  · intro id
    rw [named_iff, longer]
    refine (sound.ended_iff id).trans ?_
    constructor
    · rintro ⟨inside, unnamed⟩
      refine ⟨Nat.lt_succ_of_lt inside, ?_⟩
      rintro (named | rfl)
      · exact unnamed named
      · exact Nat.lt_irrefl _ inside
    · rintro ⟨inside, unnamed⟩
      simp only [not_or] at unnamed
      exact ⟨by omega, unnamed.1⟩

/-- Replacing an object changes no name. -/
theorem Registry.Sound.revise (sound : registry.Sound name) (id : Nat) (object : ω) :
    (registry.revise id object).Sound name := by
  have same : (registry.revise id object).objects.length = registry.objects.length := by
    simp [Registry.revise]
  refine ⟨?_, ?_, sound.distinct⟩
  · rw [same]
    exact sound.created
  · rw [same]
    exact sound.ended_iff

/-- What a slot names is named, and stays so unless the slot is the one that changes. -/
theorem named_of_set {slots : List σ} {id : Nat} (named : some id ∈ slots.map name) (slot : Nat)
    (content : σ) : (slots[slot]?).bind name = some id ∨ some id ∈ (slots.set slot content).map name := by
  obtain ⟨other, present⟩ := List.mem_iff_getElem?.mp named
  by_cases same : slot = other
  · subst same
    rw [List.getElem?_map] at present
    left
    cases held : slots[slot]? with
    | none => simp [held] at present
    | some content => simpa [held] using present
  · right
    apply List.mem_iff_getElem?.mpr
    refine ⟨other, ?_⟩
    rw [List.map_set, List.getElem?_set_ne same, present]

/-- A slot may give up its object for another one that has a name, or for none. -/
theorem Registry.Sound.assign (sound : registry.Sound name)
    (known : ∀ id, name content = some id → some id ∈ registry.names name) :
    (registry.assign name slot content).Sound name := by
  have still : ∀ id, some id ∈ (registry.assign name slot content).names name →
      some id ∈ registry.names name := by
    intro id named
    rw [Registry.names_assign] at named
    rcases List.mem_or_eq_of_mem_set named with earlier | here
    · exact earlier
    · exact known id here.symm
  have released_named : ∀ id, (registry.slots[slot]?).bind name = some id →
      some id ∈ registry.names name := by
    intro id released
    obtain ⟨old, present, names⟩ := Option.bind_eq_some_iff.mp released
    exact List.mem_map.mpr ⟨old, List.mem_of_getElem? present, names⟩
  refine ⟨fun id named => sound.created id (still id named), ?_, ?_⟩
  · intro id
    simp only [Registry.assign, Registry.names, List.mem_append, mem_given]
    constructor
    · rintro (earlier | ⟨released, unnamed⟩)
      · obtain ⟨inside, unnamed⟩ := (sound.ended_iff id).mp earlier
        exact ⟨inside, fun named => unnamed (still id named)⟩
      · exact ⟨sound.created id (released_named id released), unnamed⟩
    · rintro ⟨inside, unnamed⟩
      by_cases named : some id ∈ registry.names name
      · have released := (named_of_set named slot content).resolve_right unnamed
        exact .inr ⟨released, unnamed⟩
      · exact .inl ((sound.ended_iff id).mpr ⟨inside, named⟩)
  · refine List.Nodup.append sound.distinct (given_nodup _ _) ?_
    intro id earlier now
    exact ((sound.ended_iff id).mp earlier).2 (released_named id (mem_given.mp now).1)

/-- When nothing is named, every object has ended once. -/
theorem Registry.Sound.all_ended (sound : registry.Sound name)
    (nothing : ∀ id, some id ∉ registry.names name) :
    registry.ended.Perm (List.range registry.objects.length) := by
  refine (List.perm_ext_iff_of_nodup sound.distinct List.nodup_range).mpr fun id => ?_
  rw [sound.ended_iff, List.mem_range]
  exact and_iff_left (nothing id)

section Places

variable {α : Type*} [DecidableEq α] {names : List (Option Nat)} {id : Nat}

/-- An object without a name has no holder. -/
theorem unnamed_iff : some id ∉ names ↔ holders names id = 0 :=
  List.count_eq_zero.symm

/-- A place is held as often as the object at it is named, if no other named object is there. -/
theorem holders_placed {place : Nat → α}
    (alone : ∀ other, some other ∈ names → place other = place id → other = id) :
    holders (names.map (Option.map place)) (place id) = holders names id := by
  induction names with
  | nil => rfl
  | cons content names inductionHypothesis =>
    have later := inductionHypothesis fun other named => alone other (List.mem_cons_of_mem _ named)
    have here : content.map place = some (place id) ↔ content = some id := by
      cases content with
      | none => simp
      | some other =>
        simp only [Option.map_some, Option.some.injEq]
        exact ⟨alone other List.mem_cons_self, congrArg place⟩
    simp only [holders, List.map_cons, List.count_cons, beq_iff_eq, here] at later ⊢
    rw [later]

/-- Emptying a slot names nothing else. -/
theorem named_of_emptied {slot : Nat} (named : some id ∈ names.set slot none) : some id ∈ names := by
  rcases List.mem_or_eq_of_mem_set named with earlier | ⟨⟨⟩⟩
  exact earlier

/-- Writing the name of a named object into an emptied slot names nothing else. -/
theorem named_set_iff {slot : Nat} {content : Option Nat} (inside : slot < names.length)
    (known : ∀ id, content = some id → some id ∈ names.set slot none) :
    some id ∈ names.set slot content ↔ some id ∈ names.set slot none := by
  constructor
  · intro named
    rw [← List.set_set none] at named
    rcases List.mem_or_eq_of_mem_set named with earlier | here
    · exact earlier
    · exact known id here.symm
  · intro named
    obtain ⟨other, present⟩ := List.mem_iff_getElem?.mp named
    by_cases here : slot = other
    · subst here
      simp [inside] at present
    · rw [List.getElem?_set_ne here] at present
      exact List.mem_iff_getElem?.mpr ⟨other, by rw [List.getElem?_set_ne here, present]⟩

/-- Naming a named object again does not change what is given. -/
theorem given_set (released : Option Nat) {slot : Nat} {content : Option Nat}
    (inside : slot < names.length)
    (known : ∀ id, content = some id → some id ∈ names.set slot none) :
    given released (names.set slot content) = given released (names.set slot none) := by
  simp only [given, named_set_iff inside known]

/-- A released object that is still named has not ended. -/
theorem given_named {released : Option Nat} (named : ∀ id, released = some id → some id ∈ names) :
    given released names = [] := by
  cases released with
  | none => rfl
  | some id => simp [given, named id rfl]

end Places

end CppInterpreter.NamedObjects
