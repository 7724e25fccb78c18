import CppInterpreter.ReferenceCounts
import CppInterpreter.SharedValues

/-!
# Blocks that mirror objects

The named objects have places in memory, where their blocks are stored; what has been freed has
no place any more, and its address may be that of a later object. Retaining changes a count
only, and releasing takes a name away. Both leave the blocks of all other objects alone.
-/

namespace CppInterpreter.ObjectLifetimes

open Holders NamedObjects ReferenceCounts

/-- Different named objects are at different places, where their blocks are stored, and the
destructor calls are those of the objects that have ended. -/
structure Mirrors (interp : Interpreter) (place : Nat → PayloadAddress) (names : List (Option Nat))
    (objects : List Object) (ended : List Nat) (memory : Memory) : Prop where
  distinct : ∀ one other, some one ∈ names → some other ∈ names → place one = place other → one = other
  stored : ∀ id object, some id ∈ names → objects[id]? = some object →
    ∃ refCnt, memory.blocks (place id) = some { object.block interp with refCnt }
  destructions : memory.destructions = calls interp objects ended

section Blocks

variable {interp : Interpreter} {place : Nat → PayloadAddress} {names : List (Option Nat)}
  {objects : List Object} {ended : List Nat} {memory : Memory} {slot : Nat} {value : Value}
  {content : Option Nat}

/-- The last release makes the destructor calls of the end, any other one none. -/
theorem release_ends {block : AllocatedValue} (built : block.isAlive = true → block.elemsNum ≠ 0) :
    block.release = .ok (remaining block, if block.refCnt = 1 then ending block else []) := by
  unfold AllocatedValue.release remaining ending
  simp only [pred_eq_zero_iff]
  by_cases last : block.refCnt = 1
  · simp only [last, ↓reduceIte]
    cases block.dtorFunc with
    | none => rfl
    | some dtorFunc =>
      cases alive : block.isAlive with
      | false => rfl
      | true => simp [built alive]
  · simp only [last, ↓reduceIte]

/-- Fewer objects may be named. -/
theorem Mirrors.fewer (mirrors : Mirrors interp place names objects ended memory)
    {fewer : List (Option Nat)} (subset : ∀ id, some id ∈ fewer → some id ∈ names) :
    Mirrors interp place fewer objects ended memory := by
  refine ⟨?_, ?_, mirrors.destructions⟩
  · intro one other first second
    exact mirrors.distinct one other (subset one first) (subset other second)
  · intro id object isNamed
    exact mirrors.stored id object (subset id isNamed)

/-- The place of a named object is held as often as the object is named. -/
theorem Mirrors.holders_place (mirrors : Mirrors interp place names objects ended memory) {id : Nat}
    (isNamed : some id ∈ names) :
    holders (names.map (Option.map place)) (place id) = holders names id :=
  holders_placed fun other otherNamed => mirrors.distinct other id otherNamed isNamed

/-- A named object has its block at its place. -/
theorem Mirrors.live (mirrors : Mirrors interp place names objects ended memory)
    (created : ∀ id, some id ∈ names → id < objects.length) {id : Nat} (isNamed : some id ∈ names) :
    ∃ object refCnt, objects[id]? = some object ∧
      memory.blocks (place id) = some { object.block interp with refCnt } := by
  have present := List.getElem?_eq_getElem (created id isNamed)
  obtain ⟨refCnt, live⟩ := mirrors.stored id _ isNamed present
  exact ⟨_, refCnt, present, live⟩

/-- A change of the block at the place of a named object leaves all others as they are. -/
theorem Mirrors.write (mirrors : Mirrors interp place names objects ended memory)
    {fewer : List (Option Nat)} (subset : ∀ id, some id ∈ fewer → some id ∈ names) {id : Nat}
    (isNamed : some id ∈ names) {left : Option AllocatedValue} {changed : List Object}
    (here : some id ∈ fewer → ∀ object, changed[id]? = some object →
      ∃ refCnt, left = some { object.block interp with refCnt })
    (elsewhere : ∀ other, other ≠ id → changed[other]? = objects[other]?)
    {destructions : List Destruction} {past : List Nat}
    (ends : destructions = calls interp changed past) :
    Mirrors interp place fewer changed past
      ⟨Function.update memory.blocks (place id) left, destructions⟩ := by
  refine ⟨(mirrors.fewer subset).distinct, ?_, ends⟩
  intro other object otherNamed known
  dsimp only
  by_cases same : other = id
  · subst same
    rw [Function.update_self]
    exact here otherNamed object known
  · have apart : place other ≠ place id :=
      fun together => same (mirrors.distinct other id (subset other otherNamed) isNamed together)
    rw [elsewhere other same] at known
    rw [Function.update_of_ne apart]
    exact mirrors.stored other object (subset other otherNamed) known

/-- A count of one is the count of the last name. -/
theorem Mirrors.last_iff (mirrors : Mirrors interp place names objects ended memory)
    (counted : Counted (fun block : AllocatedValue => block.refCnt.toNat) memory.blocks
      (names.map (Option.map place)))
    {id : Nat} (held : names[slot]? = some (some id)) {block : AllocatedValue}
    (live : memory.blocks (place id) = some block) :
    block.refCnt = 1 ↔ some id ∉ names.set slot none := by
  have counts : block.refCnt.toNat = holders names id :=
    (counted.counts (place id) block live).trans (mirrors.holders_place (List.mem_of_getElem? held))
  have dropped := (holders_drop held).1
  rw [unnamed_iff, ← UInt32.toNat_inj, counts]
  simp only [UInt32.toNat_one]
  omega

/-- Releasing a value takes the name out of its slot. The object ends if this was its last
name. -/
theorem Mirrors.drop (mirrors : Mirrors interp place names objects ended memory)
    (counted : Counted (fun block : AllocatedValue => block.refCnt.toNat) memory.blocks
      (names.map (Option.map place)))
    (built : Built memory) (created : ∀ id, some id ∈ names → id < objects.length)
    (held : names[slot]? = some content) (shares : value.block = content.map place) :
    ∃ after, value.release memory = .ok after ∧
      Mirrors interp place (names.set slot none) objects
        (ended ++ given content (names.set slot none)) after := by
  have emptied : ∀ id, some id ∈ names.set slot none → some id ∈ names := fun _ => named_of_emptied
  cases content with
  | none =>
    refine ⟨memory, by simp only [Value.release, shares, Option.map_none], ?_⟩
    simpa [given] using mirrors.fewer emptied
  | some id =>
    have isNamed : some id ∈ names := List.mem_of_getElem? held
    obtain ⟨object, refCnt, present, live⟩ := mirrors.live created isNamed
    have last : refCnt = 1 ↔ some id ∉ names.set slot none := mirrors.last_iff counted held live
    have released := release_ends (built _ _ live)
    refine ⟨_, by simp only [Value.release, shares, Option.map_some, Memory.release, live, released]; rfl,
      mirrors.write emptied isNamed ?_ (fun _ _ => rfl) ?_⟩
    · intro still other known
      have several := mt last.mp (not_not_intro still)
      obtain rfl := Option.some.inj (present.symm.trans known)
      exact ⟨refCnt - 1, by simp only [remaining, several, ↓reduceIte]⟩
    · rw [calls_append, mirrors.destructions]
      by_cases unnamed : some id ∉ names.set slot none
      · have one := last.mpr unnamed
        simp only [one, ↓reduceIte, given, Option.toList_some, List.filter_cons, unnamed,
          not_false_eq_true, decide_true, List.filter_nil, calls, List.flatMap_cons, present,
          Option.elim_some, List.flatMap_nil, List.append_nil]
        rfl
      · have several := mt last.mp unnamed
        simp only [several, ↓reduceIte, given, Option.toList_some, List.filter_cons, unnamed,
          decide_false, Bool.false_eq_true, List.filter_nil, calls, List.flatMap_nil]

/-- Retaining a value whose object is named changes a count only. -/
theorem Mirrors.share (mirrors : Mirrors interp place names objects ended memory)
    (created : ∀ id, some id ∈ names → id < objects.length) (shares : value.block = content.map place)
    (known : ∀ id, content = some id → some id ∈ names) :
    ∃ after, value.retain memory = .ok after ∧ Mirrors interp place names objects ended after := by
  cases content with
  | none => exact ⟨memory, by simp only [Value.retain, shares, Option.map_none], mirrors⟩
  | some id =>
    have isNamed := known id rfl
    obtain ⟨object, refCnt, present, live⟩ := mirrors.live created isNamed
    refine ⟨_, by simp only [Value.retain, shares, Option.map_some, Memory.retain, live]; rfl,
      mirrors.write (fun _ still => still) isNamed ?_ (fun _ _ => rfl) mirrors.destructions⟩
    intro _ other found
    obtain rfl := Option.some.inj (present.symm.trans found)
    exact ⟨refCnt + 1, rfl⟩

/-- A payload is written into the block of a named object. -/
theorem Mirrors.build (mirrors : Mirrors interp place names objects ended memory) {id : Nat}
    {object : Object} (isNamed : some id ∈ names) (present : objects[id]? = some object)
    (lasting : id ∉ ended) (refCnt : UInt32) (payload : Nat → Option UInt8) :
    Mirrors interp place names (objects.set id { object with payload }) ended
      (memory.allocate (place id) { object.block interp with refCnt, payload }) := by
  refine mirrors.write (fun _ still => still) isNamed ?_ ?_ ?_
  · intro _ found known
    rw [List.getElem?_set_self (List.getElem?_eq_some_iff.mp present).1] at known
    obtain rfl := Option.some.inj known
    exact ⟨refCnt, rfl⟩
  · intro other different
    exact List.getElem?_set_ne different.symm
  · refine mirrors.destructions.trans (calls_congr ?_).symm
    intro other past
    exact List.getElem?_set_ne (ne_of_mem_of_not_mem past lasting).symm

end Blocks

end CppInterpreter.ObjectLifetimes
