import CppInterpreter.NamedObjects
import CppInterpreter.Values
import Mathlib.Algebra.Group.Nat.Defs

/-!
# What values mean

A value has a kind, a type and perhaps the name of an object. Copies name the same object, a
move hands the name over, and an object ends when its last name is gone. There are neither
counts nor addresses.

User code may construct an object through a value that names it. The end of an object destroys
its elements if its bytes tell that it has been constructed.
-/

namespace CppInterpreter.ObjectLifetimes

open Holders NamedObjects

/-- What is visible of a value, with the object that it shares. -/
structure SharedValue where
  typeKind : TypeKind
  type : Option QualType
  object : Option Nat
deriving DecidableEq, Repr

/-- An object of a managed value: its type, and what has been written of its bytes. -/
structure Object where
  type : QualType
  payload : Nat → Option UInt8

/-- A new object begins with the canary. -/
def Object.create (type : QualType) : Object := ⟨type, fun index => kCanaryUnconstructedObject[index]?⟩

/-- The destructor calls at the end of an object. -/
def ending (block : AllocatedValue) : List Destruction :=
  match block.dtorFunc with
  | none => []
  | some dtorFunc => if block.isAlive then block.destructions dtorFunc else []

/-- What a value leaves behind when it is moved. -/
def SharedValue.movedFrom (value : SharedValue) : SharedValue := ⟨.kInvalid, value.type, none⟩

/-- The object that a slot names. -/
def named (content : Option SharedValue) : Option Nat := content.bind SharedValue.object

@[simp] theorem named_some (value : SharedValue) : named (some value) = value.object := rfl

@[simp] theorem named_none : named none = none := rfl

/-- The values and their objects. -/
abbrev Sharing := Registry (Option SharedValue) Object

/-- What a program asks for. New values are put into a new slot, and an object is constructed
through a value that names it. -/
inductive Request where
  | default
  | construct (type : QualType)
  | copy (source : Nat)
  | move (source : Nat)
  | copyAssign (target source : Nat)
  | moveAssign (target source : Nat)
  | destroy (target : Nat)
  | build (slot : Nat) (payload : Nat → Option UInt8)

section Meaning

variable (interp : Interpreter)

/-- The block of an object, with a count of one. -/
def Object.block (object : Object) : AllocatedValue :=
  { Value.managedBlock interp object.type with payload := object.payload }

/-- The destructor calls of the objects that have ended. -/
def calls (objects : List Object) (ended : List Nat) : List Destruction :=
  ended.flatMap fun id => (objects[id]?).elim [] fun object => ending (object.block interp)

/-- The value that lives in a slot. -/
def value? (sharing : Sharing) (slot : Nat) : Option SharedValue := (sharing.slots[slot]?).join

/-- Serve a request, where it applies. -/
def serve (sharing : Sharing) : Request → Option Sharing
  | .default => some (sharing.add (some ⟨.kInvalid, none, none⟩))
  | .construct type =>
    let typeKind := getCorrespondingTypeKind type
    if needsManagedAllocation type then
      some (sharing.enter (some ⟨typeKind, some type, some sharing.objects.length⟩) (.create type))
    else some (sharing.add (some ⟨typeKind, some type, none⟩))
  | .copy source => do
    let other ← value? sharing source
    return sharing.add (some other)
  | .move source => do
    let other ← value? sharing source
    return (sharing.add (some other)).assign named source (some other.movedFrom)
  | .copyAssign target source =>
    if target = source then none
    else do
      let _ ← value? sharing target
      let other ← value? sharing source
      return sharing.assign named target (some other)
  | .moveAssign target source =>
    if target = source then none
    else do
      let _ ← value? sharing target
      let other ← value? sharing source
      return (sharing.assign named target (some other)).assign named source (some other.movedFrom)
  | .destroy target => do
    let _ ← value? sharing target
    return sharing.assign named target none
  | .build slot payload => do
    let value ← value? sharing slot
    let id ← value.object
    let object ← sharing.objects[id]?
    if getNumberOfElements object.type = 0 then none
    else return sharing.revise id { object with payload }

/-- Serve requests one after the other. -/
def serveAll : Sharing → List Request → Option Sharing
  | sharing, [] => some sharing
  | sharing, request :: rest => do
    let next ← serve sharing request
    serveAll next rest

end Meaning

/-- No object has 2^32 names. -/
def Roomy (sharing : Sharing) : Prop := ∀ id, holders (sharing.names named) id < 2 ^ 32

/-- No object has 2^32 names while requests are served. -/
def RoomyThroughout (sharing : Sharing) (requests : List Request) : Prop :=
  ∀ earlier, earlier <+: requests → ∀ next, serveAll sharing earlier = some next → Roomy next

section Served

variable {interp : Interpreter} {sharing : Sharing} {slot : Nat} {content : SharedValue}

/-- A slot with a value names its object. -/
theorem names_of_value? (lives : value? sharing slot = some content) :
    (sharing.names named)[slot]? = some content.object := by
  have present : sharing.slots[slot]? = some (some content) := by
    simpa [value?, Option.join_eq_some_iff] using lives
  simp [Registry.names, present, named]

/-- What a live value names is named. -/
theorem named_of_value? (lives : value? sharing slot = some content) (id : Nat)
    (object : content.object = some id) : some id ∈ sharing.names named := by
  have here := names_of_value? lives
  rw [object] at here
  exact List.mem_of_getElem? here

/-- What another slot names is still named when a slot is emptied. -/
theorem named_elsewhere {target source : Nat} (distinct : target ≠ source)
    (lives : value? sharing source = some content) (id : Nat) (object : content.object = some id) :
    some id ∈ (sharing.names named).set target none := by
  apply List.mem_iff_getElem?.mpr
  refine ⟨source, ?_⟩
  rw [List.getElem?_set_ne distinct, names_of_value? lives, object]

/-- Ends follow each other. -/
theorem calls_append (objects : List Object) (ended more : List Nat) :
    calls interp objects (ended ++ more) = calls interp objects ended ++ calls interp objects more :=
  List.flatMap_append

/-- The ends of objects that have ended stay as they are. -/
theorem calls_congr {objects others : List Object} {ended : List Nat}
    (same : ∀ id ∈ ended, others[id]? = objects[id]?) :
    calls interp others ended = calls interp objects ended := by
  apply List.flatMap_congr
  intro id member
  rw [same id member]

/-- A request makes at most one slot. -/
theorem serve_slots {next : Sharing} {request : Request}
    (served : serve sharing request = some next) : next.slots.length ≤ sharing.slots.length + 1 := by
  cases request with
  | default =>
    cases served
    simp [Registry.add]
  | construct type =>
    simp only [serve] at served
    split at served <;> cases served <;> simp [Registry.add, Registry.enter]
  | copy source | move source | destroy target =>
    simp only [serve, bind, Option.bind_eq_some_iff, pure, Option.some.injEq] at served
    obtain ⟨_, _, rfl⟩ := served
    simp [Registry.add, Registry.assign]
  | copyAssign target source | moveAssign target source =>
    simp only [serve, bind, pure] at served
    split at served
    · cases served
    · simp only [Option.bind_eq_some_iff, Option.some.injEq] at served
      obtain ⟨_, _, _, _, rfl⟩ := served
      simp [Registry.assign]
  | build slot payload =>
    simp only [serve, bind, pure, Option.bind_eq_some_iff] at served
    obtain ⟨_, _, _, _, _, _, served⟩ := served
    split at served
    · cases served
    · cases served
      simp [Registry.revise]

/-- Requests make at most as many slots as there are requests. -/
theorem serveAll_slots (requests : List Request) {last : Sharing}
    (served : serveAll sharing requests = some last) :
    last.slots.length ≤ sharing.slots.length + requests.length := by
  induction requests generalizing sharing with
  | nil =>
    cases served
    exact Nat.le_refl _
  | cons request rest inductionHypothesis =>
    simp only [serveAll, bind, Option.bind_eq_some_iff] at served
    obtain ⟨next, first, later⟩ := served
    have one := serve_slots first
    have others := inductionHypothesis later
    simp only [List.length_cons]
    omega

/-- Fewer than 2^32 requests leave room. -/
theorem short_roomy {requests : List Request} (short : requests.length < 2 ^ 32) :
    RoomyThroughout .start requests := by
  intro earlier isPrefix sharing reached id
  have slots := serveAll_slots earlier reached
  have fewer := isPrefix.length_le
  have names : holders (sharing.names named) id ≤ sharing.slots.length := by
    simpa [holders, Registry.names] using List.count_le_length (a := some id) (l := sharing.names named)
  simp only [Registry.start, List.length_nil] at slots
  omega

end Served

end CppInterpreter.ObjectLifetimes
