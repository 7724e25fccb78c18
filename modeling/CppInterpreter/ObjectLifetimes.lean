import CppInterpreter.MirroredBlocks
import Mathlib.Data.Fintype.EquivFin
import Mathlib.Order.Lattice.Nat

/-!
# Lifetimes of the objects of values

The values with their reference-counted blocks refine values that name objects, wherever the
allocator puts the blocks, and also when it reuses addresses, as long as no object has 2^32
names. So the destructor calls of a whole run are those at the ends of its objects, and when all
values are gone, every object has ended once.
-/

namespace CppInterpreter.ObjectLifetimes

open Holders NamedObjects ReferenceCounts Runs

section Program

variable (interp : Interpreter) (allocator : Memory → PayloadAddress)

/-- The operation that serves a request. A new block gets the address that the allocator
returns. -/
def operation (program : Program) : Request → Option Operation
  | .default => some .default
  | .construct type => some (.construct type (allocator program.memory))
  | .copy source => some (.copy source)
  | .move source => some (.move source)
  | .copyAssign target source => some (.copyAssign target source)
  | .moveAssign target source => some (.moveAssign target source)
  | .destroy target => some (.destroy target)
  | .build slot payload => do
    let value ← program.value? slot
    let address ← value.block
    return .build address payload

/-- Serve a request with counts and blocks. -/
def perform (program : Program) (request : Request) : Option (Outcome Program BlockFault) := do
  let operation ← operation allocator program request
  program.perform interp operation

/-- Serve requests one after the other, up to a fault. -/
def performAll : Program → List Request → Option (Except BlockFault Program)
  | program, [] => some (.ok program)
  | program, request :: rest =>
    match perform interp allocator program request with
    | none => none
    | some (.fault fault) => some (.error fault)
    | some (.continues next) => performAll next rest
    | some .ends => some (.ok program)

/-- The allocator returns an address without a live block, if there is one. -/
def Allocates : Prop :=
  ∀ memory : Memory, (∃ address, memory.blocks address = none) → memory.blocks (allocator memory) = none

end Program

/-- What is visible of a value, with the address of its block. -/
def observe (value : Value) : SharedValue := ⟨value.typeKind, value.type, value.block⟩

/-- A value with an address for its object. -/
def SharedValue.placed (place : Nat → PayloadAddress) (value : SharedValue) : SharedValue :=
  { value with object := value.object.map place }

/-- A program represents values and their objects: each slot has the value with the address of
its object for the object, the blocks mirror the objects, and the counts are balanced. -/
structure Represents (interp : Interpreter) (place : Nat → PayloadAddress) (program : Program)
    (sharing : Sharing) : Prop where
  values : program.values.map (Option.map observe) =
    sharing.slots.map (Option.map (SharedValue.placed place))
  mirrors : Mirrors interp place (sharing.names named) sharing.objects sharing.ended program.memory
  sound : Sound program
  registered : sharing.Sound named

section Slots

variable {interp : Interpreter} {place : Nat → PayloadAddress} {program : Program} {sharing : Sharing}

/-- The slots hold the places of what they name. -/
theorem slots_placed (represents : Represents interp place program sharing) :
    slots program = (sharing.names named).map (Option.map place) := by
  have seen : ∀ value : Option Value,
      value.bind Value.block = (value.map observe).bind SharedValue.object := by
    rintro (_ | value) <;> rfl
  have meant : ∀ content : Option SharedValue,
      (content.map (SharedValue.placed place)).bind SharedValue.object = (named content).map place := by
    rintro (_ | value) <;> rfl
  calc slots program
      = (program.values.map (Option.map observe)).map fun value => value.bind SharedValue.object := by
        rw [slots, List.map_map]
        exact List.map_congr_left fun value _ => seen value
    _ = (sharing.slots.map (Option.map (SharedValue.placed place))).map
          fun value => value.bind SharedValue.object := by rw [represents.values]
    _ = (sharing.names named).map (Option.map place) := by
        rw [Registry.names, List.map_map, List.map_map]
        exact List.map_congr_left fun content _ => meant content

/-- The same slots have values. -/
theorem value?_placed (represents : Represents interp place program sharing) (slot : Nat) :
    (program.value? slot).map observe = (value? sharing slot).map (SharedValue.placed place) := by
  have same := congrArg (fun values => (values[slot]?).join) represents.values
  simpa only [Program.value?, value?, List.getElem?_map, Option.join_map_eq_map_join] using same

/-- Where a value lives, one is represented. -/
theorem lives_of_value? (represents : Represents interp place program sharing) {slot : Nat}
    {content : SharedValue} (lives : value? sharing slot = some content) :
    ∃ value, program.value? slot = some value ∧ observe value = content.placed place := by
  have same := value?_placed represents slot
  rw [lives] at same
  exact Option.map_eq_some_iff.mp same

/-- Where no value lives, none is represented. -/
theorem no_value (represents : Represents interp place program sharing) {slot : Nat}
    (nothing : value? sharing slot = none) : program.value? slot = none := by
  have same := value?_placed represents slot
  rw [nothing] at same
  exact Option.map_eq_none_iff.mp same

/-- An operation that fits keeps the counts balanced. -/
theorem sound_next {operation : Operation} {next : Program} (sound : Sound program)
    (performed : program.perform interp operation = some (.continues next))
    (fits : ShareFits program operation) : Sound next := by
  obtain ⟨_, ⟨⟨⟩⟩, built, balanced⟩ := perform_leads sound performed
  exact ⟨balanced.mpr fits, built⟩

end Slots

/-- What a request does to a program is what it does to the values that the program represents:
it does not apply to both, or leads to represented values, as long as there is room. -/
def Follows (interp : Interpreter) (allocator : Memory → PayloadAddress) (program : Program)
    (sharing : Sharing) (request : Request) : Prop :=
  match serve sharing request with
  | none => perform interp allocator program request = none
  | some next => Roomy next → ∃ after place,
      perform interp allocator program request = some (.continues after) ∧
        Represents interp place after next

section Requests

variable {interp : Interpreter} {allocator : Memory → PayloadAddress} {place : Nat → PayloadAddress}
  {program : Program} {sharing : Sharing}

/-- A new value without an object. -/
theorem add_unmanaged (represents : Represents interp place program sharing) {value : Value}
    {content : SharedValue} (seen : observe value = content.placed place)
    (nothing : content.object = none) :
    Represents interp place { program with values := program.values ++ [some value] }
      (sharing.add (some content)) := by
  have unmanaged : value.block = none := by
    have same := congrArg SharedValue.object seen
    simpa [SharedValue.placed, nothing, observe] using same
  refine ⟨?_, ?_, ⟨balanced_unmanaged represents.sound unmanaged, represents.sound.built⟩, ?_⟩
  · simp [Registry.add, represents.values, seen]
  · apply represents.mirrors.fewer
    intro id isNamed
    simpa [named, nothing] using isNamed
  · apply represents.registered.add
    simp [named, nothing]

/-- A default value names nothing. -/
theorem default_follows (represents : Represents interp place program sharing) :
    Follows interp allocator program sharing .default := by
  intro _
  exact ⟨_, place, rfl, add_unmanaged represents rfl rfl⟩

/-- A constructed value of a managed type names a new object, whose block is put where no other
one is. -/
theorem construct_managed (represents : Represents interp place program sharing) {type : QualType}
    (managed : needsManagedAllocation type = true) {address : PayloadAddress}
    (free : program.memory.blocks address = none) :
    ∃ after, program.perform interp (.construct type address) = some (.continues after) ∧
      Represents interp (Function.update place sharing.objects.length address) after
        (sharing.enter
          (some ⟨getCorrespondingTypeKind type, some type, some sharing.objects.length⟩)
          (.create type)) := by
  have performed : program.perform interp (.construct type address) = some (.continues
      ⟨program.values ++ [some (Value.construct interp type address program.memory).2],
        (Value.construct interp type address program.memory).1⟩) := by
    simp [Program.perform, managed, free]
  have created := represents.registered.created
  have old : ∀ id, some id ∈ sharing.names named →
      Function.update place sharing.objects.length address id = place id := by
    intro id isNamed
    exact Function.update_of_ne (Nat.ne_of_lt (created id isNamed)) _ _
  have elsewhere : ∀ id, some id ∈ sharing.names named → place id ≠ address := by
    intro id isNamed here
    obtain ⟨_, _, _, live⟩ := represents.mirrors.live created isNamed
    rw [here, free] at live
    cases live
  have named_iff : ∀ id, some id ∈ sharing.names named ++ [some sharing.objects.length] ↔
      some id ∈ sharing.names named ∨ id = sharing.objects.length := by
    simp
  refine ⟨_, performed, ?_, ?_, sound_next represents.sound performed trivial,
    represents.registered.enter rfl _⟩
  · have front : sharing.slots.map (Option.map (SharedValue.placed
        (Function.update place sharing.objects.length address))) =
          sharing.slots.map (Option.map (SharedValue.placed place)) := by
      apply List.map_congr_left
      rintro (_ | content) present
      · rfl
      · have same : content.object.map (Function.update place sharing.objects.length address) =
            content.object.map place := by
          apply Option.map_congr
          intro id object
          exact old id (List.mem_map.mpr ⟨_, present, object⟩)
        simp [SharedValue.placed, same]
    simp [Registry.enter, front, represents.values, Value.construct, managed, observe,
      SharedValue.placed, Value.block, Storage.ptr?]
  · simp only [Registry.names_enter, Value.construct, managed, ↓reduceIte, Memory.allocate]
    refine ⟨?_, ?_, ?_⟩
    · intro one other first second together
      rcases (named_iff one).mp first with isNamed | rfl <;>
        rcases (named_iff other).mp second with otherNamed | rfl
      · rw [old one isNamed, old other otherNamed] at together
        exact represents.mirrors.distinct one other isNamed otherNamed together
      · rw [old one isNamed, Function.update_self] at together
        exact absurd together (elsewhere one isNamed)
      · rw [old other otherNamed, Function.update_self] at together
        exact absurd together.symm (elsewhere other otherNamed)
      · rfl
    · intro id object isNamed known
      dsimp only
      rcases (named_iff id).mp isNamed with earlier | rfl
      · rw [old id earlier, Function.update_of_ne (elsewhere id earlier)]
        apply represents.mirrors.stored id object earlier
        simpa [Registry.enter, List.getElem?_append_left (created id earlier)] using known
      · have new : Object.create type = object := by simpa [Registry.enter] using known
        subst new
        exact ⟨1, by rw [Function.update_self, Function.update_self]; rfl⟩
    · refine represents.mirrors.destructions.trans (calls_congr ?_).symm
      intro id member
      exact List.getElem?_append_left ((represents.registered.ended_iff id).mp member).1

/-- Live blocks are held, so there is a free address. -/
theorem free_address (sound : Sound program) : ∃ address, program.memory.blocks address = none := by
  obtain ⟨address, free⟩ := Infinite.exists_notMem_finset
    ((slots program).filterMap id).toFinset
  refine ⟨address, ?_⟩
  rw [← Option.not_isSome_iff_eq_none, sound.balanced.live, Nat.not_lt, Nat.le_zero, ← unnamed_iff]
  intro held
  exact free (List.mem_toFinset.mpr (List.mem_filterMap.mpr ⟨_, held, rfl⟩))

/-- A constructed value names a new object, if its type is managed. -/
theorem construct_follows (represents : Represents interp place program sharing)
    (allocates : Allocates allocator) (type : QualType) :
    Follows interp allocator program sharing (.construct type) := by
  cases managed : needsManagedAllocation type with
  | false =>
    simp only [Follows, serve, managed, Bool.false_eq_true, ↓reduceIte]
    intro _
    have performed : perform interp allocator program (.construct type) = some (.continues
        { program with values := program.values ++
            [some (Value.construct interp type (allocator program.memory) program.memory).2] }) := by
      simp [perform, operation, Program.perform, managed, Value.construct]
    refine ⟨_, place, performed, add_unmanaged represents ?_ rfl⟩
    simp [Value.construct, managed, observe, SharedValue.placed, Value.block]
  | true =>
    simp only [Follows, serve, managed, ↓reduceIte]
    intro _
    obtain ⟨after, performed, represented⟩ := construct_managed represents managed
      (allocates program.memory (free_address represents.sound))
    exact ⟨after, _, performed, represented⟩

/-- A represented value shares the block at the place of its object. -/
theorem block_placed {value : Value} {content : SharedValue}
    (seen : observe value = content.placed place) : value.block = content.object.map place :=
  congrArg SharedValue.object seen

/-- A moved value is represented by what the move leaves of its content. -/
theorem observe_movedFrom {value : Value} {content : SharedValue}
    (seen : observe value = content.placed place) :
    observe value.movedFrom = content.movedFrom.placed place := by
  have type : value.type = content.type := congrArg SharedValue.type seen
  simp [observe, Value.movedFrom, SharedValue.movedFrom, SharedValue.placed, Value.block, type]

/-- What names an object names it at its place. -/
theorem held_placed (represents : Represents interp place program sharing) {slot : Nat}
    {address : PayloadAddress} (held : (slots program)[slot]? = some (some address)) :
    ∃ id, (sharing.names named)[slot]? = some (some id) ∧ place id = address := by
  rw [slots_placed represents, List.getElem?_map] at held
  obtain ⟨content, present, there⟩ := Option.map_eq_some_iff.mp held
  obtain ⟨id, rfl, rfl⟩ := Option.map_eq_some_iff.mp there
  exact ⟨id, present, rfl⟩

/-- A copied value names the same object. -/
theorem copy_follows (represents : Represents interp place program sharing) (source : Nat) :
    Follows interp allocator program sharing (.copy source) := by
  cases lives : value? sharing source with
  | none =>
    simp [Follows, serve, lives, perform, operation, Program.perform, no_value represents lives]
  | some content =>
    simp only [Follows, serve, lives, bind, Option.bind_some, pure]
    intro roomy
    obtain ⟨value, stored, seen⟩ := lives_of_value? represents lives
    have known := named_of_value? lives
    have named_iff : ∀ id, some id ∈ sharing.names named ++ [content.object] →
        some id ∈ sharing.names named := by
      intro id isNamed
      rcases List.mem_append.mp isNamed with earlier | here
      · exact earlier
      · exact known id (List.mem_singleton.mp here).symm
    obtain ⟨after, retained, mirrors⟩ :=
      represents.mirrors.share represents.registered.created (block_placed seen) known
    have performed : program.perform interp (.copy source) =
        some (.continues ⟨program.values ++ [some value], after⟩) := by
      simp [Program.perform, stored, Value.copyConstruct, retained, outcome, bind, Except.bind, pure,
        Except.pure]
    have fits : ShareFits program (.copy source) := by
      intro address held
      obtain ⟨id, present, rfl⟩ := held_placed represents held
      have isNamed : some id ∈ sharing.names named := List.mem_of_getElem? present
      have same := Option.some.inj ((names_of_value? lives).symm.trans present)
      have bound := roomy id
      rw [slots_placed represents, represents.mirrors.holders_place isNamed]
      simpa [holders, named, same] using bound
    refine ⟨_, place, performed, ?_, mirrors.fewer ?_, sound_next represents.sound performed fits,
      represents.registered.add known⟩
    · simp [Registry.add, represents.values, seen]
    · simpa [named] using named_iff

/-- A moved value names its object for the new one. -/
theorem move_follows (represents : Represents interp place program sharing) (source : Nat) :
    Follows interp allocator program sharing (.move source) := by
  cases lives : value? sharing source with
  | none =>
    simp [Follows, serve, lives, perform, operation, Program.perform, no_value represents lives]
  | some content =>
    simp only [Follows, serve, lives, bind, Option.bind_some, pure]
    intro _
    obtain ⟨value, stored, seen⟩ := lives_of_value? represents lives
    have known := named_of_value? lives
    have inside : source < (sharing.names named).length :=
      (List.getElem?_eq_some_iff.mp (names_of_value? lives)).1
    have within : source < sharing.slots.length := by simpa [Registry.names] using inside
    have performed : program.perform interp (.move source) = some (.continues
        { program with
          values := program.values.set source (some value.movedFrom) ++ [some value] }) := by
      simp [Program.perform, stored, Value.moveConstruct, bind, pure]
    have names : ((sharing.add (some content)).assign named source (some content.movedFrom)).names named =
        (sharing.names named).set source none ++ [content.object] := by
      rw [Registry.names_assign, Registry.names_add, List.set_append_left _ _ inside]
      rfl
    have held : ((sharing.add (some content)).names named)[source]? = some content.object := by
      rw [Registry.names_add, List.getElem?_append_left inside, names_of_value? lives]
    have still : given content.object
        (((sharing.add (some content)).names named).set source none) = [] := by
      rw [Registry.names_add, List.set_append_left _ _ inside]
      apply given_named
      intro id object
      simp [named, object]
    have ended : ((sharing.add (some content)).assign named source (some content.movedFrom)).ended =
        sharing.ended := by
      rw [Registry.ended_assign held]
      exact (congrArg (sharing.ended ++ ·) still).trans (List.append_nil _)
    refine ⟨_, place, performed, ?_, ?_, sound_next represents.sound performed trivial, ?_⟩
    · simp [Registry.add, Registry.assign, List.set_append_left _ _ within, represents.values, seen,
        observe_movedFrom seen, List.map_set]
    · rw [names, ended]
      apply represents.mirrors.fewer
      intro id isNamed
      rcases List.mem_append.mp isNamed with earlier | here
      · exact named_of_emptied earlier
      · exact known id (List.mem_singleton.mp here).symm
    · refine Registry.Sound.assign (represents.registered.add ?_) ?_
      · exact known
      · simp [named, SharedValue.movedFrom]

/-- A value gives up its object when it is released. -/
theorem release_drops (represents : Represents interp place program sharing) {slot : Nat}
    {value : Value} {content : SharedValue} (lives : value? sharing slot = some content)
    (seen : observe value = content.placed place) :
    ∃ dropped, value.release program.memory = .ok dropped ∧
      Mirrors interp place ((sharing.names named).set slot none) sharing.objects
        (sharing.ended ++ given content.object ((sharing.names named).set slot none)) dropped := by
  have counted := represents.sound.balanced
  rw [ReferenceCounts.Balanced, slots_placed represents] at counted
  exact represents.mirrors.drop counted represents.sound.built represents.registered.created
    (names_of_value? lives) (block_placed seen)

/-- A destroyed value gives up its object. -/
theorem destroy_follows (represents : Represents interp place program sharing) (target : Nat) :
    Follows interp allocator program sharing (.destroy target) := by
  cases lives : value? sharing target with
  | none =>
    simp [Follows, serve, lives, perform, operation, Program.perform, no_value represents lives]
  | some content =>
    simp only [Follows, serve, lives, bind, Option.bind_some, pure]
    intro _
    obtain ⟨value, stored, seen⟩ := lives_of_value? represents lives
    obtain ⟨dropped, released, mirrors⟩ := release_drops represents lives seen
    have performed : program.perform interp (.destroy target) =
        some (.continues ⟨program.values.set target none, dropped⟩) := by
      simp [Program.perform, stored, Value.destroy, released, outcome]
    refine ⟨_, place, performed, ?_, ?_, sound_next represents.sound performed trivial, ?_⟩
    · simp [Registry.assign, represents.values, List.map_set]
    · rw [Registry.names_assign, Registry.ended_assign (names_of_value? lives)]
      exact mirrors
    · apply represents.registered.assign
      simp

/-- An assignment between values that do not live in two different slots does not apply. -/
theorem assignment_refused (represents : Represents interp place program sharing)
    {target source : Nat}
    (refused : target = source ∨ value? sharing target = none ∨ value? sharing source = none) :
    Follows interp allocator program sharing (.copyAssign target source) ∧
      Follows interp allocator program sharing (.moveAssign target source) := by
  rcases refused with same | noTarget | noSource
  · simp [Follows, serve, same, perform, operation, Program.perform]
  · have absent := no_value represents noTarget
    simp [Follows, serve, noTarget, perform, operation, Program.perform, absent]
  · have absent := no_value represents noSource
    simp [Follows, serve, noSource, perform, operation, Program.perform, absent]

/-- A copy assignment gives up what the target names for what the source names. -/
theorem copyAssign_follows (represents : Represents interp place program sharing)
    (target source : Nat) : Follows interp allocator program sharing (.copyAssign target source) := by
  by_cases refused : target = source ∨ value? sharing target = none ∨ value? sharing source = none
  · exact (assignment_refused represents refused).1
  · simp only [not_or, ← ne_eq, Option.ne_none_iff_exists'] at refused
    obtain ⟨same, ⟨this, livesTarget⟩, content, livesSource⟩ := refused
    obtain ⟨value, storedTarget, seenTarget⟩ := lives_of_value? represents livesTarget
    simp only [Follows, serve, same, ↓reduceIte, livesTarget, livesSource, bind, Option.bind_some, pure]
    intro roomy
    obtain ⟨other, storedSource, seen⟩ := lives_of_value? represents livesSource
    obtain ⟨dropped, released, mirrors⟩ := release_drops represents livesTarget seenTarget
    have known := named_elsewhere same livesSource
    have inside := (List.getElem?_eq_some_iff.mp (names_of_value? livesTarget)).1
    have empty : ((sharing.names named).set target none)[target]? = some none :=
      List.getElem?_set_self inside
    have created : ∀ id, some id ∈ (sharing.names named).set target none →
        id < sharing.objects.length :=
      fun id isNamed => represents.registered.created id (named_of_emptied isNamed)
    obtain ⟨after, retained, mirrors⟩ := mirrors.share created (block_placed seen) known
    have performed : program.perform interp (.copyAssign target source) =
        some (.continues ⟨program.values.set target (some other), after⟩) := by
      simp [Program.perform, same, storedTarget, storedSource, Value.copyAssign, released, retained,
        outcome, bind, Except.bind, pure, Except.pure]
    have fits : ShareFits program (.copyAssign target source) := by
      intro address held
      obtain ⟨id, present, rfl⟩ := held_placed represents held
      have shares := Option.some.inj ((names_of_value? livesSource).symm.trans present)
      have isNamed := known id shares
      have filled := (holders_fill empty id).1
      have bound := roomy id
      rw [Registry.names_assign] at bound
      rw [slots_placed represents, ← Option.map_none, ← List.map_set, mirrors.holders_place isNamed]
      rw [List.set_set] at filled
      simp only [named_some, shares] at bound
      omega
    refine ⟨_, place, performed, ?_, ?_, sound_next represents.sound performed fits,
      represents.registered.assign (named_of_value? livesSource)⟩
    · simp [Registry.assign, represents.values, seen, List.map_set]
    · rw [Registry.names_assign, Registry.ended_assign (names_of_value? livesTarget),
        named_some, given_set _ inside known]
      apply mirrors.fewer
      intro id
      exact (named_set_iff inside known).mp

/-- A move assignment gives up what the target names, and hands over what the source names. -/
theorem moveAssign_follows (represents : Represents interp place program sharing)
    (target source : Nat) : Follows interp allocator program sharing (.moveAssign target source) := by
  by_cases refused : target = source ∨ value? sharing target = none ∨ value? sharing source = none
  · exact (assignment_refused represents refused).2
  · simp only [not_or, ← ne_eq, Option.ne_none_iff_exists'] at refused
    obtain ⟨same, ⟨this, livesTarget⟩, content, livesSource⟩ := refused
    obtain ⟨value, storedTarget, seenTarget⟩ := lives_of_value? represents livesTarget
    simp only [Follows, serve, same, ↓reduceIte, livesTarget, livesSource, bind, Option.bind_some, pure]
    intro _
    obtain ⟨other, storedSource, seen⟩ := lives_of_value? represents livesSource
    obtain ⟨dropped, released, mirrors⟩ := release_drops represents livesTarget seenTarget
    have known := named_elsewhere same livesSource
    have inside := (List.getElem?_eq_some_iff.mp (names_of_value? livesTarget)).1
    have performed : program.perform interp (.moveAssign target source) = some (.continues
        ⟨(program.values.set target (some other)).set source (some other.movedFrom), dropped⟩) := by
      simp [Program.perform, same, storedTarget, storedSource, Value.moveAssign, released, outcome,
        bind, Except.bind, pure, Except.pure]
    have held : ((sharing.assign named target (some content)).names named)[source]? =
        some content.object := by
      rw [Registry.names_assign, List.getElem?_set_ne same, names_of_value? livesSource]
    have still : given content.object
        (((sharing.names named).set target content.object).set source none) = [] := by
      apply given_named
      intro id object
      apply List.mem_iff_getElem?.mpr
      refine ⟨target, ?_⟩
      rw [List.getElem?_set_ne (Ne.symm same), List.getElem?_set_self inside, object]
    refine ⟨_, place, performed, ?_, ?_, sound_next represents.sound performed trivial, ?_⟩
    · simp [Registry.assign, represents.values, seen, observe_movedFrom seen, List.map_set]
    · rw [Registry.ended_assign held, Registry.ended_assign (names_of_value? livesTarget),
        Registry.names_assign, Registry.names_assign, named_some, given_set _ inside known]
      rw [show named (some content.movedFrom) = none from rfl, still, List.append_nil]
      apply mirrors.fewer
      intro id isNamed
      exact (named_set_iff inside known).mp (named_of_emptied isNamed)
    · refine Registry.Sound.assign (represents.registered.assign ?_) ?_
      · exact named_of_value? livesSource
      · simp [SharedValue.movedFrom]

/-- User code constructs the object that a value names. -/
theorem build_follows (represents : Represents interp place program sharing) (slot : Nat)
    (payload : Nat → Option UInt8) :
    Follows interp allocator program sharing (.build slot payload) := by
  cases lives : value? sharing slot with
  | none => simp [Follows, serve, lives, perform, operation, no_value represents lives]
  | some content =>
    obtain ⟨value, stored, seen⟩ := lives_of_value? represents lives
    have shares := block_placed seen
    cases shared : content.object with
    | none =>
      rw [shared, Option.map_none] at shares
      simp [Follows, serve, lives, shared, perform, operation, stored, shares]
    | some id =>
      rw [shared, Option.map_some] at shares
      have isNamed := named_of_value? lives id shared
      obtain ⟨object, refCnt, present, live⟩ :=
        represents.mirrors.live represents.registered.created isNamed
      have elements : (object.block interp).elemsNum = getNumberOfElements object.type := rfl
      by_cases vacant : getNumberOfElements object.type = 0
      · simp [Follows, serve, lives, shared, present, vacant, perform, operation, stored, shares,
          Program.perform, live, elements]
      · simp only [Follows, serve, lives, shared, present, vacant, ↓reduceIte, bind, Option.bind_some, pure]
        intro _
        have performed : program.perform interp (.build (place id) payload) = some (.continues
            ⟨program.values, program.memory.allocate (place id)
              { object.block interp with refCnt, payload }⟩) := by
          simp [Program.perform, live, elements, vacant]
        have asked : perform interp allocator program (.build slot payload) =
            program.perform interp (.build (place id) payload) := by
          simp [perform, operation, stored, shares]
        have lasting : id ∉ sharing.ended :=
          fun past => ((represents.registered.ended_iff id).mp past).2 isNamed
        exact ⟨_, place, asked.trans performed, represents.values,
          represents.mirrors.build isNamed present lasting refCnt payload,
          sound_next represents.sound performed trivial, represents.registered.revise _ _⟩

/-- Every request is followed. -/
theorem request_follows (represents : Represents interp place program sharing)
    (allocates : Allocates allocator) (request : Request) :
    Follows interp allocator program sharing request := by
  cases request with
  | default => exact default_follows represents
  | construct type => exact construct_follows represents allocates type
  | copy source => exact copy_follows represents source
  | move source => exact move_follows represents source
  | copyAssign target source => exact copyAssign_follows represents target source
  | moveAssign target source => exact moveAssign_follows represents target source
  | destroy target => exact destroy_follows represents target
  | build slot payload => exact build_follows represents slot payload

end Requests

section Runs

variable {interp : Interpreter} {allocator : Memory → PayloadAddress}

/-- No values and no blocks represent no values and no objects. -/
theorem start_represents (interp : Interpreter) (place : Nat → PayloadAddress) :
    Represents interp place .start .start := by
  refine ⟨rfl, ⟨?_, ?_, rfl⟩, start_sound, NamedObjects.start_sound⟩
  · intro one other isNamed
    cases isNamed
  · intro id object isNamed
    cases isNamed

/-- All requests are followed. -/
theorem performAll_represents (allocates : Allocates allocator) (requests : List Request)
    {place : Nat → PayloadAddress} {program : Program} {sharing : Sharing}
    (represents : Represents interp place program sharing) (roomy : RoomyThroughout sharing requests) :
    match serveAll sharing requests with
    | none => performAll interp allocator program requests = none
    | some last => ∃ after place, performAll interp allocator program requests = some (.ok after) ∧
        Represents interp place after last := by
  induction requests generalizing place program sharing with
  | nil => exact ⟨program, place, rfl, represents⟩
  | cons request rest inductionHypothesis =>
    have follows := request_follows represents allocates request
    rw [Follows] at follows
    simp only [serveAll, performAll, bind]
    cases served : serve sharing request with
    | none =>
      rw [served] at follows
      simp only [Option.bind_none, follows]
    | some next =>
      rw [served] at follows
      have room : Roomy next := by
        refine roomy [request] (List.prefix_append [request] rest) next ?_
        simp [serveAll, served]
      obtain ⟨after, place, performed, represents⟩ := follows room
      simp only [Option.bind_some, performed]
      apply inductionHypothesis represents
      intro earlier isPrefix last reached
      refine roomy (request :: earlier) (List.cons_prefix_cons.mpr ⟨rfl, isPrefix⟩) last ?_
      simp [serveAll, served, reached]

end Runs

/-- Requests that apply to the abstract values are served without a fault, and afterwards the
program represents these values. Other requests do not apply to the program either. -/
def Refines (interp : Interpreter) (allocator : Memory → PayloadAddress) (requests : List Request) :
    Prop :=
  match serveAll .start requests with
  | none => performAll interp allocator .start requests = none
  | some sharing => ∃ program place, performAll interp allocator .start requests = some (.ok program) ∧
      Represents interp place program sharing

/-- Represented values are roomy: their counts are kept in 32 bits. -/
theorem represented_roomy {interp : Interpreter} {place : Nat → PayloadAddress} {program : Program}
    {sharing : Sharing} (represents : Represents interp place program sharing) : Roomy sharing := by
  intro id
  by_cases isNamed : some id ∈ sharing.names named
  · obtain ⟨object, refCnt, _, live⟩ :=
      represents.mirrors.live represents.registered.created isNamed
    have counts := represents.sound.balanced.counts (place id) _ live
    rw [slots_placed represents, represents.mirrors.holders_place isNamed] at counts
    rw [← counts]
    exact refCnt.toNat_lt
  · rw [unnamed_iff.mp isNamed]
    decide

/-- Values with reference counts refine values that name objects, at every point of a run and
wherever the allocator puts the blocks, exactly when no object has 2^32 names on the way. -/
theorem values_refine_iff (interp : Interpreter) {allocator : Memory → PayloadAddress}
    (allocates : Allocates allocator) (requests : List Request) :
    (∀ earlier, earlier <+: requests → Refines interp allocator earlier) ↔
      RoomyThroughout .start requests := by
  constructor
  · intro refines earlier isPrefix sharing reached
    have refined := refines earlier isPrefix
    rw [Refines, reached] at refined
    obtain ⟨program, place, _, represents⟩ := refined
    exact represented_roomy represents
  · intro roomy earlier isPrefix
    apply performAll_represents allocates earlier (start_represents interp id)
    intro first before
    exact roomy first (before.trans isPrefix)

/-- The lowest address without a live block. -/
noncomputable def firstFree (memory : Memory) : PayloadAddress :=
  sInf {address | memory.blocks address = none}

/-- It is free, if there is a free address. -/
theorem firstFree_allocates : Allocates firstFree := by
  intro memory free
  exact Nat.sInf_mem free

/-- An interpreter with a destructor for each record. -/
def recorded : Interpreter := ⟨fun _ => 8, some⟩

/-- A value is constructed and copied, its object is constructed through the copy, and both
values are destroyed. -/
def copied : List Request :=
  [.construct (.record 3), .copy 0, .build 1 fun _ => some 0, .destroy 0, .destroy 1]

/-- The refinement for a copied value. -/
theorem copied_refines :
    (∀ earlier, earlier <+: copied → Refines recorded firstFree earlier) ↔
      RoomyThroughout .start copied :=
  values_refine_iff recorded firstFree_allocates copied

/-- When all values of a program are gone, every block is freed. The destructor calls are those
at the ends of all objects that were created, each of which has ended once. -/
theorem all_destroyed_once (interp : Interpreter) {allocator : Memory → PayloadAddress}
    (allocates : Allocates allocator) (requests : List Request)
    (roomy : RoomyThroughout .start requests) {program : Program}
    (performed : performAll interp allocator .start requests = some (.ok program))
    (gone : ∀ value ∈ program.values, value = none) :
    (∀ address, program.memory.blocks address = none) ∧
      ∃ sharing order, serveAll .start requests = some sharing ∧
        order.Perm (List.range sharing.objects.length) ∧
        program.memory.destructions = calls interp sharing.objects order := by
  have refined := performAll_represents allocates requests (start_represents interp id) roomy
  cases served : serveAll .start requests with
  | none =>
    rw [served] at refined
    cases performed.symm.trans refined
  | some sharing =>
    rw [served] at refined
    obtain ⟨program, place, same, represents⟩ := refined
    cases performed.symm.trans same
    have empty : ∀ content ∈ slots program, content = none := by
      intro content held
      obtain ⟨value, lives, rfl⟩ := List.mem_map.mp held
      rw [gone value lives]
      rfl
    have nothing : ∀ id, some id ∉ sharing.names named := by
      intro id isNamed
      have held : some (place id) ∈ slots program := by
        rw [slots_placed represents]
        exact List.mem_map_of_mem isNamed
      cases empty _ held
    refine ⟨?_, sharing, sharing.ended, rfl, represents.registered.all_ended nothing,
      represents.mirrors.destructions⟩
    intro address
    rw [← Option.not_isSome_iff_eq_none, represents.sound.balanced.live, Nat.not_lt, Nat.le_zero,
      ← unnamed_iff]
    intro held
    cases empty _ held

/-- The object of a copied value is destroyed once, and its block is freed. -/
theorem copied_destroyed_once : ∃ program,
    performAll recorded firstFree .start copied = some (.ok program) ∧
      (∀ address, program.memory.blocks address = none) ∧
      ∃ sharing order, serveAll .start copied = some sharing ∧
        order.Perm (List.range sharing.objects.length) ∧
        program.memory.destructions = calls recorded sharing.objects order := by
  have roomy : RoomyThroughout .start copied := short_roomy (by decide)
  have refined :=
    performAll_represents firstFree_allocates copied (start_represents recorded id) roomy
  have served : ∃ sharing, serveAll .start copied = some sharing ∧ sharing.slots = [none, none] :=
    ⟨_, rfl, rfl⟩
  obtain ⟨sharing, served, slots⟩ := served
  rw [served] at refined
  obtain ⟨program, place, performed, represents⟩ := refined
  have gone : ∀ value ∈ program.values, value = none := by
    intro value lives
    have seen : value.map observe ∈ program.values.map (Option.map observe) := List.mem_map_of_mem lives
    rw [represents.values, slots] at seen
    simpa using seen
  exact ⟨program, performed,
    all_destroyed_once recorded firstFree_allocates copied roomy performed gone⟩

end CppInterpreter.ObjectLifetimes
