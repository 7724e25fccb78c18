import CppInterpreter.AllocatedValues
import CppInterpreter.ClangTypes
import CppInterpreter.Runs

/-!
# Values and their managed blocks

A value keeps its content in a union, together with a flag that says whether this is
the payload of a managed block. Constructing a value of a managed type allocates the
block; copies share it, moves hand it over, and assignments first give up what the
target held.

The values of a program are its live objects, each in a slot of its own. The operations
apply to live objects; the allocator returns any address without a live block. User code
may construct the object of a block that has elements, by writing its payload.
-/

namespace CppInterpreter

/-- What the union of a value holds, as far as it is a pointer. A fresh union has no
value. -/
inductive Storage where
  | indeterminate
  | ptr (payload : PayloadAddress)
deriving DecidableEq, Repr

/-- The pointer member. -/
def Storage.ptr? : Storage → Option PayloadAddress
  | .indeterminate => none
  | .ptr payload => some payload

/-- What the interpreter and the AST tell about types. -/
structure Interpreter where
  getTypeSizeInChars : QualType → Nat
  compileDtorCallFor : RecordDecl → Option DtorFunc

/-- `cppinterp::Value`. A managed value stores a pointer. -/
structure Value where
  storage : Storage
  needsManagedAlloc : Bool
  typeKind : TypeKind
  type : Option QualType
  managed : needsManagedAlloc = true → storage.ptr?.isSome = true
deriving DecidableEq

namespace Value

/-- The payload of the block that a managed value shares. -/
def block (value : Value) : Option PayloadAddress :=
  if value.needsManagedAlloc then value.storage.ptr? else none

/-- `Value()`. -/
def default : Value := ⟨.indeterminate, false, .kInvalid, none, nofun⟩

/-- The block that `ManagedAllocate` creates. Only an array that no sugar hides is
looked through, and only once. -/
def managedBlock (interp : Interpreter) (type : QualType) : AllocatedValue :=
  let dtorType :=
    match type with
    | .constantArray element _ => element
    | _ => type
  let dtorFunc := dtorType.recordDecl?.bind interp.compileDtorCallFor
  .createPayload (UInt32.ofNat (interp.getTypeSizeInChars type)) dtorFunc (getNumberOfElements type)

/-- `Value(type, interp)` where the allocator returns an address. -/
def construct (interp : Interpreter) (type : QualType) (address : PayloadAddress) (memory : Memory) :
    Memory × Value :=
  if needsManagedAllocation type then
    (memory.allocate address (managedBlock interp type),
      ⟨.ptr address, true, getCorrespondingTypeKind type, some type, fun _ => rfl⟩)
  else (memory, ⟨.indeterminate, false, getCorrespondingTypeKind type, some type, nofun⟩)

/-- `Retain` on behalf of a value, if it is managed. -/
def retain (value : Value) (memory : Memory) : Except BlockFault Memory :=
  match value.block with
  | none => .ok memory
  | some address => memory.retain address

/-- `Release` on behalf of a value, if it is managed. -/
def release (value : Value) (memory : Memory) : Except BlockFault Memory :=
  match value.block with
  | none => .ok memory
  | some address => memory.release address

/-- What a move leaves behind. -/
def movedFrom (other : Value) : Value :=
  { other with needsManagedAlloc := false, typeKind := .kInvalid, managed := nofun }

/-- `Value(const Value&)`. -/
def copyConstruct (other : Value) (memory : Memory) : Except BlockFault (Memory × Value) := do
  let memory ← other.retain memory
  return (memory, other)

/-- `Value(Value&&)`: the new value and the other one. -/
def moveConstruct (other : Value) : Value × Value := (other, other.movedFrom)

/-- `operator=(const Value&)`. -/
def copyAssign (target other : Value) (memory : Memory) : Except BlockFault (Memory × Value) := do
  let memory ← target.release memory
  let target := other
  let memory ← target.retain memory
  return (memory, target)

/-- `operator=(Value&&)`: the target and the other value. -/
def moveAssign (target other : Value) (memory : Memory) :
    Except BlockFault (Memory × Value × Value) := do
  let memory ← target.release memory
  return (memory, other, other.movedFrom)

/-- `~Value()`. -/
def destroy (value : Value) (memory : Memory) : Except BlockFault Memory := value.release memory

end Value

/-- The live values in their slots, and the memory. -/
structure Program where
  values : List (Option Value)
  memory : Memory

/-- No values and no blocks. -/
def Program.start : Program := ⟨[], ⟨fun _ => none, []⟩⟩

/-- The value that lives in a slot. -/
def Program.value? (program : Program) (slot : Nat) : Option Value :=
  (program.values[slot]?).join

/-- What happens to values and blocks. New values are put into a new slot. -/
inductive Operation where
  | default
  | construct (type : QualType) (address : PayloadAddress)
  | copy (source : Nat)
  | move (source : Nat)
  | copyAssign (target source : Nat)
  | moveAssign (target source : Nat)
  | destroy (target : Nat)
  | build (address : PayloadAddress) (payload : Nat → Option UInt8)

/-- The outcome of a computation that may fault. -/
def outcome {α : Type} (result : Except BlockFault α) (next : α → Program) :
    Runs.Outcome Program BlockFault :=
  match result with
  | .error fault => .fault fault
  | .ok value => .continues (next value)

/-- Apply an operation, where it applies. -/
def Program.perform (interp : Interpreter) (program : Program) :
    Operation → Option (Runs.Outcome Program BlockFault)
  | .default => some (.continues { program with values := program.values ++ [some .default] })
  | .construct type address =>
    if needsManagedAllocation type && (program.memory.blocks address).isSome then none
    else
      let (memory, value) := Value.construct interp type address program.memory
      some (.continues ⟨program.values ++ [some value], memory⟩)
  | .copy source => do
    let other ← program.value? source
    return outcome (other.copyConstruct program.memory) fun (memory, value) =>
      ⟨program.values ++ [some value], memory⟩
  | .move source => do
    let other ← program.value? source
    let (value, other) := other.moveConstruct
    return .continues { program with values := program.values.set source (some other) ++ [some value] }
  | .copyAssign target source =>
    if target = source then none
    else do
      let this ← program.value? target
      let other ← program.value? source
      return outcome (this.copyAssign other program.memory) fun (memory, this) =>
        ⟨program.values.set target (some this), memory⟩
  | .moveAssign target source =>
    if target = source then none
    else do
      let this ← program.value? target
      let other ← program.value? source
      return outcome (this.moveAssign other program.memory) fun (memory, this, other) =>
        ⟨(program.values.set target (some this)).set source (some other), memory⟩
  | .destroy target => do
    let this ← program.value? target
    return outcome (this.destroy program.memory) fun memory =>
      ⟨program.values.set target none, memory⟩
  | .build address payload => do
    let block ← program.memory.blocks address
    if block.elemsNum = 0 then none
    else
      let memory := program.memory.allocate address { block with payload }
      return .continues { program with memory }

/-- The system of all operations. -/
def operations (interp : Interpreter) (program : Program) (operation : Operation)
    (result : Runs.Outcome Program BlockFault) : Prop :=
  program.perform interp operation = some result

end CppInterpreter
