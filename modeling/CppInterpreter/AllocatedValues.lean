import Mathlib.Logic.Function.Basic

/-!
# Managed blocks

An `AllocatedValue` heads the memory of a managed object: a count of the values that
share it, the destructor of an element, the size and the number of elements, and the
payload. The count is a 32-bit unsigned integer and wraps. The model is that of a build
without assertions: with them, as in the Debug build of the repository, a release stops where
the count has wrapped to zero.

A block is addressed by its payload. Retaining or releasing at an address without a
live block is a fault. So is the division by the number of elements where there is
none, which happens to a block whose object is alive and has a destructor.
-/

namespace CppInterpreter

/-- The address of a payload. -/
abbrev PayloadAddress := Nat

/-- A compiled destructor call, told apart by a number. -/
abbrev DtorFunc := Nat

/-- The destructor is called on the element at an offset of a payload. -/
structure Destruction where
  dtorFunc : DtorFunc
  offset : UInt64
deriving DecidableEq, Repr

/-- `kCanaryUnconstructedObject`. -/
def kCanaryUnconstructedObject : List UInt8 := [0x4c, 0x37, 0xad, 0x8f, 0x2d, 0x23, 0x95, 0x91]

/-- `getPayloadOffset`: the head consists of a 32-bit count, a pointer and two 64-bit
integers. -/
def payloadOffset : UInt32 := 32

/-- A block of `new char[allocated]`. Bytes of the payload that nothing has written yet
have no value. -/
structure AllocatedValue where
  allocated : UInt32
  refCnt : UInt32
  dtorFunc : Option DtorFunc
  allocSize : UInt64
  elemsNum : UInt64
  payload : Nat → Option UInt8

/-- What goes wrong at a block. -/
inductive BlockFault where
  | retainFreed (address : PayloadAddress)
  | releaseFreed (address : PayloadAddress)
  | noElements
deriving DecidableEq, Repr

namespace AllocatedValue

/-- `CreatePayload`. The sizes are added in 32 bits. Writing the head and the canary outside an
allocation whose size has wrapped is no fault here; `managedBlock_large_iff` says when a block
is large enough. -/
def createPayload (payloadSize : UInt32) (dtorFunc : Option DtorFunc) (elemsNum : UInt64) :
    AllocatedValue :=
  let payloadSize := if payloadSize < 8 then 8 else payloadSize
  { allocated := payloadOffset + payloadSize
    refCnt := 1
    dtorFunc := dtorFunc
    allocSize := payloadSize.toUInt64
    elemsNum := elemsNum
    payload := fun index => kCanaryUnconstructedObject[index]? }

/-- `IsAlive`: the first bytes of the payload are no longer the canary. -/
def isAlive (block : AllocatedValue) : Bool :=
  (List.range 8).map block.payload ≠ kCanaryUnconstructedObject.map some

/-- `Retain`. -/
def retain (block : AllocatedValue) : AllocatedValue := { block with refCnt := block.refCnt + 1 }

/-- The loop over the elements, from the last one to the first. -/
def destructions (block : AllocatedValue) (dtorFunc : DtorFunc) : List Destruction :=
  let skip := block.allocSize / block.elemsNum
  (List.range block.elemsNum.toNat).reverse.map fun index => ⟨dtorFunc, UInt64.ofNat index * skip⟩

/-- `Release`: the block that remains, if any, and the destructor calls. The assertion that the
count is positive is left out: a count of zero, which takes 2^32 sharers, wraps. -/
def release (block : AllocatedValue) :
    Except BlockFault (Option AllocatedValue × List Destruction) :=
  let refCnt := block.refCnt - 1
  if refCnt = 0 then
    match block.dtorFunc with
    | none => .ok (none, [])
    | some dtorFunc =>
      if !block.isAlive then .ok (none, [])
      else if block.elemsNum = 0 then .error .noElements
      else .ok (none, block.destructions dtorFunc)
  else .ok (some { block with refCnt }, [])

end AllocatedValue

/-- The live blocks, and the destructor calls so far. -/
structure Memory where
  blocks : PayloadAddress → Option AllocatedValue
  destructions : List Destruction

namespace Memory

/-- `Retain` at the block of a payload. -/
def retain (memory : Memory) (address : PayloadAddress) : Except BlockFault Memory :=
  match memory.blocks address with
  | none => .error (.retainFreed address)
  | some block =>
    .ok { memory with blocks := Function.update memory.blocks address (some block.retain) }

/-- `Release` at the block of a payload, which `delete[]` takes away. -/
def release (memory : Memory) (address : PayloadAddress) : Except BlockFault Memory :=
  match memory.blocks address with
  | none => .error (.releaseFreed address)
  | some block =>
    match block.release with
    | .error fault => .error fault
    | .ok (left, destructions) =>
      .ok ⟨Function.update memory.blocks address left, memory.destructions ++ destructions⟩

/-- A new block at an address that the allocator chooses. -/
def allocate (memory : Memory) (address : PayloadAddress) (block : AllocatedValue) : Memory :=
  { memory with blocks := Function.update memory.blocks address (some block) }

end Memory

end CppInterpreter
