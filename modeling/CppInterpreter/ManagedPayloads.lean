import CppInterpreter.ElementDestructors

/-!
# Payloads of managed blocks

The size of a payload is narrowed to 32 bits before it gets to the allocator, and the head
of the block is added in 32 bits. A block is large enough for its object exactly when this
sum does not wrap.

Whether the object has been constructed is not recorded. A new payload begins with a canary,
and the last release calls destructors when the canary has changed. A construction that
leaves the canary in place goes unnoticed.
-/

namespace CppInterpreter.ManagedPayloads

open ElementDestructors

/-- A block has room for its head and for an object of a size, which is at least that of the
canary, and stores the size. -/
def LargeEnough (block : AllocatedValue) (size : Nat) : Prop :=
  payloadOffset.toNat + max size 8 ≤ block.allocated.toNat ∧ block.allocSize.toNat = max size 8

/-- The head is added to the narrowed size in 32 bits. -/
theorem allocated_eq (interp : Interpreter) (type : QualType) :
    (Value.managedBlock interp type).allocated.toNat =
      (payloadOffset.toNat + max 8 (interp.getTypeSizeInChars type % 2 ^ 32)) % 2 ^ 32 := by
  have stored := allocSize_eq interp type
  simp only [Value.managedBlock, AllocatedValue.createPayload, UInt32.toNat_toUInt64] at stored ⊢
  rw [UInt32.toNat_add, stored]

/-- The block of a managed value is large enough exactly when the size and the head make less
than 2^32 bytes. -/
theorem managedBlock_large_iff (interp : Interpreter) (type : QualType) :
    LargeEnough (Value.managedBlock interp type) (interp.getTypeSizeInChars type) ↔
      interp.getTypeSizeInChars type + payloadOffset.toNat < 2 ^ 32 := by
  have offset : payloadOffset.toNat = 32 := rfl
  rw [LargeEnough, allocated_eq, allocSize_eq, offset]
  constructor
  · rintro ⟨room, stored⟩
    have fits := Nat.mod_lt (32 + max 8 (interp.getTypeSizeInChars type % 2 ^ 32))
      (show 0 < 2 ^ 32 by decide)
    omega
  · intro fits
    have whole : interp.getTypeSizeInChars type % 2 ^ 32 = interp.getTypeSizeInChars type :=
      Nat.mod_eq_of_lt (by omega)
    rw [whole, Nat.mod_eq_of_lt (by omega)]
    omega

/-- The block for an object of 2^32 - 1 bytes has 31 bytes. -/
theorem wrapped_block_small :
    (recordsOf (2 ^ 32 - 1)).getTypeSizeInChars (.record 0) = 2 ^ 32 - 1 ∧
      (Value.managedBlock (recordsOf (2 ^ 32 - 1)) (.record 0)).allocated = 31 ∧
      ¬ LargeEnough (Value.managedBlock (recordsOf (2 ^ 32 - 1)) (.record 0)) (2 ^ 32 - 1) := by
  have allocated : (Value.managedBlock (recordsOf (2 ^ 32 - 1)) (.record 0)).allocated = 31 := by
    decide +kernel
  refine ⟨rfl, allocated, ?_⟩
  rintro ⟨room, _⟩
  rw [allocated] at room
  revert room
  decide +kernel

/-- The bytes of the payload that a constructor writes. -/
abbrev Writes := Nat → Option UInt8

/-- User code constructs the object of a block. What it does not write stays as it was. -/
def construct (block : AllocatedValue) (writes : Writes) : AllocatedValue :=
  { block with payload := fun index => (writes index).or (block.payload index) }

/-- What happens to the count of a block before its last release. -/
inductive Counting where
  | retain
  | release
deriving DecidableEq, Repr

/-- Apply an event, unless it takes the block away. -/
def Counting.perform (block : AllocatedValue) : Counting → Option AllocatedValue
  | .retain => some block.retain
  | .release =>
    match block.release with
    | .error _ => none
    | .ok (left, _) => left

/-- What happens to a block up to its last release. The object is constructed at some point,
or never. -/
structure History where
  earlier : List Counting
  construction : Option Writes
  later : List Counting

/-- The block at its last release. -/
def History.run (block : AllocatedValue) (history : History) : Option AllocatedValue := do
  let block ← history.earlier.foldlM Counting.perform block
  history.later.foldlM Counting.perform (history.construction.elim block (construct block))

/-- A release takes the block away. It runs the destructors of all elements if the object was
constructed, and no destructor otherwise. -/
def DestroysConstructed (block : AllocatedValue) (dtorFunc : DtorFunc) (constructed : Bool) : Prop :=
  ∃ destructions, block.release = .ok (none, destructions) ∧
    destructions.map Destruction.dtorFunc =
      if constructed then List.replicate block.elemsNum.toNat dtorFunc else []

/-- One of the first bytes is written, and not with that of the canary. -/
def Disturbs (writes : Writes) : Prop :=
  ∃ index byte, index < 8 ∧ writes index = some byte ∧ kCanaryUnconstructedObject[index]? ≠ some byte

section Histories

variable {block after : AllocatedValue}

/-- The canary byte by byte. -/
theorem isAlive_iff (block : AllocatedValue) : block.isAlive = true ↔
    ∃ index < 8, block.payload index ≠ kCanaryUnconstructedObject[index]? := by
  have bytes : kCanaryUnconstructedObject.map some =
      (List.range 8).map fun index => kCanaryUnconstructedObject[index]? := rfl
  rw [AllocatedValue.isAlive, decide_eq_true_eq, bytes, Ne, List.map_inj_left]
  simp only [List.mem_range, not_forall, exists_prop, ne_eq]

/-- Counting changes nothing but the count. -/
structure SameObject (block after : AllocatedValue) : Prop where
  dtorFunc : after.dtorFunc = block.dtorFunc
  elemsNum : after.elemsNum = block.elemsNum
  payload : after.payload = block.payload

/-- What a release leaves of a block counts one less. -/
theorem release_leaves {destructions : List Destruction}
    (released : block.release = .ok (some after, destructions)) :
    after = { block with refCnt := block.refCnt - 1 } := by
  simp only [AllocatedValue.release] at released
  by_cases last : block.refCnt - 1 = 0
  · simp only [last, ↓reduceIte] at released
    cases present : block.dtorFunc with
    | none => simp [present] at released
    | some dtorFunc =>
      simp only [present] at released
      split_ifs at released
      · cases released
      · cases released
  · simp only [last, ↓reduceIte, Except.ok.injEq, Prod.mk.injEq, Option.some.injEq] at released
    exact released.1.symm

/-- One event keeps the object. -/
theorem perform_keeps {event : Counting} (performed : event.perform block = some after) :
    SameObject block after := by
  cases event with
  | retain =>
    obtain rfl := Option.some.inj performed
    exact ⟨rfl, rfl, rfl⟩
  | release =>
    rw [Counting.perform] at performed
    cases released : block.release with
    | error fault => simp [released] at performed
    | ok result =>
      obtain ⟨left, destructions⟩ := result
      obtain rfl : left = some after := by simpa [released] using performed
      rw [release_leaves released]
      exact ⟨rfl, rfl, rfl⟩

/-- A run of events keeps the object. -/
theorem counting_keeps (events : List Counting) {block : AllocatedValue}
    (performed : events.foldlM Counting.perform block = some after) : SameObject block after := by
  induction events generalizing block with
  | nil =>
    obtain rfl := Option.some.inj performed
    exact ⟨rfl, rfl, rfl⟩
  | cons event events inductionHypothesis =>
    rw [List.foldlM_cons] at performed
    obtain ⟨next, step, rest⟩ := Option.bind_eq_some_iff.mp performed
    have first := perform_keeps step
    have others := inductionHypothesis rest
    exact ⟨others.dtorFunc.trans first.dtorFunc, others.elemsNum.trans first.elemsNum,
      others.payload.trans first.payload⟩

/-- A history keeps the destructor and the elements, and leaves the bytes that the constructor
writes over those that were there. -/
theorem run_keeps {history : History} (ran : history.run block = some after) :
    after.dtorFunc = block.dtorFunc ∧ after.elemsNum = block.elemsNum ∧
      ∀ index, after.payload index =
        (history.construction.bind fun writes => writes index).or (block.payload index) := by
  obtain ⟨between, earlier, later⟩ := Option.bind_eq_some_iff.mp ran
  have front := counting_keeps _ earlier
  have back := counting_keeps _ later
  cases constructed : history.construction with
  | none =>
    simp only [constructed, Option.elim_none] at back
    refine ⟨back.dtorFunc.trans front.dtorFunc, back.elemsNum.trans front.elemsNum, fun index => ?_⟩
    rw [back.payload, front.payload, Option.bind_none, Option.none_or]
  | some writes =>
    simp only [constructed, Option.elim_some] at back
    refine ⟨back.dtorFunc.trans front.dtorFunc, back.elemsNum.trans front.elemsNum, fun index => ?_⟩
    rw [back.payload, construct, front.payload, Option.bind_some]

/-- At its last release a managed block is alive exactly when a construction has disturbed the
canary. -/
theorem run_isAlive_iff {interp : Interpreter} {type : QualType} {history : History}
    (ran : history.run (Value.managedBlock interp type) = some after) :
    after.isAlive = true ↔ ∃ writes, history.construction = some writes ∧ Disturbs writes := by
  have payload := (run_keeps ran).2.2
  have canary : ∀ index, (Value.managedBlock interp type).payload index =
      kCanaryUnconstructedObject[index]? := fun _ => rfl
  simp only [isAlive_iff, payload, canary]
  constructor
  · rintro ⟨index, inside, changed⟩
    cases constructed : history.construction with
    | none => simp [constructed] at changed
    | some writes =>
      refine ⟨writes, rfl, ?_⟩
      cases written : writes index with
      | none => simp [constructed, written] at changed
      | some byte =>
        simp only [constructed, Option.bind_some, written, Option.some_or] at changed
        exact ⟨index, byte, inside, written, changed.symm⟩
  · rintro ⟨writes, constructed, index, byte, inside, written, differs⟩
    refine ⟨index, inside, ?_⟩
    simpa [constructed, written] using differs.symm

/-- The last release runs the destructors of a block that is alive. -/
theorem last_release {dtorFunc : DtorFunc} (present : block.dtorFunc = some dtorFunc)
    (elements : block.elemsNum ≠ 0) (last : block.refCnt = 1) :
    DestroysConstructed block dtorFunc block.isAlive := by
  cases alive : block.isAlive with
  | true => exact release_calls ⟨last, alive, present⟩ elements
  | false => exact ⟨[], by simp [AllocatedValue.release, last, present, alive], rfl⟩

/-- A block with elements tells by its destructor calls whether it is alive. -/
theorem destroysConstructed_iff {dtorFunc : DtorFunc} (present : block.dtorFunc = some dtorFunc)
    (elements : block.elemsNum ≠ 0) (last : block.refCnt = 1) (constructed : Bool) :
    DestroysConstructed block dtorFunc constructed ↔ constructed = block.isAlive := by
  constructor
  · rintro ⟨destructions, released, calls⟩
    obtain ⟨others, again, called⟩ := last_release present elements last
    cases released.symm.trans again
    have several : List.replicate block.elemsNum.toNat dtorFunc ≠ [] := by
      rw [Ne, List.replicate_eq_nil_iff, ← UInt64.toNat_zero, UInt64.toNat_inj]
      exact elements
    have same := calls.symm.trans called
    revert same
    cases constructed with
    | true =>
      cases block.isAlive with
      | true => exact fun _ => rfl
      | false => exact fun same => absurd same several
    | false =>
      cases block.isAlive with
      | true => exact fun same => absurd same.symm several
      | false => exact fun _ => rfl
  · rintro rfl
    exact last_release present elements last

/-- The last release runs the destructors if and only if the object was constructed, unless a
construction leaves the canary as it is. -/
theorem destroys_constructed_iff (interp : Interpreter) (type : QualType) (dtorFunc : DtorFunc)
    (present : (Value.managedBlock interp type).dtorFunc = some dtorFunc)
    (elements : (Value.managedBlock interp type).elemsNum ≠ 0) (history : History)
    (after : AllocatedValue) (ran : history.run (Value.managedBlock interp type) = some after)
    (last : after.refCnt = 1) :
    DestroysConstructed after dtorFunc history.construction.isSome ↔
      ∀ writes, history.construction = some writes → Disturbs writes := by
  obtain ⟨sameFunc, sameElements, _⟩ := run_keeps ran
  rw [destroysConstructed_iff (sameFunc.trans present) (sameElements ▸ elements) last,
    Bool.eq_iff_iff, run_isAlive_iff ran]
  cases history.construction with
  | none => simp
  | some writes => simp

end Histories

/-- A constructor writes a zero byte at the front. -/
def writesZero : Writes := fun index => if index = 0 then some 0 else none

/-- A constructor of an empty class writes nothing. -/
def writesNothing : Writes := fun _ => none

/-- The equivalence for an object that is copied, and constructed with a zero byte. -/
theorem zero_destroyed :
    DestroysConstructed { Value.managedBlock (recordsOf 1) (.record 0) with
        payload := (construct (Value.managedBlock (recordsOf 1) (.record 0)) writesZero).payload } 0
        true ↔
      ∀ writes, some writesZero = some writes → Disturbs writes :=
  destroys_constructed_iff (recordsOf 1) (.record 0) 0 rfl (by decide)
    ⟨[.retain], some writesZero, [.release]⟩ _ rfl rfl

/-- An empty object is constructed, and never destroyed. -/
theorem empty_object_undestroyed :
    (Value.managedBlock (recordsOf 1) (.record 0)).dtorFunc = some 0 ∧
      (Value.managedBlock (recordsOf 1) (.record 0)).elemsNum = 1 ∧
      ∃ after, History.run (Value.managedBlock (recordsOf 1) (.record 0))
          ⟨[], some writesNothing, []⟩ = some after ∧ after.refCnt = 1 ∧
        after.release = .ok (none, []) ∧ ¬ DestroysConstructed after 0 true := by
  refine ⟨rfl, rfl, _, rfl, rfl, rfl, ?_⟩
  rintro ⟨destructions, released, calls⟩
  cases released
  cases calls

end CppInterpreter.ManagedPayloads
