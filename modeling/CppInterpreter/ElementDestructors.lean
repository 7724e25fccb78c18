import CppInterpreter.TypeSugar
import CppInterpreter.Values
import Mathlib.Algebra.Group.Nat.Defs

/-!
# Destructors of elements

The last release of a block calls its destructor function on the elements of the payload,
from the last one to the first. The distance of two elements is not stored. It is the
size of the block divided by the number of elements, and a block is never smaller than the
canary, nor larger than 32 bits tell.

The elements are hit when there is only one of them, or when the payload has less than
2^32 bytes and adding one byte to every element makes it larger than the canary. The
destructor function is looked for behind one array only, while the elements are counted
at any depth: arrays of arrays are never destroyed, and arrays of one dimension only where
their elements are hit.
-/

namespace CppInterpreter.ElementDestructors

open TypeSugar

/-- The elements of a size, as destructor calls from the last one to the first. -/
def backwards (dtorFunc : DtorFunc) (elements size : Nat) : List (DtorFunc × Nat) :=
  (List.range elements).reverse.map fun index => (dtorFunc, index * size)

/-- The function and the offset of each destructor call. -/
def callsOf (destructions : List Destruction) : List (DtorFunc × Nat) :=
  destructions.map fun destruction => (destruction.dtorFunc, destruction.offset.toNat)

/-- A release takes the block away, and calls the destructor function once for each
element of a size, from the last one to the first. -/
def DestroysEach (block : AllocatedValue) (dtorFunc : DtorFunc) (elements size : Nat) : Prop :=
  ∃ destructions, block.release = .ok (none, destructions) ∧
    callsOf destructions = backwards dtorFunc elements size

/-- A block at its last release, with an object that is alive. -/
structure Ending (block : AllocatedValue) (dtorFunc : DtorFunc) : Prop where
  last : block.refCnt = 1
  alive : block.isAlive = true
  dtorFunc : block.dtorFunc = some dtorFunc

section Strides

variable {dtorFunc : DtorFunc} {elements size other : Nat}

/-- Two sizes give the same elements when there is only one, or none, or they are equal. -/
theorem backwards_eq_iff : backwards dtorFunc elements size = backwards dtorFunc elements other ↔
    elements ≤ 1 ∨ size = other := by
  simp only [backwards, List.map_inj_left, List.mem_reverse, List.mem_range, Prod.mk.injEq, true_and]
  constructor
  · intro same
    by_cases few : elements ≤ 1
    · exact .inl few
    · have second := same 1 (by omega)
      exact .inr (by simpa using second)
  · rintro (few | rfl) index inside
    · have first : index = 0 := by omega
      simp [first]
    · rfl

/-- The number of elements can be read off the calls. -/
@[simp] theorem backwards_length : (backwards dtorFunc elements size).length = elements := by
  simp [backwards]

/-- The quotient of a payload that may be rounded up, or narrowed, is the element size when
neither makes a difference. -/
theorem stride_eq_iff (several : 2 ≤ elements) :
    max 8 (elements * size % 2 ^ 32) / elements = size ↔
      elements * size < 2 ^ 32 ∧ 8 < elements * (size + 1) := by
  have larger : elements * (size + 1) = elements * size + elements := Nat.mul_succ _ _
  have quotient (total : Nat) : total / elements = size ↔
      elements * size ≤ total ∧ total < elements * (size + 1) := by
    rw [Nat.div_eq_iff (by omega), Nat.mul_comm size]
    omega
  rw [quotient]
  by_cases fits : elements * size < 2 ^ 32
  · rw [Nat.mod_eq_of_lt fits]
    omega
  · have narrowed := Nat.mod_lt (elements * size) (show 0 < 2 ^ 32 by decide)
    omega

end Strides

section Releases

variable {block : AllocatedValue} {dtorFunc : DtorFunc} {elements size : Nat}

/-- The last release runs over the elements, unless there are none. -/
theorem release_ending (ending : Ending block dtorFunc) :
    block.release =
      if block.elemsNum = 0 then .error .noElements else .ok (none, block.destructions dtorFunc) := by
  simp [AllocatedValue.release, ending.last, ending.alive, ending.dtorFunc]

/-- The release of objects that are alive calls their destructor function for each. -/
theorem release_calls (ending : Ending block dtorFunc) (elements : block.elemsNum ≠ 0) :
    ∃ destructions, block.release = .ok (none, destructions) ∧
      destructions.map Destruction.dtorFunc = List.replicate block.elemsNum.toNat dtorFunc := by
  refine ⟨block.destructions dtorFunc, by rw [release_ending ending, if_neg elements], ?_⟩
  simp only [AllocatedValue.destructions, List.map_map, Function.comp_def, List.map_const',
    List.length_reverse, List.length_range]

/-- The elements lie at multiples of the quotient of the two numbers of a block. -/
theorem callsOf_destructions (block : AllocatedValue) (dtorFunc : DtorFunc) :
    callsOf (block.destructions dtorFunc) =
      backwards dtorFunc block.elemsNum.toNat (block.allocSize.toNat / block.elemsNum.toNat) := by
  simp only [callsOf, AllocatedValue.destructions, backwards, List.map_map, List.map_inj_left,
    List.mem_reverse, List.mem_range, Function.comp_apply, Prod.mk.injEq, true_and]
  intro index inside
  have bounded : index * (block.allocSize.toNat / block.elemsNum.toNat) ≤ block.allocSize.toNat :=
    calc
      _ ≤ block.elemsNum.toNat * (block.allocSize.toNat / block.elemsNum.toNat) :=
        Nat.mul_le_mul_right _ inside.le
      _ ≤ block.allocSize.toNat := Nat.mul_div_le _ _
  have small := block.allocSize.toNat_lt
  have fits := block.elemsNum.toNat_lt
  have whole : index % 2 ^ 64 = index := Nat.mod_eq_of_lt (by omega)
  rw [UInt64.toNat_mul, UInt64.toNat_ofNat', UInt64.toNat_div, whole, Nat.mod_eq_of_lt (by omega)]

/-- The last release hits the elements when their number fits, and the quotient is their
size or there is only one of them. -/
theorem destroysEach_iff (ending : Ending block dtorFunc) (counted : block.elemsNum = UInt64.ofNat elements)
    (positive : 1 ≤ elements) :
    DestroysEach block dtorFunc elements size ↔
      elements < 2 ^ 64 ∧ (elements = 1 ∨ block.allocSize.toNat / elements = size) := by
  have stored : block.elemsNum.toNat = elements % 2 ^ 64 := by
    rw [counted, UInt64.toNat_ofNat']
  have absent : block.elemsNum = 0 ↔ elements % 2 ^ 64 = 0 := by
    rw [← stored, ← UInt64.toNat_inj, UInt64.toNat_zero]
  have few : elements ≤ 1 ↔ elements = 1 := by omega
  simp only [DestroysEach, release_ending ending]
  constructor
  · rintro ⟨destructions, released, calls⟩
    split at released
    · cases released
    · cases released
      rw [callsOf_destructions] at calls
      have lengths := congrArg List.length calls
      rw [backwards_length, backwards_length, stored] at lengths
      rw [stored, lengths, backwards_eq_iff, few] at calls
      exact ⟨by omega, calls⟩
  · rintro ⟨fits, exact_⟩
    have whole := Nat.mod_eq_of_lt fits
    have some_ : block.elemsNum ≠ 0 := by
      rw [Ne, absent, whole]
      omega
    refine ⟨_, if_neg some_, ?_⟩
    rwa [callsOf_destructions, stored, whole, backwards_eq_iff, few]

end Releases

section OneDimension

variable {interp : Interpreter} {type : QualType} {dtorFunc : DtorFunc} {elements size : Nat}

/-- An object of a record type, or an array of so many of them, whatever sugar hides it. -/
def IsRecords (type : QualType) (elements : Nat) : Prop :=
  (∃ decl, type.canonical = .constantArray (.record decl) elements) ∨
    elements = 1 ∧ ∃ decl, type.canonical = .record decl

/-- An array with a destructor function is not hidden, so its elements are counted. -/
theorem elements_counted (records : IsRecords type elements)
    (present : (Value.managedBlock interp type).dtorFunc = some dtorFunc) :
    getNumberOfElements type = UInt64.ofNat elements := by
  rw [getNumberOfElements_eq]
  obtain ⟨decl, array⟩ | ⟨rfl, decl, object⟩ := records
  · cases type with
    | constantArray element length =>
      simp only [QualType.canonical, QualType.constantArray.injEq] at array
      obtain ⟨inner, rfl⟩ := array
      have bare : element.visibleSizes = [] := by
        cases element with
        | constantArray => cases inner
        | _ => rfl
      simp [QualType.visibleSizes, bare]
    | typedef decl underlying =>
      rw [dtorFunc_of_hidden rfl] at present
      simp [QualType.recordDecl?, array] at present
    | _ => cases array
  · cases type with
    | constantArray element length => cases object
    | _ => rfl

/-- The size of a block is that of its payload in 32 bits, at least that of the canary. -/
theorem allocSize_eq (interp : Interpreter) (type : QualType) :
    (Value.managedBlock interp type).allocSize.toNat =
      max 8 (interp.getTypeSizeInChars type % 2 ^ 32) := by
  have narrowed := UInt32.toNat_ofNat' (n := interp.getTypeSizeInChars type)
  simp only [Value.managedBlock, AllocatedValue.createPayload, UInt32.toNat_toUInt64, UInt32.lt_iff_toNat_lt]
  have eight : (8 : UInt32).toNat = 8 := rfl
  split
  · omega
  · omega

/-- The last release of a new block whose elements are counted hits them when their number
fits, and either there is only one of them or their sizes add up to that of the block. -/
theorem newBlock_destroysEach_iff {payload : Nat → Option UInt8}
    (present : (Value.managedBlock interp type).dtorFunc = some dtorFunc)
    (alive : { Value.managedBlock interp type with payload }.isAlive = true)
    (counted : getNumberOfElements type = UInt64.ofNat elements) (positive : 1 ≤ elements)
    (sized : interp.getTypeSizeInChars type = elements * size) :
    DestroysEach { Value.managedBlock interp type with payload } dtorFunc elements size ↔
      elements < 2 ^ 64 ∧ (elements = 1 ∨ elements * size < 2 ^ 32 ∧ 8 < elements * (size + 1)) := by
  have ending : Ending { Value.managedBlock interp type with payload } dtorFunc := ⟨rfl, alive, present⟩
  have total := allocSize_eq interp type
  rw [destroysEach_iff ending counted positive, total, sized]
  by_cases single : elements = 1
  · simp [single]
  · rw [stride_eq_iff (by omega)]

/-- The last release of a block with an object, or an array of objects, hits each of them
exactly when there is only one, or the payload has less than 2^32 bytes and adding one
byte to every element makes it larger than the canary. -/
theorem destroys_each_iff (interp : Interpreter) (type : QualType) (elements size : Nat)
    (records : IsRecords type elements) (positive : 1 ≤ elements) (solid : 1 ≤ size)
    (sized : interp.getTypeSizeInChars type = elements * size) (dtorFunc : DtorFunc)
    (present : (Value.managedBlock interp type).dtorFunc = some dtorFunc)
    (payload : Nat → Option UInt8)
    (alive : { Value.managedBlock interp type with payload }.isAlive = true) :
    DestroysEach { Value.managedBlock interp type with payload } dtorFunc elements size ↔
      elements = 1 ∨ elements * size < 2 ^ 32 ∧ 8 < elements * (size + 1) := by
  have counted := elements_counted records present
  have many : elements ≤ elements * size := Nat.le_mul_of_pos_right _ solid
  rw [newBlock_destroysEach_iff present alive counted positive sized]
  omega

end OneDimension

/-- The size of a type where every record has the same one. -/
def layout (size : Nat) : QualType → Nat
  | .constantArray element length => length * layout size element
  | _ => size

/-- An interpreter for records of one size, each with a destructor. -/
def recordsOf (size : Nat) : Interpreter := ⟨layout size, some⟩

/-- A payload whose bytes are all zero. -/
def zeros : Nat → Option UInt8 := fun _ => some 0

/-- Zeros are not the canary. -/
theorem zeros_alive (block : AllocatedValue) : { block with payload := zeros }.isAlive = true := rfl

/-- The equivalence for three records of four bytes. -/
theorem destroys_three_words :
    DestroysEach
        { Value.managedBlock (recordsOf 4) (.constantArray (.record 0) 3) with payload := zeros } 0 3 4 ↔
      3 = 1 ∨ 3 * 4 < 2 ^ 32 ∧ 8 < 3 * (4 + 1) :=
  destroys_each_iff (recordsOf 4) (.constantArray (.record 0) 3) 3 4 (.inl ⟨0, rfl⟩) (by decide)
    (by decide) rfl 0 rfl zeros (by decide)

/-- The second of two records of one byte is looked for at the fifth byte. -/
theorem bytes_missed :
    IsRecords (.constantArray (.record 0) 2) 2 ∧
      (recordsOf 1).getTypeSizeInChars (.constantArray (.record 0) 2) = 2 * 1 ∧
      (Value.managedBlock (recordsOf 1) (.constantArray (.record 0) 2)).dtorFunc = some 0 ∧
      { Value.managedBlock (recordsOf 1) (.constantArray (.record 0) 2) with
        payload := zeros }.isAlive = true ∧
      { Value.managedBlock (recordsOf 1) (.constantArray (.record 0) 2) with
        payload := zeros }.release = .ok (none, [⟨0, 4⟩, ⟨0, 0⟩]) ∧
      ¬ DestroysEach
        { Value.managedBlock (recordsOf 1) (.constantArray (.record 0) 2) with
          payload := zeros } 0 2 1 := by
  have released : { Value.managedBlock (recordsOf 1) (.constantArray (.record 0) 2) with
      payload := zeros }.release = .ok (none, [⟨0, 4⟩, ⟨0, 0⟩]) := rfl
  refine ⟨.inl ⟨0, rfl⟩, rfl, rfl, by decide, released, ?_⟩
  rintro ⟨destructions, again, calls⟩
  cases released.symm.trans again
  revert calls
  decide

section Depth

variable {interp : Interpreter} {decl : RecordDecl} {extents : List Nat} {wrapper : DtorFunc}

/-- The canonical type of an array of records with its extents from the outside to the
inside. -/
def arrayOf (decl : RecordDecl) (extents : List Nat) : QualType :=
  extents.foldr (fun length element => .constantArray element length) (.record decl)

/-- The visible sizes of the type of an array are its extents. -/
theorem visibleSizes_arrayOf (decl : RecordDecl) (extents : List Nat) :
    (arrayOf decl extents).visibleSizes = extents := by
  induction extents with
  | nil => rfl
  | cons length extents inductionHypothesis =>
    rw [arrayOf, List.foldr_cons, QualType.visibleSizes, ← arrayOf, inductionHypothesis]

/-- An array has no record of its own. -/
theorem recordDecl_arrayOf (decl : RecordDecl) (length : Nat) (extents : List Nat) :
    (arrayOf decl (length :: extents)).recordDecl? = none := rfl

/-- The elements are counted at every depth. -/
theorem elements_arrayOf (decl : RecordDecl) (extents : List Nat) :
    getNumberOfElements (arrayOf decl extents) = UInt64.ofNat extents.prod := by
  rw [getNumberOfElements_eq, visibleSizes_arrayOf]

/-- An array is as large as its elements together. -/
theorem size_arrayOf (arrays : ∀ element length,
      interp.getTypeSizeInChars (.constantArray element length) =
        length * interp.getTypeSizeInChars element) (decl : RecordDecl) (extents : List Nat) :
    interp.getTypeSizeInChars (arrayOf decl extents) =
      extents.prod * interp.getTypeSizeInChars (.record decl) := by
  induction extents with
  | nil => simp [arrayOf]
  | cons length extents inductionHypothesis =>
    have outermost : arrayOf decl (length :: extents) = .constantArray (arrayOf decl extents) length :=
      rfl
    rw [outermost, arrays, inductionHypothesis, List.prod_cons, Nat.mul_assoc]

/-- Only an array of records itself finds the destructor function. -/
theorem dtorFunc_arrayOf (compiled : interp.compileDtorCallFor decl = some wrapper)
    (nested : extents ≠ []) :
    (Value.managedBlock interp (arrayOf decl extents)).dtorFunc = some wrapper ↔
      extents.length = 1 := by
  cases extents with
  | nil => exact absurd rfl nested
  | cons length inner =>
    have looked : (Value.managedBlock interp (arrayOf decl (length :: inner))).dtorFunc =
        (arrayOf decl inner).recordDecl?.bind interp.compileDtorCallFor := rfl
    rw [looked]
    cases inner with
    | nil => simpa [arrayOf, QualType.recordDecl?, QualType.canonical] using compiled
    | cons second inner => simp [recordDecl_arrayOf]

/-- A block has the destructor function and the number of its elements, and releasing it with
objects that are alive destroys each of them. -/
def Registers (block : AllocatedValue) (wrapper : DtorFunc) (elements size : Nat) : Prop :=
  block.dtorFunc = some wrapper ∧ block.elemsNum.toNat = elements ∧
    ∀ payload, { block with payload }.isAlive = true →
      DestroysEach { block with payload } wrapper elements size

/-- The block of an array of records has their destructor function and their number, and
destroys each of them, exactly when the array has one dimension, and either one element or
less than 2^32 bytes that one more byte for every element makes larger than the canary. -/
theorem registers_iff (interp : Interpreter) (arrays : ∀ element length,
      interp.getTypeSizeInChars (.constantArray element length) =
        length * interp.getTypeSizeInChars element)
    (decl : RecordDecl) (wrapper : DtorFunc) (compiled : interp.compileDtorCallFor decl = some wrapper)
    (extents : List Nat) (nested : extents ≠ []) (positive : ∀ length ∈ extents, 1 ≤ length)
    (fits : extents.prod < 2 ^ 64) :
    Registers (Value.managedBlock interp (arrayOf decl extents)) wrapper extents.prod
        (interp.getTypeSizeInChars (.record decl)) ↔
      extents.length = 1 ∧ (extents.prod = 1 ∨
        extents.prod * interp.getTypeSizeInChars (.record decl) < 2 ^ 32 ∧
          8 < extents.prod * (interp.getTypeSizeInChars (.record decl) + 1)) := by
  have counted := elements_arrayOf decl extents
  have sized := size_arrayOf arrays decl extents
  have several : 1 ≤ extents.prod := List.prod_pos_iff_forall_pos_nat.mpr positive
  rw [Registers, dtorFunc_arrayOf compiled nested]
  refine and_congr_right fun flat => ?_
  have present := (dtorFunc_arrayOf compiled nested).mpr flat
  have stored : (Value.managedBlock interp (arrayOf decl extents)).elemsNum.toNat = extents.prod := by
    have recorded : (Value.managedBlock interp (arrayOf decl extents)).elemsNum =
        getNumberOfElements (arrayOf decl extents) := rfl
    rw [recorded, counted, UInt64.toNat_ofNat', Nat.mod_eq_of_lt fits]
  constructor
  · rintro ⟨_, destroys⟩
    have alive := zeros_alive (Value.managedBlock interp (arrayOf decl extents))
    exact ((newBlock_destroysEach_iff present alive counted several sized).mp (destroys _ alive)).2
  · intro exact_
    refine ⟨stored, ?_⟩
    intro payload alive
    exact (newBlock_destroysEach_iff present alive counted several sized).mpr ⟨fits, exact_⟩

end Depth

/-- The equivalence for an array of three records. -/
theorem registers_flat :
    Registers (Value.managedBlock (recordsOf 4) (arrayOf 0 [3])) 0 [3].prod
        ((recordsOf 4).getTypeSizeInChars (.record 0)) ↔
      [3].length = 1 ∧ ([3].prod = 1 ∨
        [3].prod * (recordsOf 4).getTypeSizeInChars (.record 0) < 2 ^ 32 ∧
          8 < [3].prod * ((recordsOf 4).getTypeSizeInChars (.record 0) + 1)) :=
  registers_iff (recordsOf 4) (fun _ _ => rfl) 0 0 rfl [3] (by decide) (by decide) (by decide)

/-- The block of two arrays of three records has six elements and no destructor function. -/
theorem nested_forgotten :
    (recordsOf 4).compileDtorCallFor 0 = some 0 ∧
      (Value.managedBlock (recordsOf 4) (arrayOf 0 [2, 3])).elemsNum = 6 ∧
      (Value.managedBlock (recordsOf 4) (arrayOf 0 [2, 3])).dtorFunc = none ∧
      ¬ Registers (Value.managedBlock (recordsOf 4) (arrayOf 0 [2, 3])) 0 [2, 3].prod
        ((recordsOf 4).getTypeSizeInChars (.record 0)) := by
  refine ⟨rfl, rfl, rfl, ?_⟩
  rintro ⟨present, _⟩
  cases present

end CppInterpreter.ElementDestructors
