import CppInterpreter.Values
import Mathlib.Data.Nat.ModEq

/-!
# What type sugar does to a value

The construction of a value asks some questions about its type that look through
typedefs, and others that stop at the first one. The former depend on the canonical type
alone. The latter are about the outermost nodes: whether the type is an enumeration, or
an array and of which sizes, as far as no typedef hides it.

Two types with one canonical type give the same value exactly when their outermost
nodes agree in what matters for that canonical type.
-/

namespace CppInterpreter

namespace QualType

/-- An enumeration that no typedef hides. -/
def isBareEnum : QualType → Bool
  | enum _ _ => true
  | _ => false

/-- A constant array that no typedef hides. -/
def isBareArray : QualType → Bool
  | constantArray _ _ => true
  | _ => false

/-- The sizes of an array from the outside to the inside, up to the first typedef. -/
def visibleSizes : QualType → List Nat
  | constantArray element size => size :: visibleSizes element
  | _ => []

/-- A type that getAs<BuiltinType> finds to be a builtin one other than the null pointer. -/
def isArithmetic (qt : QualType) : Bool :=
  match qt.builtinKind? with
  | none | some .NullPtr => false
  | some _ => true

end QualType

namespace TypeSugar

open QualType

/-- What the construction of a value decides: its kind, whether it is managed, and for a
managed value whether its block has a destructor function and how many elements. -/
structure Constructed where
  typeKind : TypeKind
  needsManagedAlloc : Bool
  hasDtorFunc : Option Bool
  elemsNum : Option UInt64
deriving DecidableEq, Repr

/-- The decisions of `Value(type, interp)`. -/
def constructed (interp : Interpreter) (type : QualType) (address : PayloadAddress)
    (memory : Memory) : Constructed :=
  let (memory, value) := Value.construct interp type address memory
  let block := value.block.bind memory.blocks
  ⟨value.typeKind, value.needsManagedAlloc, block.map fun block => block.dtorFunc.isSome,
    block.map fun block => block.elemsNum⟩

/-- The outermost nodes of two types agree, as far as their canonical type makes it
matter: whether an enumeration is bare, whether an array of records with a destructor
function is bare, and the product of the visible sizes in 64 bits. -/
structure SugarAgrees (interp : Interpreter) (first second : QualType) : Prop where
  enums : ∀ decl integerType, first.canonical = .enum decl integerType →
    integerType.isArithmetic = true → first.isBareEnum = second.isBareEnum
  arrays : ∀ decl size, first.canonical = .constantArray (.record decl) size →
    (interp.compileDtorCallFor decl).isSome = true → first.isBareArray = second.isBareArray
  sizes : first.visibleSizes.prod ≡ second.visibleSizes.prod [MOD 2 ^ 64]

section Canonical

variable {type first second : QualType}

/-- The kind of a type that is no bare enumeration depends on the canonical type. -/
theorem kind_of_hidden (hidden : type.isBareEnum = false) :
    getCorrespondingTypeKind type =
      if type.isVoidType then .kVoid
      else
        match type.builtinKind? with
        | none | some .NullPtr => .kPtrOrObjTy
        | some kind => listedKind kind := by
  cases type with
  | enum decl integerType => cases hidden
  | _ => rfl

/-- A bare enumeration has the kind of its integer type. -/
theorem kind_of_enum (decl : Nat) (integerType : QualType) :
    getCorrespondingTypeKind (.enum decl integerType) = .kPtrOrObjTy ↔
      integerType.isArithmetic = false := by
  have enumeration : (QualType.enum decl integerType).isVoidType = false := rfl
  simp only [getCorrespondingTypeKind, enumeration, Bool.false_eq_true, ↓reduceIte, isArithmetic]
  cases integerType.builtinKind? with
  | none => simp
  | some kind => cases kind <;> simp [listedKind]

/-- A bare enumeration is canonical. -/
theorem canonical_of_bareEnum (bare : type.isBareEnum = true) : type.canonical = type := by
  cases type with
  | enum decl integerType => rfl
  | _ => cases bare

/-- The builtin kind is that of the canonical type. -/
theorem builtinKind_congr (same : first.canonical = second.canonical) :
    first.builtinKind? = second.builtinKind? := by
  simp only [builtinKind?, same]

/-- A hidden enumeration counts as an object. -/
theorem kind_of_hidden_enum (hidden : type.isBareEnum = false) {decl : Nat} {integerType : QualType}
    (enumeration : type.canonical = .enum decl integerType) :
    getCorrespondingTypeKind type = .kPtrOrObjTy := by
  simp [kind_of_hidden hidden, isVoidType, builtinKind?, enumeration]

/-- A bare and a hidden form of an enumeration have the same kind only where the integer
type is not arithmetic. -/
theorem kind_bare_hidden (same : first.canonical = second.canonical)
    (bare : first.isBareEnum = true) (hidden : second.isBareEnum = false) :
    getCorrespondingTypeKind first = getCorrespondingTypeKind second ↔
      ∀ decl integerType, first.canonical = .enum decl integerType →
        integerType.isArithmetic = false := by
  cases first with
  | enum decl integerType =>
    rw [kind_of_hidden_enum hidden same.symm, kind_of_enum]
    constructor
    · rintro object _ _ ⟨⟩
      exact object
    · intro object
      exact object decl integerType rfl
  | _ => cases bare

/-- Types with one canonical type have the same kind, unless it is an enumeration that a
typedef hides in one of them only. -/
theorem kind_eq_iff (same : first.canonical = second.canonical) :
    getCorrespondingTypeKind first = getCorrespondingTypeKind second ↔
      ∀ decl integerType, first.canonical = .enum decl integerType →
        integerType.isArithmetic = true → first.isBareEnum = second.isBareEnum := by
  cases bareFirst : first.isBareEnum with
  | true =>
    cases bareSecond : second.isBareEnum with
    | true =>
      have equal : first = second := by
        rw [← canonical_of_bareEnum bareFirst, same, canonical_of_bareEnum bareSecond]
      exact iff_of_true (by rw [equal]) fun _ _ _ _ => rfl
    | false => simp [kind_bare_hidden same bareFirst bareSecond]
  | false =>
    cases bareSecond : second.isBareEnum with
    | true =>
      rw [eq_comm, kind_bare_hidden same.symm bareSecond bareFirst]
      simp [same]
    | false =>
      refine iff_of_true ?_ fun _ _ _ _ => rfl
      rw [kind_of_hidden bareFirst, kind_of_hidden bareSecond, isVoidType, isVoidType,
        builtinKind_congr same]

/-- A type that is neither an enumeration nor a builtin type counts as an object. -/
theorem kind_of_object (compound : type.builtinKind? = none)
    (plain : ∀ decl integerType, type.canonical ≠ .enum decl integerType) :
    getCorrespondingTypeKind type = .kPtrOrObjTy := by
  have hidden : type.isBareEnum = false := by
    cases type with
    | enum decl integerType => exact absurd rfl (plain decl integerType)
    | _ => rfl
  simp [kind_of_hidden hidden, isVoidType, compound]

/-- A type that is neither builtin nor an enumeration, a reference or a function is managed
when it is a record, an array or a member pointer. -/
theorem managed_of_object (compound : type.builtinKind? = none)
    (plain : ∀ decl integerType, type.canonical ≠ .enum decl integerType)
    (object : type.isReferenceType = false ∧ type.isFunctionType = false) :
    needsManagedAllocation type =
      (type.isRecordType || type.isConstantArrayType || type.isMemberPointerType) := by
  have isObject : type.isObjectType = true := by
    simp [isObjectType, object, isVoidType, compound]
  simp [needsManagedAllocation, kind_of_object compound plain, isObject]

/-- Records, arrays and member pointers are managed, with any sugar. -/
theorem managed_eq (type : QualType) : needsManagedAllocation type =
    match type.canonical with
    | .record _ | .constantArray _ _ | .memberPointer _ => true
    | _ => false := by
  cases canonical : type.canonical with
  | record decl =>
    rw [managed_of_object (by simp [builtinKind?, canonical]) (by simp [canonical])
      (by simp [isReferenceType, isFunctionType, canonical])]
    simp [isRecordType, recordDecl?, canonical]
  | constantArray element size =>
    rw [managed_of_object (by simp [builtinKind?, canonical]) (by simp [canonical])
      (by simp [isReferenceType, isFunctionType, canonical])]
    simp [isConstantArrayType, canonical]
  | memberPointer pointee =>
    rw [managed_of_object (by simp [builtinKind?, canonical]) (by simp [canonical])
      (by simp [isReferenceType, isFunctionType, canonical])]
    simp [isMemberPointerType, canonical]
  | _ =>
    simp [needsManagedAllocation, isRecordType, recordDecl?, isConstantArrayType, isMemberPointerType,
      canonical]

/-- The number of elements is the product of the visible sizes. -/
theorem getNumberOfElements_eq (type : QualType) :
    getNumberOfElements type = UInt64.ofNat type.visibleSizes.prod := by
  induction type with
  | constantArray element size inductionHypothesis =>
    rw [getNumberOfElements, inductionHypothesis, visibleSizes, List.prod_cons, UInt64.ofNat_mul]
  | _ => rfl

/-- Numbers of elements are equal when the products are, in 64 bits. -/
theorem elements_eq_iff : getNumberOfElements first = getNumberOfElements second ↔
    first.visibleSizes.prod ≡ second.visibleSizes.prod [MOD 2 ^ 64] := by
  rw [getNumberOfElements_eq, getNumberOfElements_eq, ← UInt64.toNat_inj, UInt64.toNat_ofNat',
    UInt64.toNat_ofNat']
  rfl

/-- The record is that of the canonical type. -/
theorem recordDecl_congr (same : first.canonical = second.canonical) :
    first.recordDecl? = second.recordDecl? := by
  simp only [recordDecl?, same]

end Canonical

section Destructors

variable {interp : Interpreter} {first second : QualType}

/-- A hidden array has no record, so its block has no destructor function. -/
theorem dtorFunc_of_hidden (hidden : first.isBareArray = false) :
    (Value.managedBlock interp first).dtorFunc = first.recordDecl?.bind interp.compileDtorCallFor := by
  cases first with
  | constantArray element size => cases hidden
  | _ => rfl

/-- A bare and a hidden form of an array agree in the presence of a destructor function
only where the elements have none. -/
theorem dtorFunc_bare_hidden (same : first.canonical = second.canonical)
    (bare : first.isBareArray = true) (hidden : second.isBareArray = false) :
    (Value.managedBlock interp first).dtorFunc.isSome =
        (Value.managedBlock interp second).dtorFunc.isSome ↔
      ∀ decl size, first.canonical = .constantArray (.record decl) size →
        (interp.compileDtorCallFor decl).isSome = false := by
  cases first with
  | constantArray element size =>
    have absent : second.recordDecl? = none := by
      simp [recordDecl?, ← same, canonical]
    have looked : (Value.managedBlock interp (.constantArray element size)).dtorFunc =
        element.recordDecl?.bind interp.compileDtorCallFor := rfl
    rw [dtorFunc_of_hidden hidden, absent, looked, recordDecl?]
    cases inner : element.canonical <;> simp [canonical, inner]
  | _ => cases bare

/-- Blocks of types with one canonical type agree in the presence of a destructor
function, unless it is an array of records with one that a typedef hides in one of them
only. -/
theorem dtorFunc_eq_iff (same : first.canonical = second.canonical) :
    (Value.managedBlock interp first).dtorFunc.isSome =
        (Value.managedBlock interp second).dtorFunc.isSome ↔
      ∀ decl size, first.canonical = .constantArray (.record decl) size →
        (interp.compileDtorCallFor decl).isSome = true → first.isBareArray = second.isBareArray := by
  cases bareFirst : first.isBareArray with
  | true =>
    cases bareSecond : second.isBareArray with
    | true =>
      refine iff_of_true ?_ fun _ _ _ _ => rfl
      cases first with
      | constantArray element size =>
        cases second with
        | constantArray other size' =>
          have inner : element.recordDecl? = other.recordDecl? := by
            simp only [canonical, QualType.constantArray.injEq] at same
            exact recordDecl_congr same.1
          change (element.recordDecl?.bind interp.compileDtorCallFor).isSome =
            (other.recordDecl?.bind interp.compileDtorCallFor).isSome
          rw [inner]
        | _ => cases bareSecond
      | _ => cases bareFirst
    | false => simp [dtorFunc_bare_hidden same bareFirst bareSecond]
  | false =>
    cases bareSecond : second.isBareArray with
    | true =>
      rw [eq_comm, dtorFunc_bare_hidden same.symm bareSecond bareFirst]
      simp [same]
    | false =>
      refine iff_of_true ?_ fun _ _ _ _ => rfl
      rw [dtorFunc_of_hidden bareFirst, dtorFunc_of_hidden bareSecond, recordDecl_congr same]

end Destructors

section Construction

variable {interp : Interpreter} {type first second : QualType} {address : PayloadAddress}
  {memory : Memory}

/-- An unmanaged value has no block. -/
theorem constructed_unmanaged (unmanaged : needsManagedAllocation type = false) :
    constructed interp type address memory =
      ⟨getCorrespondingTypeKind type, false, none, none⟩ := by
  simp [constructed, Value.construct, unmanaged, Value.block]

/-- A managed value has the block that it allocates. -/
theorem constructed_managed (managed : needsManagedAllocation type = true) :
    constructed interp type address memory =
      ⟨getCorrespondingTypeKind type, true, some (Value.managedBlock interp type).dtorFunc.isSome,
        some (getNumberOfElements type)⟩ := by
  simp [constructed, Value.construct, managed, Value.block, Storage.ptr?, Memory.allocate,
    Value.managedBlock, AllocatedValue.createPayload]

/-- Only arrays have visible sizes. -/
theorem visibleSizes_unmanaged (unmanaged : needsManagedAllocation type = false) :
    type.visibleSizes = [] := by
  rw [managed_eq] at unmanaged
  cases type with
  | constantArray element size => simp [canonical] at unmanaged
  | _ => rfl

/-- Values of two types with one canonical type are constructed alike exactly when the
outermost nodes of the types agree in what matters. -/
theorem constructed_eq_iff (interp : Interpreter) (first second : QualType)
    (same : first.canonical = second.canonical) (address : PayloadAddress) (memory : Memory) :
    constructed interp first address memory = constructed interp second address memory ↔
      SugarAgrees interp first second := by
  have agrees : SugarAgrees interp first second ↔
      getCorrespondingTypeKind first = getCorrespondingTypeKind second ∧
        (Value.managedBlock interp first).dtorFunc.isSome =
          (Value.managedBlock interp second).dtorFunc.isSome ∧
        getNumberOfElements first = getNumberOfElements second := by
    rw [kind_eq_iff same, dtorFunc_eq_iff same, elements_eq_iff]
    exact ⟨fun sugar => ⟨sugar.enums, sugar.arrays, sugar.sizes⟩,
      fun parts => ⟨parts.1, parts.2.1, parts.2.2⟩⟩
  have managed : needsManagedAllocation first = needsManagedAllocation second := by
    rw [managed_eq, managed_eq, same]
  rw [agrees]
  cases flag : needsManagedAllocation second with
  | true => simp [constructed_managed flag, constructed_managed (managed.trans flag)]
  | false =>
    have sizes : getNumberOfElements first = getNumberOfElements second := by
      rw [getNumberOfElements_eq, getNumberOfElements_eq, visibleSizes_unmanaged flag,
        visibleSizes_unmanaged (managed.trans flag)]
    have functions : (Value.managedBlock interp first).dtorFunc.isSome =
        (Value.managedBlock interp second).dtorFunc.isSome := by
      rw [dtorFunc_eq_iff same]
      intro decl size array
      rw [managed_eq, ← same, array] at flag
      cases flag
    simp [constructed_unmanaged flag, constructed_unmanaged (managed.trans flag), sizes, functions]

end Construction

/-- An interpreter that compiles a destructor function for every record. -/
def destroying : Interpreter := ⟨fun _ => 8, some⟩

/-- The equivalence for int and a typedef of it. -/
theorem typedef_int_alike :
    constructed destroying (.builtin .Int) 0 Program.start.memory =
        constructed destroying (.typedef 0 (.builtin .Int)) 0 Program.start.memory ↔
      SugarAgrees destroying (.builtin .Int) (.typedef 0 (.builtin .Int)) :=
  constructed_eq_iff destroying (.builtin .Int) (.typedef 0 (.builtin .Int)) rfl 0
    Program.start.memory

/-- An array of three records, and a typedef of it: the typedef hides the destructor
function and the number of elements. -/
theorem typedef_array_differs :
    (QualType.typedef 0 (.constantArray (.record 0) 3)).canonical =
        (QualType.constantArray (.record 0) 3).canonical ∧
      constructed destroying (.constantArray (.record 0) 3) 0 Program.start.memory ≠
        constructed destroying (.typedef 0 (.constantArray (.record 0) 3)) 0
          Program.start.memory := by
  refine ⟨rfl, ?_⟩
  rw [constructed_managed rfl, constructed_managed rfl]
  decide

end TypeSugar

end CppInterpreter
