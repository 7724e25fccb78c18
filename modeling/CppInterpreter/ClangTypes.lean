import Mathlib.Init

/-!
# Types of values

A type is a tree of nodes with typedefs in it as sugar. `getTypePtr` gives the outermost
node with its sugar, which `dyn_cast` inspects; the predicates and `getAs` look at the
canonical type, without any sugar.

A value keeps the kind of its type. Builtin kinds are those that `Value.h` lists, void
has a kind of its own, and all other types share one. Among the latter, records, arrays
and member pointers live in a managed block.
-/

namespace CppInterpreter

/-- `clang::BuiltinType::Kind`, as far as C++ has types for them. -/
inductive BuiltinKind where
  | Void
  | Bool
  | Char_U
  | UChar
  | WChar_U
  | Char8
  | Char16
  | Char32
  | UShort
  | UInt
  | ULong
  | ULongLong
  | UInt128
  | Char_S
  | SChar
  | WChar_S
  | Short
  | Int
  | Long
  | LongLong
  | Int128
  | Half
  | Float
  | Double
  | LongDouble
  | Float128
  | NullPtr
deriving DecidableEq, Repr

/-- Declarations are told apart by numbers. -/
abbrev RecordDecl := Nat

/-- `clang::QualType`. An enumeration carries the integer type of its declaration. -/
inductive QualType where
  | builtin (kind : BuiltinKind)
  | enum (decl : Nat) (integerType : QualType)
  | record (decl : RecordDecl)
  | pointer (pointee : QualType)
  | reference (referee : QualType)
  | memberPointer (pointee : QualType)
  | function (result : QualType)
  | constantArray (element : QualType) (size : Nat)
  | typedef (decl : Nat) (underlying : QualType)
deriving DecidableEq, Repr

namespace QualType

/-- `getCanonicalType`: the type without sugar at any position. The integer type of an
enumeration belongs to its declaration and stays as it is. -/
def canonical : QualType → QualType
  | builtin kind => builtin kind
  | enum decl integerType => enum decl integerType
  | record decl => record decl
  | pointer pointee => pointer pointee.canonical
  | reference referee => reference referee.canonical
  | memberPointer pointee => memberPointer pointee.canonical
  | function result => function result.canonical
  | constantArray element size => constantArray element.canonical size
  | typedef _ underlying => underlying.canonical

/-- `getAs<BuiltinType>()`, as a kind. -/
def builtinKind? (qt : QualType) : Option BuiltinKind :=
  match qt.canonical with
  | builtin kind => some kind
  | _ => none

/-- `getAs<RecordType>()`, as a declaration. -/
def recordDecl? (qt : QualType) : Option RecordDecl :=
  match qt.canonical with
  | record decl => some decl
  | _ => none

def isVoidType (qt : QualType) : Bool := qt.builtinKind? = some .Void

def isReferenceType (qt : QualType) : Bool :=
  match qt.canonical with
  | reference _ => true
  | _ => false

def isPointerType (qt : QualType) : Bool :=
  match qt.canonical with
  | pointer _ => true
  | _ => false

def isFunctionType (qt : QualType) : Bool :=
  match qt.canonical with
  | function _ => true
  | _ => false

def isObjectType (qt : QualType) : Bool :=
  !qt.isReferenceType && !qt.isFunctionType && !qt.isVoidType

def isRecordType (qt : QualType) : Bool := qt.recordDecl?.isSome

def isConstantArrayType (qt : QualType) : Bool :=
  match qt.canonical with
  | constantArray _ _ => true
  | _ => false

def isMemberPointerType (qt : QualType) : Bool :=
  match qt.canonical with
  | memberPointer _ => true
  | _ => false

end QualType

/-- `Value::TypeKind`. -/
inductive TypeKind where
  | kInvalid
  | kBool
  | kChar_S
  | kSChar
  | kShort
  | kInt
  | kLong
  | kLongLong
  | kUChar
  | kUShort
  | kUInt
  | kULong
  | kULongLong
  | kFloat
  | kDouble
  | kLongDouble
  | kWChar_S
  | kChar16
  | kChar32
  | kVoid
  | kPtrOrObjTy
deriving DecidableEq, Repr

/-- The cases that `CPPINTERP_VALUE_BUILTIN_TYPES` generates, with the default that an
unsupported type falls into. -/
def listedKind : BuiltinKind → TypeKind
  | .Bool => .kBool
  | .Char_S => .kChar_S
  | .SChar => .kSChar
  | .Short => .kShort
  | .Int => .kInt
  | .Long => .kLong
  | .LongLong => .kLongLong
  | .UChar => .kUChar
  | .UShort => .kUShort
  | .UInt => .kUInt
  | .ULong => .kULong
  | .ULongLong => .kULongLong
  | .Float => .kFloat
  | .Double => .kDouble
  | .LongDouble => .kLongDouble
  | .WChar_S => .kWChar_S
  | .Char16 => .kChar16
  | .Char32 => .kChar32
  | _ => .kInvalid

/-- `getCorrespondingTypeKind`. Only an enumeration that no sugar hides is replaced by
its integer type. -/
def getCorrespondingTypeKind (qt : QualType) : TypeKind :=
  if qt.isVoidType then .kVoid
  else
    let qt :=
      match qt with
      | .enum _ integerType => integerType
      | _ => qt
    match qt.builtinKind? with
    | none | some .NullPtr => .kPtrOrObjTy
    | some kind => listedKind kind

/-- The test that the constructor of a value makes for a managed block. -/
def needsManagedAllocation (qt : QualType) : Bool :=
  getCorrespondingTypeKind qt = .kPtrOrObjTy &&
    ((qt.isPointerType || qt.isObjectType || qt.isReferenceType) &&
      (qt.isRecordType || qt.isConstantArrayType || qt.isMemberPointerType))

/-- `GetNumberOfElements`: the product of the array sizes in 64 bits, as deep as no sugar
hides an array. -/
def getNumberOfElements : QualType → UInt64
  | .constantArray element size => UInt64.ofNat size * getNumberOfElements element
  | _ => 1

end CppInterpreter
