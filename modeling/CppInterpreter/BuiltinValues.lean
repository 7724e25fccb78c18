import CppInterpreter.IntegerFormats
import CppInterpreter.Values

/-!
# Values of integral types

`Value::Create` writes the member of the union that belongs to a C++ type, and gives the
value the builtin type that the AST context has for it. `castAs` reads the member that
belongs to the kind of the value and converts what it finds. The context has one type
for plain char and one for wchar_t, whose kinds depend on the signedness on the target,
while the list of builtin types names the signed kinds only.

Reading a member that was not written yields no number. The floating members are left
out, and assertions are compiled out.
-/

namespace CppInterpreter

open IntegerFormats

/-- The integral types of `CPPINTERP_VALUE_BUILTIN_TYPES`. -/
inductive IntegralType where
  | bool
  | char
  | signedChar
  | short
  | int
  | long
  | longLong
  | unsignedChar
  | unsignedShort
  | unsignedInt
  | unsignedLong
  | unsignedLongLong
  | wchar
  | char16
  | char32
deriving DecidableEq, Repr

/-- The signedness and the widths that the target chooses. -/
structure Target where
  charSigned : Bool
  wcharSigned : Bool
  width : IntegralType → Nat

namespace BuiltinValues

/-- The name that the list gives to a type. -/
def name : IntegralType → BuiltinKind
  | .bool => .Bool
  | .char => .Char_S
  | .signedChar => .SChar
  | .short => .Short
  | .int => .Int
  | .long => .Long
  | .longLong => .LongLong
  | .unsignedChar => .UChar
  | .unsignedShort => .UShort
  | .unsignedInt => .UInt
  | .unsignedLong => .ULong
  | .unsignedLongLong => .ULongLong
  | .wchar => .WChar_S
  | .char16 => .Char16
  | .char32 => .Char32

/-- The integral member that `getAs` reads for a kind. -/
def memberOf : TypeKind → Option IntegralType
  | .kBool => some .bool
  | .kChar_S => some .char
  | .kSChar => some .signedChar
  | .kShort => some .short
  | .kInt => some .int
  | .kLong => some .long
  | .kLongLong => some .longLong
  | .kUChar => some .unsignedChar
  | .kUShort => some .unsignedShort
  | .kUInt => some .unsignedInt
  | .kULong => some .unsignedLong
  | .kULongLong => some .unsignedLongLong
  | .kWChar_S => some .wchar
  | .kChar16 => some .char16
  | .kChar32 => some .char32
  | .kInvalid | .kFloat | .kDouble | .kLongDouble | .kVoid | .kPtrOrObjTy => none

/-- The representation of a type on the target. -/
def format (target : Target) (type : IntegralType) : Format :=
  match type with
  | .bool => .truth
  | .char => if target.charSigned then .signed (target.width .char) else .unsigned (target.width .char)
  | .wchar =>
    if target.wcharSigned then .signed (target.width .wchar) else .unsigned (target.width .wchar)
  | .signedChar | .short | .int | .long | .longLong => .signed (target.width type)
  | .unsignedChar | .unsignedShort | .unsignedInt | .unsignedLong | .unsignedLongLong | .char16
  | .char32 => .unsigned (target.width type)

/-- `getCorrespondingBuiltin`. Both kinds of plain char have the type `CharTy`, and both
kinds of wchar_t the type `WCharTy`; each has the kind of the target. -/
def getCorrespondingBuiltin (target : Target) : BuiltinKind → QualType
  | .Char_U | .Char_S => .builtin (if target.charSigned then .Char_S else .Char_U)
  | .WChar_U | .WChar_S => .builtin (if target.wcharSigned then .WChar_S else .WChar_U)
  | kind => .builtin kind

/-- The member of the union that was written. -/
structure Written (target : Target) where
  type : IntegralType
  content : Number (format target type)

/-- A value, and the integral member that its union holds. -/
structure BuiltinValue (target : Target) where
  value : Value
  member : Option (Written target)

/-- `Value::Create`, with the allocator's next address. -/
def create (target : Target) (interp : Interpreter) (address : PayloadAddress) (memory : Memory)
    (type : IntegralType) (val : Number (format target type)) : Memory × BuiltinValue target :=
  let (memory, res) :=
    Value.construct interp (getCorrespondingBuiltin target (name type)) address memory
  (memory, ⟨res, some ⟨type, val⟩⟩)

variable {target : Target}

/-- `isValid`. -/
def isValid (value : BuiltinValue target) : Bool := value.value.typeKind ≠ .kInvalid

/-- Read a member of the union. -/
def readMember (value : BuiltinValue target) (type : IntegralType) :
    Option (Number (format target type)) :=
  match value.member with
  | none => none
  | some written => if same : written.type = type then some (same ▸ written.content) else none

/-- `getAs`. -/
def getAs (value : BuiltinValue target) (type : IntegralType) : Option (Number (format target type)) :=
  match value.value.typeKind with
  | .kFloat | .kDouble | .kLongDouble => none
  | kind =>
    match memberOf kind with
    | some member => (readMember value member).map (Number.convert (format target type))
    | none => some (.ofInt (format target type) 0)

/-- `castAs`. -/
def castAs (value : BuiltinValue target) (type : IntegralType) :
    Option (Number (format target type)) :=
  if value.value.typeKind = .kPtrOrObjTy then
    value.value.storage.ptr?.map fun payload => .ofInt (format target type) payload
  else if value.value.typeKind = .kInvalid ∨ value.value.typeKind = .kVoid then
    some (.ofInt (format target type) 0)
  else getAs value type

/-- The kind that the target has for a type is the one that the list names. -/
def Listed (target : Target) (type : IntegralType) : Prop :=
  (type = .char → target.charSigned = true) ∧ (type = .wchar → target.wcharSigned = true)

section Creation

variable {interp : Interpreter} {address : PayloadAddress} {memory : Memory} {type : IntegralType}
  {val : Number (format target type)}

/-- The kind of a created value is the one of its builtin type. -/
theorem create_typeKind : (create target interp address memory type val).2.value.typeKind =
    getCorrespondingTypeKind (getCorrespondingBuiltin target (name type)) := by
  have constructed (qt : QualType) : (Value.construct interp qt address memory).2.typeKind =
      getCorrespondingTypeKind qt := by
    unfold Value.construct
    split <;> rfl
  exact constructed _

/-- A type whose kind is listed gets this kind. -/
theorem typeKind_listed (listed : Listed target type) :
    getCorrespondingTypeKind (getCorrespondingBuiltin target (name type)) = listedKind (name type) := by
  cases type with
  | char =>
    rw [name, getCorrespondingBuiltin, if_pos (listed.1 rfl)]
    rfl
  | wchar =>
    rw [name, getCorrespondingBuiltin, if_pos (listed.2 rfl)]
    rfl
  | _ => rfl

/-- A type whose kind is not listed gets an invalid value. -/
theorem typeKind_unlisted (unlisted : ¬ Listed target type) :
    getCorrespondingTypeKind (getCorrespondingBuiltin target (name type)) = .kInvalid := by
  cases type with
  | char =>
    have unsigned : ¬ target.charSigned = true := fun signed => unlisted ⟨fun _ => signed, nofun⟩
    rw [name, getCorrespondingBuiltin, if_neg unsigned]
    rfl
  | wchar =>
    have unsigned : ¬ target.wcharSigned = true := fun signed => unlisted ⟨nofun, fun _ => signed⟩
    rw [name, getCorrespondingBuiltin, if_neg unsigned]
    rfl
  | _ => exact absurd ⟨nofun, nofun⟩ unlisted

/-- A value of a listed kind is read from the member of its type. -/
theorem castAs_listed {value : BuiltinValue target} (kind : value.value.typeKind = listedKind (name type))
    (other : IntegralType) : castAs value other =
      (readMember value type).map (Number.convert (format target other)) := by
  cases type <;> simp [castAs, getAs, kind, name, listedKind, memberOf]

/-- A created value holds the member of its type. -/
theorem readMember_create : readMember (create target interp address memory type val).2 type =
    some val := by
  simp [readMember, create]

/-- A listed kind is a valid one. -/
theorem listedKind_valid (type : IntegralType) : listedKind (name type) ≠ .kInvalid := by
  cases type <;> decide

end Creation

/-- A value that is created from a number is valid, and a cast to any integral type converts
the number to this type, so that a cast to its own type returns it. -/
def Agrees (value : BuiltinValue target) (type : IntegralType) (val : Number (format target type)) :
    Prop :=
  isValid value = true ∧
    (∀ other, castAs value other = some (val.convert (format target other))) ∧
    castAs value type = some val

/-- `Create` and `castAs` agree on a type exactly when the target has the kind for it that the
list names: plain char must be signed for a char, and wchar_t for a wchar_t. -/
theorem create_castAs_iff (target : Target) (interp : Interpreter) (address : PayloadAddress)
    (memory : Memory) (type : IntegralType) (val : Number (format target type)) :
    Agrees (create target interp address memory type val).2 type val ↔ Listed target type := by
  constructor
  · rintro ⟨valid, _⟩
    by_contra unlisted
    rw [isValid, create_typeKind, typeKind_unlisted unlisted] at valid
    exact absurd valid (by decide)
  · intro listed
    have kind : (create target interp address memory type val).2.value.typeKind =
        listedKind (name type) := create_typeKind.trans (typeKind_listed listed)
    have casts (other : IntegralType) : castAs (create target interp address memory type val).2 other =
        some (val.convert (format target other)) := by
      rw [castAs_listed kind, readMember_create]
      rfl
    refine ⟨?_, casts, ?_⟩
    · rw [isValid, kind]
      exact decide_eq_true (listedKind_valid type)
    · rw [casts, Number.convert_self]

/-- A target whose plain char and wchar_t are unsigned, as on 64-bit ARM. -/
def unsignedTarget : Target where
  charSigned := false
  wcharSigned := false
  width
    | .bool | .char | .signedChar | .unsignedChar => 8
    | .short | .unsignedShort | .char16 => 16
    | .int | .unsignedInt | .wchar | .char32 => 32
    | .long | .longLong | .unsignedLong | .unsignedLongLong => 64

/-- A char that is created where plain char is unsigned is invalid, and a cast to char returns
zero. -/
theorem unsigned_char_invalid (interp : Interpreter) (address : PayloadAddress) (memory : Memory) :
    let created := (create unsignedTarget interp address memory .char (.ofInt _ 65)).2
    isValid created = false ∧ castAs created .char = some (.ofInt _ 0) := by
  have unlisted : ¬ Listed unsignedTarget .char := fun listed => absurd (listed.1 rfl) (by decide)
  have kind : (create unsignedTarget interp address memory .char (.ofInt _ 65)).2.value.typeKind =
      .kInvalid := create_typeKind.trans (typeKind_unlisted unlisted)
  simp [isValid, castAs, kind]

/-- The letter A as a char is lost where plain char is unsigned. -/
theorem unsigned_char_lost :
    ¬ Agrees (create unsignedTarget ⟨fun _ => 1, fun _ => none⟩ 0 Program.start.memory .char
      (.ofInt _ 65)).2 .char (.ofInt _ 65) := by
  rintro ⟨valid, _⟩
  rw [(unsigned_char_invalid _ _ _).1] at valid
  cases valid


end BuiltinValues

end CppInterpreter
