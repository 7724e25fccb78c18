import CppInterpreter.Strings

/-!
# Global values of a module

Functions and global variables share a name, a linkage, a visibility and the flag that
assumes them local to the linked object. A definition carries a body or an
initializer; without one a global value is a declaration.

The operations are those of LLVM. Setting a local linkage restores the default
visibility, and setting a linkage or a visibility that implies a local definition also
sets the flag; nothing but `setDSOLocal` ever clears it. Dropping a body makes a
function external, while dropping an initializer changes nothing else.
-/

namespace CppInterpreter

open Bytes

/-- `llvm::GlobalValue::LinkageTypes`. -/
inductive LinkageTypes where
  | ExternalLinkage
  | AvailableExternallyLinkage
  | LinkOnceAnyLinkage
  | LinkOnceODRLinkage
  | WeakAnyLinkage
  | WeakODRLinkage
  | AppendingLinkage
  | InternalLinkage
  | PrivateLinkage
  | ExternalWeakLinkage
  | CommonLinkage
deriving DecidableEq, Repr

/-- `llvm::GlobalValue::VisibilityTypes`. -/
inductive VisibilityTypes where
  | DefaultVisibility
  | HiddenVisibility
  | ProtectedVisibility
deriving DecidableEq, Repr

namespace LinkageTypes

def isLocalLinkage (lt : LinkageTypes) : Bool := lt = InternalLinkage || lt = PrivateLinkage

def isLinkOnceLinkage (lt : LinkageTypes) : Bool := lt = LinkOnceAnyLinkage || lt = LinkOnceODRLinkage

/-- Whether a definition may be dropped when nothing in the module uses it. -/
def isDiscardableIfUnused (lt : LinkageTypes) : Bool :=
  lt.isLinkOnceLinkage || lt.isLocalLinkage || lt = AvailableExternallyLinkage

/-- Whether the linker may replace the definition by another one. -/
def isWeakForLinker (lt : LinkageTypes) : Bool :=
  lt = WeakAnyLinkage || lt = WeakODRLinkage || lt.isLinkOnceLinkage || lt = CommonLinkage ||
    lt = ExternalWeakLinkage

/-- The linkages that the verifier admits for a declaration. -/
def isDeclarationLinkage (lt : LinkageTypes) : Bool :=
  lt = ExternalLinkage || lt = ExternalWeakLinkage

/-- The discardable weak linkages are the link-once ones. -/
theorem discardable_weak (lt : LinkageTypes) :
    (lt.isDiscardableIfUnused && lt.isWeakForLinker) = lt.isLinkOnceLinkage := by
  cases lt <;> rfl

end LinkageTypes

/-- A global value whose definitions carry data of type `δ`. An unnamed value has the
empty name. -/
structure GlobalValue (δ : Type) where
  name : Bytes
  linkage : LinkageTypes
  visibility : VisibilityTypes
  dsoLocal : Bool
  definition : Option δ
deriving DecidableEq, Repr

/-- What `getInstructionCount` finds in a function body. -/
structure FunctionBody where
  instructionCount : Nat
deriving DecidableEq, Repr

/-- A function is a global value with a body. -/
abbrev Function := GlobalValue FunctionBody

/-- A global variable is a global value with an initializer. -/
abbrev GlobalVariable := GlobalValue Unit

namespace GlobalValue

variable {δ : Type}

def isDeclaration (gv : GlobalValue δ) : Bool := gv.definition.isNone

def hasName (gv : GlobalValue δ) : Bool := gv.name ≠ []

def hasLocalLinkage (gv : GlobalValue δ) : Bool := gv.linkage.isLocalLinkage

def hasDefaultVisibility (gv : GlobalValue δ) : Bool := gv.visibility = .DefaultVisibility

def isImplicitDSOLocal (gv : GlobalValue δ) : Bool :=
  gv.hasLocalLinkage || (!gv.hasDefaultVisibility && gv.linkage ≠ .ExternalWeakLinkage)

def setDSOLocal (gv : GlobalValue δ) (dsoLocal : Bool) : GlobalValue δ :=
  { gv with dsoLocal := dsoLocal }

/-- The flag is set where linkage and visibility imply it. -/
def impliedDSOLocal (gv : GlobalValue δ) : GlobalValue δ :=
  if gv.isImplicitDSOLocal then gv.setDSOLocal true else gv

def setLinkage (gv : GlobalValue δ) (lt : LinkageTypes) : GlobalValue δ :=
  let visibility := if lt.isLocalLinkage then .DefaultVisibility else gv.visibility
  { gv with visibility := visibility, linkage := lt }.impliedDSOLocal

def setVisibility (gv : GlobalValue δ) (visibility : VisibilityTypes) : GlobalValue δ :=
  { gv with visibility := visibility }.impliedDSOLocal

/-- The visibility and the flag of a value that LLVM builds: a local one has the
default visibility, and the flag is set where linkage and visibility imply it. -/
structure Legal (gv : GlobalValue δ) : Prop where
  visible : gv.hasLocalLinkage = true → gv.hasDefaultVisibility = true
  implied : gv.isImplicitDSOLocal = true → gv.dsoLocal = true

section Fields

variable (gv : GlobalValue δ)

@[simp] theorem impliedDSOLocal_name : gv.impliedDSOLocal.name = gv.name := by
  unfold impliedDSOLocal
  split <;> rfl

@[simp] theorem impliedDSOLocal_linkage : gv.impliedDSOLocal.linkage = gv.linkage := by
  unfold impliedDSOLocal
  split <;> rfl

@[simp] theorem impliedDSOLocal_visibility : gv.impliedDSOLocal.visibility = gv.visibility := by
  unfold impliedDSOLocal
  split <;> rfl

@[simp] theorem impliedDSOLocal_definition : gv.impliedDSOLocal.definition = gv.definition := by
  unfold impliedDSOLocal
  split <;> rfl

@[simp] theorem impliedDSOLocal_dsoLocal :
    gv.impliedDSOLocal.dsoLocal = (gv.dsoLocal || gv.isImplicitDSOLocal) := by
  unfold impliedDSOLocal
  cases implicit : gv.isImplicitDSOLocal <;> simp [setDSOLocal]

@[simp] theorem setLinkage_name (lt : LinkageTypes) : (gv.setLinkage lt).name = gv.name := by
  simp [setLinkage]

@[simp] theorem setLinkage_linkage (lt : LinkageTypes) : (gv.setLinkage lt).linkage = lt := by
  simp [setLinkage]

@[simp] theorem setLinkage_definition (lt : LinkageTypes) :
    (gv.setLinkage lt).definition = gv.definition := by
  simp [setLinkage]

end Fields

end GlobalValue

/-- `Function::deleteBody`. -/
def Function.deleteBody (f : Function) : Function :=
  GlobalValue.setLinkage { f with definition := none } .ExternalLinkage

section Fields

variable (f : Function)

@[simp] theorem Function.deleteBody_name : f.deleteBody.name = f.name := by
  simp [Function.deleteBody]

@[simp] theorem Function.deleteBody_linkage : f.deleteBody.linkage = .ExternalLinkage := by
  simp [Function.deleteBody]

@[simp] theorem Function.deleteBody_definition : f.deleteBody.definition = none := by
  simp [Function.deleteBody]

@[simp] theorem Function.deleteBody_visibility : f.deleteBody.visibility = f.visibility := by
  simp [Function.deleteBody, GlobalValue.setLinkage, LinkageTypes.isLocalLinkage]

@[simp] theorem Function.deleteBody_dsoLocal :
    f.deleteBody.dsoLocal = (f.dsoLocal || !f.hasDefaultVisibility) := by
  simp [Function.deleteBody, GlobalValue.setLinkage, GlobalValue.isImplicitDSOLocal,
    GlobalValue.hasLocalLinkage, GlobalValue.hasDefaultVisibility, LinkageTypes.isLocalLinkage]

end Fields

/-- `GlobalVariable::setInitializer(nullptr)`. -/
def GlobalVariable.dropInitializer (gv : GlobalVariable) : GlobalVariable :=
  { gv with definition := none }

/-- A module, as far as its passes read it. -/
structure Module where
  functions : List Function
  globals : List GlobalVariable
deriving DecidableEq, Repr

end CppInterpreter
