import CppInterpreter.ClangTypes
import Mathlib.Algebra.Group.Nat.Defs
import Mathlib.Data.List.Basic

/-!
# The last expression of a function

`GetOrCreateLastExpr` looks for the last statement of a body that is not empty. An
expression is the result. Behind a declaration of variables the function puts a reference
to the last of them, and gives the body that contains it to the function.

The position of the statement is a signed 32-bit number that counts down and wraps, while
clang counts the statements of a body in 32 bits without a sign. Reading a statement outside
the body is a fault, and so is a reference that is put outside of it, or a body for which
the function does not return.
-/

namespace CppInterpreter

/-- `getNonReferenceType`: what a reference refers to, through sugar and collapsed
references. -/
def QualType.getNonReferenceType : QualType → QualType
  | .reference referee => if referee.isReferenceType then referee.getNonReferenceType else referee
  | .typedef decl underlying =>
    if underlying.isReferenceType then underlying.getNonReferenceType else .typedef decl underlying
  | qt => qt

namespace LastExpression

/-- `clang::SourceLocation`. -/
abbrev SourceLocation := UInt32

/-- `clang::VarDecl`. -/
structure VarDecl where
  decl : Nat
  type : QualType
deriving DecidableEq, Repr

/-- A declaration is one of a variable or another one. -/
inductive Decl where
  | varDecl (vd : VarDecl)
  | other (decl : Nat)
deriving DecidableEq, Repr

/-- `dyn_cast<VarDecl>`. -/
def Decl.varDecl? : Decl → Option VarDecl
  | .varDecl vd => some vd
  | .other _ => none

/-- `clang::Stmt`. Expressions are statements. -/
inductive Stmt (Expr : Type) where
  | nullStmt (semiLoc : SourceLocation)
  | expr (expr : Expr)
  | declStmt (decls : List Decl) (endLoc : SourceLocation)
  | other (stmt : Nat)
deriving DecidableEq, Repr

/-- `isa<NullStmt>`. -/
def Stmt.isNullStmt {Expr : Type} : Stmt Expr → Bool
  | .nullStmt _ => true
  | _ => false

/-- `clang::CompoundStmt`, which counts its statements in 32 bits. -/
structure CompoundStmt (Expr : Type) where
  body : List (Stmt Expr)
  lBracLoc : SourceLocation
  rBracLoc : SourceLocation
  counted : body.length < 2 ^ 32

/-- What `getBody` gives: no body, a block, or a statement of another kind. -/
inductive Body (Expr : Type) where
  | missing
  | compound (cs : CompoundStmt Expr)
  | other (stmt : Nat)

/-- `clang::FunctionDecl`, as far as its body. -/
structure FunctionDecl (Expr : Type) where
  body : Body Expr

inductive ExprValueKind where
  | VK_PRValue
  | VK_LValue
  | VK_XValue
deriving DecidableEq, Repr

/-- `clang::Sema`, as far as it builds references. -/
structure Sema (Expr : Type) where
  buildDeclRefExpr : VarDecl → QualType → ExprValueKind → SourceLocation → Option Expr

/-- What goes wrong: a statement outside the body, a reference that is not built or is put
outside the body, more statements than 32 bits count, or a function without a block as its
body. -/
inductive Fault where
  | outOfBounds (index : Int)
  | nullReference
  | insertedOutside (index : Int)
  | tooManyStatements
  | nullBody
  | noReturn
deriving DecidableEq, Repr

/-- The result, the value stored through `found_at`, and the function as the call leaves
it. -/
structure LastExpr (Expr : Type) where
  result : Option Expr
  foundAt : Int
  fd : FunctionDecl Expr

variable {Expr : Type}

/-- `CompoundStmt::Create`. -/
def CompoundStmt.create (body : List (Stmt Expr)) (lBracLoc rBracLoc : SourceLocation) :
    Except Fault (CompoundStmt Expr) :=
  if counted : body.length < 2 ^ 32 then .ok ⟨body, lBracLoc, rBracLoc, counted⟩
  else .error .tooManyStatements

/-- `stmts[index]`. -/
def stmtAt (stmts : List (Stmt Expr)) (index : Int32) : Except Fault (Stmt Expr) :=
  match if 0 ≤ index.toInt then stmts[index.toInt.toNat]? else none with
  | none => .error (.outOfBounds index.toInt)
  | some stmt => .ok stmt

/-- A number other than zero is smaller behind a decrement, as a number without a sign. -/
theorem decrement_smaller {index : Int32} (more : index ≠ 0) :
    (index - 1).toUInt32.toNat < index.toUInt32.toNat := by
  have positive : index.toUInt32.toNat ≠ 0 := by
    intro zero
    have same : index.toUInt32 = 0 := UInt32.toNat_inj.mp zero
    exact more (by simpa using congrArg UInt32.toInt32 same)
  have wrapped : (index - 1).toUInt32 = index.toUInt32 - 1 := by
    rw [Int32.toUInt32_sub]
    rfl
  have one : (1 : UInt32).toNat = 1 := rfl
  have bounded := index.toUInt32.toNat_lt
  rw [wrapped, UInt32.toNat_sub]
  omega

/-- `while (index--)` over empty statements. Without another statement the loop ends with zero,
which is decremented as well. A negative number is decremented and used like any other, and
the smallest one wraps. -/
def countDown (stmts : List (Stmt Expr)) (index : Int32) : Except Fault Int32 :=
  if _zero : index = 0 then .ok (index - 1)
  else
    match stmtAt stmts (index - 1) with
    | .error fault => .error fault
    | .ok stmt => if stmt.isNullStmt then countDown stmts (index - 1) else .ok (index - 1)
termination_by index.toUInt32.toNat
decreasing_by exact decrement_smaller _zero

/-- The position that the loop finds. The number of statements is converted to a signed
number. -/
def indexOfLastExpr (stmts : List (Stmt Expr)) : Except Fault Int32 :=
  countDown stmts (Int32.ofNat stmts.length)

/-- The reverse search for a variable among the declarations of a statement. -/
def lastVarDecl (decls : List Decl) : Option VarDecl := decls.reverse.findSome? Decl.varDecl?

/-- A new body with a reference to a variable behind the position of its declaration. -/
def appendReference (sema : Sema Expr) (cs : CompoundStmt Expr) (indexOfLastExpr : Int32)
    (vd : VarDecl) (endLoc : SourceLocation) : Except Fault (LastExpr Expr) :=
  match sema.buildDeclRefExpr vd vd.type.getNonReferenceType .VK_LValue (endLoc + 1) with
  | none => .error .nullReference
  | some dre =>
    let indexOfLastExpr := (indexOfLastExpr + 1).toInt
    if indexOfLastExpr < 0 then .error (.insertedOutside indexOfLastExpr)
    else
      let newBody := cs.body.insertIdx indexOfLastExpr.toNat (.expr dre)
      match CompoundStmt.create newBody cs.lBracLoc cs.rBracLoc with
      | .error fault => .error fault
      | .ok newCs => .ok ⟨some dre, indexOfLastExpr, ⟨.compound newCs⟩⟩

/-- What happens at the statement that the loop finds. -/
def atStmt (cs : CompoundStmt Expr) (omitDeclStmts : Bool) (sema : Sema Expr)
    (indexOfLastExpr : Int32) : Stmt Expr → Except Fault (LastExpr Expr)
  | .expr result => .ok ⟨some result, indexOfLastExpr.toInt, ⟨.compound cs⟩⟩
  | .declStmt decls endLoc =>
    if omitDeclStmts then .ok ⟨none, indexOfLastExpr.toInt, ⟨.compound cs⟩⟩
    else
      match lastVarDecl decls with
      | none => .ok ⟨none, indexOfLastExpr.toInt, ⟨.compound cs⟩⟩
      | some vd => appendReference sema cs indexOfLastExpr vd endLoc
  | .nullStmt _ | .other _ => .ok ⟨none, indexOfLastExpr.toInt, ⟨.compound cs⟩⟩

/-- `GetOrCreateLastExpr` for a block. -/
def lastExprOfBlock (cs : CompoundStmt Expr) (omitDeclStmts : Bool) (sema : Sema Expr) :
    Except Fault (LastExpr Expr) :=
  match indexOfLastExpr cs.body with
  | .error fault => .error fault
  | .ok index =>
    match stmtAt cs.body index with
    | .error fault => .error fault
    | .ok stmt => atStmt cs omitDeclStmts sema index stmt

/-- `GetOrCreateLastExpr`. For a body that is no block it does not return a value. -/
def getOrCreateLastExpr (fd : FunctionDecl Expr) (omitDeclStmts : Bool) (sema : Sema Expr) :
    Except Fault (LastExpr Expr) :=
  match fd.body with
  | .missing => .error .nullBody
  | .compound cs => lastExprOfBlock cs omitDeclStmts sema
  | .other _ => .error .noReturn

section Counting

variable {stmts before trailing : List (Stmt Expr)} {stmt : Stmt Expr} {index size passed : Nat}

/-- Up to 2^31 - 1, a position is the signed number of itself. -/
theorem stmtAt_position (short : index < 2 ^ 31) : stmtAt stmts (Int32.ofNat index) =
    match stmts[index]? with
    | none => .error (.outOfBounds index)
    | some stmt => .ok stmt := by
  simp only [stmtAt, Int32.toInt_ofNat_of_lt short, Int.natCast_nonneg, ↓reduceIte,
    Int.toNat_natCast]

/-- A statement of the body is read. -/
theorem stmtAt_inside (short : index < 2 ^ 31) (present : stmts[index]? = some stmt) :
    stmtAt stmts (Int32.ofNat index) = .ok stmt := by
  rw [stmtAt_position short, present]

/-- There is no statement below the first one. -/
theorem stmtAt_below {index : Int32} (below : index.toInt < 0) :
    stmtAt stmts index = .error (.outOfBounds index.toInt) := by
  simp only [stmtAt, Int.not_le.mpr below, ↓reduceIte]

/-- A number of statements that 32 bits count is decremented and used, unless it is zero. -/
theorem countDown_succ (counted : index + 1 < 2 ^ 32) :
    countDown stmts (Int32.ofNat (index + 1)) =
      match stmtAt stmts (Int32.ofNat index) with
      | .error fault => .error fault
      | .ok stmt =>
        if stmt.isNullStmt then countDown stmts (Int32.ofNat index) else .ok (Int32.ofNat index) := by
  have more : Int32.ofNat (index + 1) ≠ 0 := by
    intro zero
    have unsigned := congrArg (fun number => number.toUInt32.toNat) zero
    have none_ : (0 : Int32).toUInt32.toNat = 0 := rfl
    simp only [Int32.toUInt32_ofNat', UInt32.toNat_ofNat', none_] at unsigned
    omega
  have decremented : Int32.ofNat (index + 1) - 1 = Int32.ofNat index := by simp
  rw [countDown, dif_neg more, decremented]

/-- From 2^31 + 1 statements on, the first number that is used is negative. -/
theorem count_long (long : 2 ^ 31 < stmts.length) (counted : stmts.length < 2 ^ 32) :
    ∃ below < 0, indexOfLastExpr stmts = .error (.outOfBounds below) := by
  obtain ⟨last, size⟩ : ∃ last, stmts.length = last + 1 := ⟨stmts.length - 1, by omega⟩
  have negative : (Int32.ofNat last).toInt < 0 := by
    rw [Int32.toInt_ofNat', Int.bmod_neg_iff (by omega) (by simp only [Int32.size]; omega)]
    simp only [Int32.size]
    omega
  refine ⟨_, negative, ?_⟩
  rw [indexOfLastExpr, size, countDown_succ (size ▸ counted), stmtAt_below negative]

/-- Counting down over empty statements ends below zero. -/
theorem countDown_empty (empty : ∀ stmt ∈ stmts, stmt.isNullStmt = true) (short : size ≤ 2 ^ 31)
    (inside : size ≤ stmts.length) : countDown stmts (Int32.ofNat size) = .ok (-1) := by
  induction size with
  | zero => rw [countDown]; rfl
  | succ index inductionHypothesis =>
    have present := List.getElem?_eq_getElem (Nat.lt_of_succ_le inside)
    have passed := empty _ (List.getElem_mem (Nat.lt_of_succ_le inside))
    rw [countDown_succ (by omega), stmtAt_inside short present]
    simp only [passed, ↓reduceIte]
    exact inductionHypothesis (Nat.le_of_succ_le short) (Nat.le_of_succ_le inside)

/-- Counting down passes the empty statements behind another one. -/
theorem countDown_last (last : stmt.isNullStmt = false)
    (empty : ∀ stmt ∈ trailing, stmt.isNullStmt = true)
    (short : before.length + 1 + passed ≤ 2 ^ 31) (inside : passed ≤ trailing.length) :
    countDown (before ++ stmt :: trailing) (Int32.ofNat (before.length + 1 + passed)) =
      .ok (Int32.ofNat before.length) := by
  induction passed with
  | zero =>
    have present : (before ++ stmt :: trailing)[before.length]? = some stmt := by simp
    rw [Nat.add_zero, countDown_succ (by omega), stmtAt_inside (by omega) present]
    simp only [last, Bool.false_eq_true, ↓reduceIte]
  | succ passed inductionHypothesis =>
    have within : passed < trailing.length := inside
    have present : (before ++ stmt :: trailing)[before.length + 1 + passed]? = some trailing[passed] := by
      rw [List.getElem?_append_right (by omega), Nat.add_assoc, Nat.add_sub_cancel_left,
        Nat.add_comm 1, List.getElem?_cons_succ, List.getElem?_eq_getElem within]
    have skipped := empty _ (List.getElem_mem within)
    rw [← Nat.add_assoc, countDown_succ (by omega), stmtAt_inside (by omega) present]
    simp only [skipped, ↓reduceIte]
    exact inductionHypothesis (by omega) (Nat.le_of_succ_le inside)

/-- A body with a statement that is not empty has a last one. -/
theorem exists_last (present : ∃ stmt ∈ stmts, stmt.isNullStmt = false) :
    ∃ before stmt trailing, stmts = before ++ stmt :: trailing ∧ stmt.isNullStmt = false ∧
      ∀ stmt ∈ trailing, stmt.isNullStmt = true := by
  induction stmts with
  | nil => simp at present
  | cons head stmts inductionHypothesis =>
    by_cases later : ∃ stmt ∈ stmts, stmt.isNullStmt = false
    · obtain ⟨before, stmt, trailing, rfl, last, empty⟩ := inductionHypothesis later
      exact ⟨head :: before, stmt, trailing, rfl, last, empty⟩
    · have empty : ∀ stmt ∈ stmts, stmt.isNullStmt = true := by simpa using later
      obtain ⟨stmt, inside, found⟩ := present
      rcases List.mem_cons.mp inside with rfl | behind
      · exact ⟨[], stmt, stmts, rfl, found, empty⟩
      · exact absurd (empty stmt behind) (by simp [found])

end Counting

section Bounds

variable {sema : Sema Expr} {cs : CompoundStmt Expr} {omitDeclStmts : Bool}
  {before trailing : List (Stmt Expr)} {stmt : Stmt Expr}

/-- The statements are those before a statement, itself, and those behind it. -/
theorem length_split (split : cs.body = before ++ stmt :: trailing) :
    cs.body.length = before.length + 1 + trailing.length := by
  rw [split, List.length_append, List.length_cons]
  omega

/-- In a short body the call finds the last statement that is not empty. -/
theorem lastExpr_found (short : cs.body.length ≤ 2 ^ 31) (split : cs.body = before ++ stmt :: trailing)
    (last : stmt.isNullStmt = false) (empty : ∀ stmt ∈ trailing, stmt.isNullStmt = true) :
    lastExprOfBlock cs omitDeclStmts sema =
      atStmt cs omitDeclStmts sema (Int32.ofNat before.length) stmt := by
  have size := length_split split
  have counted : indexOfLastExpr cs.body = .ok (Int32.ofNat before.length) := by
    rw [indexOfLastExpr, size, split]
    exact countDown_last last empty (by omega) (Nat.le_refl _)
  have present : cs.body[before.length]? = some stmt := by simp [split]
  rw [lastExprOfBlock, counted]
  dsimp only
  rw [stmtAt_inside (by omega) present]

/-- Adding a reference does not read outside the body. -/
theorem atStmt_inside (index : Int32) (bound : Int) :
    atStmt cs omitDeclStmts sema index stmt ≠ .error (.outOfBounds bound) := by
  cases stmt with
  | declStmt decls endLoc =>
    simp only [atStmt, appendReference, CompoundStmt.create]
    grind
  | nullStmt | expr | other => simp [atStmt]

/-- A long body, or one of empty statements, is read below its first statement. -/
theorem lastExpr_outside
    (outside : 2 ^ 31 < cs.body.length ∨ ∀ stmt ∈ cs.body, stmt.isNullStmt = true) :
    ∃ below < 0, lastExprOfBlock cs omitDeclStmts sema = .error (.outOfBounds below) := by
  rcases Nat.lt_or_ge (2 ^ 31) cs.body.length with long | short
  · obtain ⟨below, negative, counted⟩ := count_long long cs.counted
    exact ⟨below, negative, by rw [lastExprOfBlock, counted]⟩
  · have empty := outside.resolve_left (Nat.not_lt_of_le short)
    have counted : indexOfLastExpr cs.body = .ok (-1) := countDown_empty empty short (Nat.le_refl _)
    refine ⟨-1, by decide, ?_⟩
    rw [lastExprOfBlock, counted]
    dsimp only
    rw [stmtAt_below (by decide)]
    rfl

/-- The call reads inside the body. Without a statement that is not empty it finds
nothing and changes nothing. -/
def StaysInside (cs : CompoundStmt Expr) (omitDeclStmts : Bool) (sema : Sema Expr) : Prop :=
  (∀ index, getOrCreateLastExpr ⟨.compound cs⟩ omitDeclStmts sema ≠ .error (.outOfBounds index)) ∧
    ((∀ stmt ∈ cs.body, stmt.isNullStmt = true) →
      getOrCreateLastExpr ⟨.compound cs⟩ omitDeclStmts sema = .ok ⟨none, -1, ⟨.compound cs⟩⟩)

/-- The call stays inside the body exactly when there are at most 2^31 statements, and one of
them is not empty. -/
theorem stays_inside_iff (cs : CompoundStmt Expr) (omitDeclStmts : Bool) (sema : Sema Expr) :
    StaysInside cs omitDeclStmts sema ↔
      cs.body.length ≤ 2 ^ 31 ∧ ∃ stmt ∈ cs.body, stmt.isNullStmt = false := by
  constructor
  · rintro ⟨inside, _⟩
    by_contra fails
    have outside : 2 ^ 31 < cs.body.length ∨ ∀ stmt ∈ cs.body, stmt.isNullStmt = true := by
      rcases Nat.lt_or_ge (2 ^ 31) cs.body.length with long | short
      · exact .inl long
      · right
        intro stmt inside
        by_contra found
        exact fails ⟨short, stmt, inside, Bool.eq_false_iff.mpr found⟩
    obtain ⟨below, _, faulted⟩ : ∃ below < 0,
        lastExprOfBlock cs omitDeclStmts sema = .error (.outOfBounds below) := lastExpr_outside outside
    exact inside _ faulted
  · rintro ⟨short, present⟩
    obtain ⟨before, stmt, trailing, split, last, empty⟩ := exists_last present
    constructor
    · intro index
      change lastExprOfBlock cs omitDeclStmts sema ≠ _
      rw [lastExpr_found short split last empty]
      exact atStmt_inside _ _
    · intro all
      have contradiction := all stmt (by simp [split])
      simp [last] at contradiction

/-- The body of a function without statements. -/
def emptyBlock : CompoundStmt Nat := ⟨[], 0, 0, by decide⟩

/-- Clang with references that are told apart by the variables. -/
def plainSema : Sema Nat := ⟨fun vd _ _ _ => some vd.decl⟩

/-- In an empty body the statement before the first one is read. -/
theorem empty_block_outside :
    getOrCreateLastExpr ⟨.compound emptyBlock⟩ true plainSema = .error (.outOfBounds (-1)) ∧
      ¬ StaysInside emptyBlock true plainSema := by
  have faulted : getOrCreateLastExpr ⟨.compound emptyBlock⟩ true plainSema =
      .error (.outOfBounds (-1)) := by
    have counted : indexOfLastExpr emptyBlock.body = .ok (-1) :=
      countDown_empty (by simp [emptyBlock]) (by decide) (Nat.le_refl _)
    simp only [getOrCreateLastExpr, lastExprOfBlock, counted]
    rfl
  exact ⟨faulted, fun stays => stays.1 (-1) faulted⟩

end Bounds

/-- A statement declares a variable. -/
def Stmt.Declares : Stmt Expr → Prop
  | .declStmt decls _ => ∃ vd, .varDecl vd ∈ decls
  | .nullStmt _ | .expr _ | .other _ => False

/-- The result of a call for a block, from the last statement that is not empty and the
statements before and behind it. A statement whose last variable has no other variable
behind it is followed by a reference to that variable. -/
inductive Synthesized (sema : Sema Expr) (cs : CompoundStmt Expr)
    (before trailing : List (Stmt Expr)) : Stmt Expr → LastExpr Expr → Prop where
  | found (expr : Expr) : Synthesized sema cs before trailing (.expr expr)
      ⟨some expr, before.length, ⟨.compound cs⟩⟩
  | reference {earlier later : List Decl} {vd : VarDecl} {endLoc : SourceLocation} {dre : Expr}
      {newCs : CompoundStmt Expr} (last : ∀ decl ∈ later, decl.varDecl? = none)
      (built : sema.buildDeclRefExpr vd vd.type.getNonReferenceType .VK_LValue (endLoc + 1) = some dre)
      (body : newCs.body =
        before ++ .declStmt (earlier ++ .varDecl vd :: later) endLoc :: .expr dre :: trailing) :
      Synthesized sema cs before trailing (.declStmt (earlier ++ .varDecl vd :: later) endLoc)
        ⟨some dre, before.length + 1, ⟨.compound newCs⟩⟩
  | absent {stmt : Stmt Expr} {foundAt : Int} (noExpr : ∀ expr, stmt ≠ .expr expr)
      (noVar : ¬ stmt.Declares) : Synthesized sema cs before trailing stmt
        ⟨none, foundAt, ⟨.compound cs⟩⟩

/-- A call for a block synthesizes, and a second one on the function that it leaves gives
the same and changes nothing. -/
def Synthesizes (sema : Sema Expr) (cs : CompoundStmt Expr) (before : List (Stmt Expr))
    (stmt : Stmt Expr) (trailing : List (Stmt Expr)) : Prop :=
  ∃ first, getOrCreateLastExpr ⟨.compound cs⟩ false sema = .ok first ∧
    Synthesized sema cs before trailing stmt first ∧
    getOrCreateLastExpr first.fd false sema = .ok first

section Synthesis

variable {sema : Sema Expr} {cs : CompoundStmt Expr} {before trailing : List (Stmt Expr)}
  {stmt : Stmt Expr} {decls : List Decl}

/-- The reverse search finds the last variable. -/
theorem lastVarDecl_some {vd : VarDecl} (found : lastVarDecl decls = some vd) :
    ∃ earlier later, decls = earlier ++ .varDecl vd :: later ∧
      ∀ decl ∈ later, decl.varDecl? = none := by
  obtain ⟨later, decl, earlier, split, here, passed⟩ := List.findSome?_eq_some_iff.mp found
  cases decl with
  | varDecl other =>
    cases here
    refine ⟨earlier.reverse, later.reverse, ?_, ?_⟩
    · rw [← List.reverse_reverse decls, split]
      simp
    · intro decl inside
      exact passed decl (List.mem_reverse.mp inside)
  | other => cases here

/-- The reverse search finds nothing where no variable is declared. -/
theorem lastVarDecl_none (endLoc : SourceLocation) (nothing : lastVarDecl decls = none) :
    ¬ Stmt.Declares (.declStmt decls endLoc : Stmt Expr) := by
  rintro ⟨vd, inside⟩
  have passed := List.findSome?_eq_none_iff.mp nothing _ (List.mem_reverse.mpr inside)
  cases passed

/-- A statement is inserted behind another one. -/
theorem insertIdx_behind (before trailing : List (Stmt Expr)) (stmt inserted : Stmt Expr) :
    (before ++ stmt :: trailing).insertIdx (before.length + 1) inserted =
      before ++ stmt :: inserted :: trailing := by
  induction before with
  | nil => rfl
  | cons head before inductionHypothesis =>
    rw [List.cons_append, List.length_cons, List.insertIdx_succ_cons, inductionHypothesis,
      List.cons_append]

/-- A body that is searched without a fault is short. -/
theorem short_of_found {first : LastExpr Expr}
    (called : getOrCreateLastExpr ⟨.compound cs⟩ false sema = .ok first) :
    cs.body.length ≤ 2 ^ 31 := by
  by_contra long
  obtain ⟨below, _, faulted⟩ : ∃ below < 0,
      lastExprOfBlock cs false sema = .error (.outOfBounds below) :=
    lastExpr_outside (.inl (Nat.lt_of_not_le long))
  cases called.symm.trans faulted

/-- A reference is put behind the declaration of its variable. -/
theorem appendReference_behind {vd : VarDecl} {endLoc : SourceLocation} {dre : Expr}
    (split : cs.body = before ++ stmt :: trailing) (room : cs.body.length + 1 ≤ 2 ^ 31)
    (built : sema.buildDeclRefExpr vd vd.type.getNonReferenceType .VK_LValue (endLoc + 1) = some dre) :
    ∃ newCs : CompoundStmt Expr, newCs.body = before ++ stmt :: .expr dre :: trailing ∧
      appendReference sema cs (Int32.ofNat before.length) vd endLoc =
        .ok ⟨some dre, before.length + 1, ⟨.compound newCs⟩⟩ := by
  have inserted := insertIdx_behind before trailing stmt (.expr dre)
  have size := length_split split
  have counted : (before ++ stmt :: .expr dre :: trailing).length < 2 ^ 32 := by
    simp only [List.length_append, List.length_cons]
    omega
  have position : (Int32.ofNat before.length + 1).toInt = (before.length + 1 : Nat) := by
    have succ : Int32.ofNat (before.length + 1) = Int32.ofNat before.length + 1 := by simp
    rw [← succ, Int32.toInt_ofNat_of_lt (by omega)]
  refine ⟨⟨_, cs.lBracLoc, cs.rBracLoc, counted⟩, rfl, ?_⟩
  simp only [appendReference, built, split, position, Int.not_lt.mpr (Int.natCast_nonneg _),
    ↓reduceIte, Int.toNat_natCast, inserted, CompoundStmt.create, counted, ↓reduceDIte]
  rfl

/-- A short body synthesizes when the last statement that is not empty is no declaration
of a variable. -/
theorem synthesizes_plain (short : cs.body.length ≤ 2 ^ 31)
    (split : cs.body = before ++ stmt :: trailing) (last : stmt.isNullStmt = false)
    (empty : ∀ stmt ∈ trailing, stmt.isNullStmt = true) {result : Option Expr}
    (plain : ∀ index, atStmt cs false sema index stmt = .ok ⟨result, index.toInt, ⟨.compound cs⟩⟩)
    (expected : Synthesized sema cs before trailing stmt ⟨result, before.length, ⟨.compound cs⟩⟩) :
    Synthesizes sema cs before stmt trailing := by
  have size := length_split split
  have position : (Int32.ofNat before.length).toInt = before.length :=
    Int32.toInt_ofNat_of_lt (by omega)
  have called : getOrCreateLastExpr ⟨.compound cs⟩ false sema =
      .ok ⟨result, before.length, ⟨.compound cs⟩⟩ := by
    rw [← position]
    exact (lastExpr_found short split last empty).trans (plain _)
  exact ⟨_, called, expected, called⟩

/-- Behind a declaration the reference is found again. -/
theorem synthesizes_reference {earlier later : List Decl} {vd : VarDecl} {endLoc : SourceLocation}
    {dre : Expr} (noneLater : ∀ decl ∈ later, decl.varDecl? = none)
    (split : cs.body = before ++ .declStmt (earlier ++ .varDecl vd :: later) endLoc :: trailing)
    (found : lastVarDecl (earlier ++ .varDecl vd :: later) = some vd)
    (empty : ∀ stmt ∈ trailing, stmt.isNullStmt = true) (room : cs.body.length + 1 ≤ 2 ^ 31)
    (built : sema.buildDeclRefExpr vd vd.type.getNonReferenceType .VK_LValue (endLoc + 1) = some dre) :
    Synthesizes sema cs before (.declStmt (earlier ++ .varDecl vd :: later) endLoc) trailing := by
  obtain ⟨newCs, body, appended⟩ := appendReference_behind split room built
  have short : cs.body.length ≤ 2 ^ 31 := by omega
  have called : getOrCreateLastExpr ⟨.compound cs⟩ false sema =
      .ok ⟨some dre, before.length + 1, ⟨.compound newCs⟩⟩ := by
    refine (lastExpr_found short split rfl empty).trans ?_
    simp only [atStmt, Bool.false_eq_true, ↓reduceIte, found, appended]
  have size := length_split split
  have newShort : newCs.body.length ≤ 2 ^ 31 := by
    rw [length_split body, List.length_cons]
    omega
  have newSplit : newCs.body =
      (before ++ [.declStmt (earlier ++ .varDecl vd :: later) endLoc]) ++ .expr dre :: trailing := by
    rw [body, List.append_assoc]
    rfl
  have again : getOrCreateLastExpr ⟨.compound newCs⟩ false sema =
      .ok ⟨some dre, before.length + 1, ⟨.compound newCs⟩⟩ := by
    refine (lastExpr_found newShort newSplit rfl empty).trans ?_
    have position : (Int32.ofNat (before.length + 1)).toInt = (before.length + 1 : Nat) :=
      Int32.toInt_ofNat_of_lt (by omega)
    simp only [atStmt, List.length_append, List.length_cons, List.length_nil, Nat.zero_add, position]
    rfl
  exact ⟨_, called, .reference noneLater built body, again⟩

/-- Calls for a block synthesize and are stable exactly when there are at most 2^31
statements, with the reference to a variable if there is one. -/
theorem synthesizes_iff (sema : Sema Expr)
    (built : ∀ vd type kind loc, (sema.buildDeclRefExpr vd type kind loc).isSome = true)
    (cs : CompoundStmt Expr) (before : List (Stmt Expr)) (stmt : Stmt Expr)
    (trailing : List (Stmt Expr)) (split : cs.body = before ++ stmt :: trailing)
    (last : stmt.isNullStmt = false) (empty : ∀ stmt ∈ trailing, stmt.isNullStmt = true) :
    Synthesizes sema cs before stmt trailing ↔
      cs.body.length ≤ 2 ^ 31 ∧ (stmt.Declares → cs.body.length + 1 ≤ 2 ^ 31) := by
  constructor
  · rintro ⟨first, called, expected, again⟩
    refine ⟨short_of_found called, ?_⟩
    intro declares
    cases expected with
    | found => exact declares.elim
    | reference _ _ body =>
      have room := short_of_found again
      rw [length_split body, List.length_cons] at room
      rw [length_split split]
      omega
    | absent _ noVar => exact absurd declares noVar
  · rintro ⟨short, room⟩
    cases stmt with
    | nullStmt => cases last
    | expr expr => exact synthesizes_plain short split last empty (fun _ => rfl) (.found expr)
    | other => exact synthesizes_plain short split last empty (fun _ => rfl) (.absent nofun id)
    | declStmt decls endLoc =>
      cases found : lastVarDecl decls with
      | none =>
        have plain (index : Int32) : atStmt cs false sema index (.declStmt decls endLoc) =
            .ok ⟨none, index.toInt, ⟨.compound cs⟩⟩ := by
          simp [atStmt, found]
        exact synthesizes_plain short split last empty plain
          (.absent nofun (lastVarDecl_none endLoc found))
      | some vd =>
        obtain ⟨earlier, later, rfl, noneLater⟩ := lastVarDecl_some found
        obtain ⟨dre, reference⟩ := Option.isSome_iff_exists.mp
          (built vd vd.type.getNonReferenceType .VK_LValue (endLoc + 1))
        exact synthesizes_reference noneLater split found empty (room ⟨vd, by simp⟩) reference

/-- The equivalence for a variable with an empty statement behind its declaration. -/
theorem variable_synthesizes :
    Synthesizes plainSema
        ⟨[.declStmt [.varDecl ⟨3, .builtin .Int⟩] 7, .nullStmt 8], 0, 9, by decide⟩ []
        (.declStmt [.varDecl ⟨3, .builtin .Int⟩] 7) [.nullStmt 8] ↔
      2 ≤ 2 ^ 31 ∧ ((.declStmt [.varDecl ⟨3, .builtin .Int⟩] 7 : Stmt Nat).Declares → 2 + 1 ≤ 2 ^ 31) :=
  synthesizes_iff plainSema (fun _ _ _ _ => rfl)
    ⟨[.declStmt [.varDecl ⟨3, .builtin .Int⟩] 7, .nullStmt 8], 0, 9, by decide⟩ []
    (.declStmt [.varDecl ⟨3, .builtin .Int⟩] 7) [.nullStmt 8] rfl rfl (by decide)

/-- Empty statements with an expression behind them. -/
def behindEmpty (count : Nat) (counted : count + 1 < 2 ^ 32) : CompoundStmt Nat :=
  ⟨List.replicate count (.nullStmt 0) ++ [.expr 5], 0, 0, by simpa using counted⟩

/-- An expression behind too many empty statements is not found. -/
theorem behindEmpty_missed {count : Nat} (counted : count + 1 < 2 ^ 32) (long : 2 ^ 31 < count + 1) :
    ¬ Synthesizes plainSema (behindEmpty count counted) (List.replicate count (.nullStmt 0)) (.expr 5)
      [] := by
  rintro ⟨first, called, _⟩
  have short := short_of_found called
  simp only [behindEmpty, List.length_append, List.length_replicate, List.length_cons,
    List.length_nil] at short
  omega

/-- With 2^31 empty statements before it, the last expression is not found. -/
theorem expression_missed : ∃ counted : 2 ^ 31 + 1 < 2 ^ 32,
    (behindEmpty (2 ^ 31) counted).body = List.replicate (2 ^ 31) (.nullStmt 0) ++ [.expr 5] ∧
      ¬ Synthesizes plainSema (behindEmpty (2 ^ 31) counted) (List.replicate (2 ^ 31) (.nullStmt 0))
        (.expr 5) [] :=
  ⟨by decide, by rw [behindEmpty], behindEmpty_missed (by decide) (by decide)⟩

end Synthesis

end LastExpression

end CppInterpreter
