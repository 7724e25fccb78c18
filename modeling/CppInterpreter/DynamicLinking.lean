import CppInterpreter.Runs
import CppInterpreter.Strings

/-!
# Errors of dynamic linking

`DLOpen`, `DLSym` and `DLClose` hand the error of the dynamic linker to a string of their
caller, if there is one. The linker keeps one error for a thread, that of the last operation
that failed, until somebody asks for it. Some linkers remove it when an operation succeeds,
others do not.

An error that a call does not ask for can be taken for the error of a later one. `DLSym` does
not ask for the error of `dlclose` when its string is not empty. All calls report their own
errors, and leave none behind, exactly when no error remains of those without a string, and
no `DLSym` with text in its string fails to close what it has opened.
-/

namespace CppInterpreter.DynamicLinking

open Bytes

/-- The text of an error. It says something. -/
structure Message where
  text : Bytes
  nonempty : text ≠ []

/-- The flags of `dlopen`. -/
inductive Flag where
  | RTLD_LAZY
  | RTLD_NOW
  | RTLD_GLOBAL
deriving DecidableEq, Repr

/-- What `dlopen` returns for a library. -/
structure Handle where
  pointer : UInt64
  nonnull : pointer ≠ 0

/-- The dynamic linker: its operations with the errors that they raise, and whether one that
succeeds removes the error before it. -/
structure Linker (σ : Type*) where
  dlopen : σ → Option Bytes → List Flag → Except Message Handle × σ
  dlsym : σ → Handle → Bytes → Except Message UInt64 × σ
  dlclose : σ → UInt64 → Except Message Unit × σ
  forgets : Bool

/-- The state of the linker, and the error of the thread. -/
structure Thread (σ : Type*) where
  system : σ
  error : Option Message

variable {σ ρ : Type*}

/-- What remains of an error when an operation succeeds. -/
def Linker.kept (linker : Linker σ) (error : Option Message) : Option Message :=
  if linker.forgets then none else error

/-- An operation of the linker. Its error replaces the one before. -/
def attempt (linker : Linker σ) (operation : σ → Except Message ρ × σ) (thread : Thread σ) :
    Except Message ρ × Thread σ :=
  match operation thread.system with
  | (.ok result, system) => (.ok result, ⟨system, linker.kept thread.error⟩)
  | (.error message, system) => (.error message, ⟨system, some message⟩)

/-- `dlerror`. -/
def dlerror (thread : Thread σ) : Option Message × Thread σ := (thread.error, ⟨thread.system, none⟩)

/-- `DLErr`. -/
def dlErr (Err : Option Bytes) (thread : Thread σ) : Option Bytes × Thread σ :=
  match Err with
  | none => (none, thread)
  | some text =>
    match dlerror thread with
    | (some DyLibError, thread) => (some DyLibError.text, thread)
    | (none, thread) => (some text, thread)

/-- `DLOpen`. -/
def dlOpen (linker : Linker σ) (Path : Bytes) (Err : Option Bytes) (thread : Thread σ) :
    UInt64 × Option Bytes × Thread σ :=
  let (Lib, thread) :=
    attempt linker (fun system => linker.dlopen system (some (cStr Path)) [.RTLD_LAZY, .RTLD_GLOBAL])
      thread
  let (Err, thread) := dlErr Err thread
  match Lib with
  | .ok handle => (handle.pointer, Err, thread)
  | .error _ => (0, Err, thread)

/-- `DLClose`. -/
def dlClose (linker : Linker σ) (Lib : UInt64) (Err : Option Bytes) (thread : Thread σ) :
    Option Bytes × Thread σ :=
  dlErr Err (attempt linker (fun system => linker.dlclose system Lib) thread).2

/-- `DLSym`. -/
def dlSym (linker : Linker σ) (Name : Bytes) (Err : Option Bytes) (thread : Thread σ) :
    UInt64 × Option Bytes × Thread σ :=
  match attempt linker (fun system => linker.dlopen system none [.RTLD_GLOBAL]) thread with
  | (.ok Self, thread) =>
    let (Err, thread) := dlErr Err thread
    let (found, thread) := attempt linker (fun system => linker.dlsym system Self (cStr Name)) thread
    let (Err, thread) := dlErr Err thread
    -- Only an empty string is handed on.
    let (Err, thread) := if Err = some [] then dlClose linker Self.pointer Err thread
      else (Err, (dlClose linker Self.pointer none thread).2)
    match found with
    | .ok Sym => (Sym, Err, thread)
    | .error _ => (0, Err, thread)
  | (.error _, thread) =>
    let (Err, thread) := dlErr Err thread
    (0, Err, thread)

/-- What a call asks for. -/
inductive Action where
  | open (Path : Bytes)
  | sym (Name : Bytes)
  | close (Lib : UInt64)

/-- A call, with its string if it has one. -/
structure Call where
  action : Action
  Err : Option Bytes

/-- A call leaves a text in its string. -/
def perform (linker : Linker σ) (thread : Thread σ) (call : Call) : Option Bytes × Thread σ :=
  match call.action with
  | .open Path => (dlOpen linker Path call.Err thread).2
  | .sym Name => (dlSym linker Name call.Err thread).2
  | .close Lib => dlClose linker Lib call.Err thread

/-- The errors that the operations of a call raise, and the state that they lead to. -/
structure Raised (σ : Type*) where
  /-- The error of the operation that the call is made for. -/
  first : Option Message
  /-- The error of closing what `DLSym` has opened, if it has opened anything. -/
  closing : Option (Option Message)
  system : σ

/-- The error of an operation. -/
def failure : Except Message ρ → Option Message
  | .ok _ => none
  | .error message => some message

/-- What the operations of a call raise. -/
def raised (linker : Linker σ) (system : σ) : Action → Raised σ
  | .open Path =>
    let (Lib, system) := linker.dlopen system (some (cStr Path)) [.RTLD_LAZY, .RTLD_GLOBAL]
    ⟨failure Lib, none, system⟩
  | .sym Name =>
    match linker.dlopen system none [.RTLD_GLOBAL] with
    | (.ok Self, system) =>
      let (found, system) := linker.dlsym system Self (cStr Name)
      let (closed, system) := linker.dlclose system Self.pointer
      ⟨failure found, some (failure closed), system⟩
    | (.error message, system) => ⟨some message, none, system⟩
  | .close Lib =>
    let (closed, system) := linker.dlclose system Lib
    ⟨failure closed, none, system⟩

/-- The error of a call. That of closing counts when there is no other. -/
def Raised.own (raised : Raised σ) : Option Message := raised.first.or raised.closing.join

/-- The error that the operations of a call leave, when nothing asks for it. -/
def remaining (linker : Linker σ) (raised : Raised σ) (before : Option Message) : Option Message :=
  match raised.closing with
  | none => raised.first.or (linker.kept before)
  | some closing => closing.or (linker.kept (raised.first.or (linker.kept before)))

/-- What a string contains when an error is reported in it. -/
def reported (error : Option Message) (text : Bytes) : Bytes := (error.map Message.text).getD text

/-- What a call does to the string and to the error of the thread. -/
def settle (linker : Linker σ) (raised : Raised σ) (before : Option Message) :
    Option Bytes → Option Bytes × Thread σ
  | none => (none, ⟨raised.system, remaining linker raised before⟩)
  | some text =>
    let asked := raised.first.or (linker.kept before)
    if asked = none ∧ text = [] then
      (some (reported raised.closing.join text), ⟨raised.system, none⟩)
    else (some (reported asked text), ⟨raised.system, raised.closing.join⟩)

section Settling

variable {linker : Linker σ}

/-- Nothing is kept of no error. -/
@[simp] theorem kept_none (linker : Linker σ) : linker.kept none = none := by simp [Linker.kept]

/-- What is kept once is kept again. -/
@[simp] theorem kept_kept (linker : Linker σ) (error : Option Message) :
    linker.kept (linker.kept error) = linker.kept error := by
  cases forgets : linker.forgets <;> simp [Linker.kept, forgets]

/-- An attempt has the result of the operation. -/
theorem attempt_eq (operation : σ → Except Message ρ × σ) (thread : Thread σ) :
    attempt linker operation thread = ((operation thread.system).1,
      ⟨(operation thread.system).2,
        (failure (operation thread.system).1).or (linker.kept thread.error)⟩) := by
  unfold attempt
  split
  · next result system performed => simp [performed, failure]
  · next message system performed => simp [performed, failure]

/-- A string gets the error of the thread, which is removed. -/
theorem dlErr_some (text : Bytes) (thread : Thread σ) :
    dlErr (some text) thread = (some (reported thread.error text), ⟨thread.system, none⟩) := by
  cases error : thread.error <;> simp [dlErr, dlerror, error, reported]

/-- Without a string nothing happens. -/
theorem dlErr_none (thread : Thread σ) : dlErr none thread = (none, thread) := rfl

/-- A string is empty after a report exactly when it was and there is no error. -/
theorem reported_eq_nil_iff (error : Option Message) (text : Bytes) :
    reported error text = [] ↔ error = none ∧ text = [] := by
  cases error with
  | none => simp [reported]
  | some message => simp [reported, message.nonempty]

/-- A later error is reported instead of an earlier one. -/
theorem reported_reported (later earlier : Option Message) (text : Bytes) :
    reported later (reported earlier text) = reported (later.or earlier) text := by
  cases later <;> rfl

/-- `DLSym` reports the error of opening, if opening fails. -/
theorem dlSym_unopened {thread : Thread σ} {system : σ} {message : Message}
    (opened : linker.dlopen thread.system none [.RTLD_GLOBAL] = (.error message, system))
    (Name : Bytes) (Err : Option Bytes) :
    (dlSym linker Name Err thread).2 = dlErr Err ⟨system, some message⟩ := by
  simp [dlSym, attempt_eq, opened, failure]

/-- `DLSym` asks for an error after opening and after searching. It asks after closing if the
string is empty then. -/
theorem dlSym_opened {thread : Thread σ} {system searched : σ} {Self : Handle} {Name : Bytes}
    {found : Except Message UInt64}
    (opened : linker.dlopen thread.system none [.RTLD_GLOBAL] = (.ok Self, system))
    (search : linker.dlsym system Self (cStr Name) = (found, searched)) (Err : Option Bytes) :
    (dlSym linker Name Err thread).2 =
      let (Err, asked) := dlErr Err ⟨system, linker.kept thread.error⟩
      let (Err, asked) := dlErr Err ⟨searched, (failure found).or (linker.kept asked.error)⟩
      if Err = some [] then dlClose linker Self.pointer Err asked
      else (Err, (dlClose linker Self.pointer none asked).2) := by
  cases found <;> cases Err <;>
    simp [dlSym, attempt_eq, opened, search, dlErr_none, dlErr_some, failure]

/-- A call that closes nothing asks once. -/
theorem settle_once (first before : Option Message) (system : σ) (Err : Option Bytes) :
    settle linker ⟨first, none, system⟩ before Err =
      dlErr Err ⟨system, first.or (linker.kept before)⟩ := by
  cases Err with
  | none => rfl
  | some text =>
    rw [dlErr_some, settle]
    split
    · next empty => rw [empty.1, Option.join_none]
    · rfl

/-- `DLSym` settles its errors. -/
theorem dlSym_settles (Name : Bytes) (Err : Option Bytes) (thread : Thread σ) :
    (dlSym linker Name Err thread).2 =
      settle linker (raised linker thread.system (.sym Name)) thread.error Err := by
  rcases opened : linker.dlopen thread.system none [.RTLD_GLOBAL] with ⟨message | Self, system⟩
  · rw [dlSym_unopened opened]
    simp only [raised, opened, settle_once, Option.some_or]
  · rcases search : linker.dlsym system Self (cStr Name) with ⟨found, searched⟩
    rcases close : linker.dlclose searched Self.pointer with ⟨closed, system⟩
    rw [dlSym_opened opened search]
    cases Err with
    | none =>
      simp [settle, remaining, raised, opened, search, close, dlErr_none, dlClose, attempt_eq]
    | some text =>
      simp only [settle, raised, opened, search, close, dlErr_some, dlClose, attempt_eq,
        reported_reported, kept_none, Option.or_none, Option.some.injEq, reported_eq_nil_iff,
        Option.join_some]
      split
      · next empty => simp [empty]
      · rfl

/-- Every call settles its errors. -/
theorem perform_settles (linker : Linker σ) (thread : Thread σ) (call : Call) :
    perform linker thread call =
      settle linker (raised linker thread.system call.action) thread.error call.Err := by
  obtain ⟨action, Err⟩ := call
  cases action with
  | «open» Path =>
    simp only [perform, dlOpen, attempt_eq, raised, settle_once]
    split <;> rfl
  | sym Name => exact dlSym_settles Name Err thread
  | close Lib => simp only [perform, dlClose, attempt_eq, raised, settle_once]

end Settling

/-- The thread after some calls. -/
def run (linker : Linker σ) (thread : Thread σ) (calls : List Call) : Thread σ :=
  calls.foldl (fun thread call => (perform linker thread call).2) thread

/-- Each call reports its own errors only, and leaves none behind. -/
def Isolated (linker : Linker σ) : Thread σ → List Call → Prop
  | _, [] => True
  | thread, call :: calls =>
    ((perform linker thread call).1 =
        call.Err.map (reported (raised linker thread.system call.action).own) ∧
      (perform linker thread call).2.error = none) ∧
      Isolated linker (perform linker thread call).2 calls

/-- No error remains of a call without a string. A call with one closes what it has opened,
unless failing to is its only error and the string is empty. -/
def Clean (linker : Linker σ) (system : σ) (call : Call) : Prop :=
  match call.Err with
  | none => remaining linker (raised linker system call.action) none = none
  | some text =>
    (raised linker system call.action).closing.join = none ∨
      (raised linker system call.action).first = none ∧ text = []

/-- All calls are clean in the states of the linker in which they are made. -/
def AllClean (linker : Linker σ) : σ → List Call → Prop
  | _, [] => True
  | system, call :: calls =>
    Clean linker system call ∧ AllClean linker (raised linker system call.action).system calls

/-- Some calls have no string and raise no error, and the linker keeps the one before. -/
def Silent (linker : Linker σ) : σ → List Call → Prop
  | _, [] => True
  | system, call :: calls =>
    (call.Err = none ∧ linker.forgets = false ∧ (raised linker system call.action).own = none) ∧
      Silent linker (raised linker system call.action).system calls

/-- The error that a call raises and does not ask for. -/
def left (linker : Linker σ) (thread : Thread σ) (call : Call) : Option Message :=
  let raised := raised linker thread.system call.action
  match call.Err with
  | none => remaining linker raised none
  | some text =>
    if raised.first.or (linker.kept thread.error) = none ∧ text = [] then none
    else raised.closing.join

section Sessions

variable (linker : Linker σ)

/-- Errors are settled in the state that the operations lead to. -/
theorem settle_system (errors : Raised σ) (before : Option Message) (Err : Option Bytes) :
    (settle linker errors before Err).2.system = errors.system := by
  cases Err with
  | none => rfl
  | some text =>
    simp only [settle]
    split <;> rfl

/-- Errors settled without any before are the own ones, and none is left, if they are clean. -/
theorem settle_isolated_iff (errors : Raised σ) (Err : Option Bytes) :
    ((settle linker errors none Err).1 = Err.map (reported errors.own) ∧
      (settle linker errors none Err).2.error = none) ↔
      match Err with
      | none => remaining linker errors none = none
      | some text => errors.closing.join = none ∨ errors.first = none ∧ text = [] := by
  obtain ⟨first, closing, system⟩ := errors
  cases Err with
  | none => simp [settle]
  | some text =>
    cases first with
    | some message => simp [settle, Raised.own, reported]
    | none =>
      by_cases empty : text = []
      · simp [settle, Raised.own, empty]
      · cases failed : closing.join <;> simp [settle, Raised.own, empty, failed]

/-- From a thread without an error, all calls are isolated exactly when all are clean. -/
theorem sessions_isolated_iff (system : σ) (calls : List Call) :
    Isolated linker ⟨system, none⟩ calls ↔ AllClean linker system calls := by
  induction calls generalizing system with
  | nil => exact Iff.rfl
  | cons call calls inductionHypothesis =>
    have settled := perform_settles linker ⟨system, none⟩ call
    have after : (perform linker ⟨system, none⟩ call).2.system =
        (raised linker system call.action).system := by
      rw [settled, settle_system]
    have here : ((perform linker ⟨system, none⟩ call).1 =
          call.Err.map (reported (raised linker system call.action).own) ∧
        (perform linker ⟨system, none⟩ call).2.error = none) ↔ Clean linker system call := by
      rw [settled]
      exact settle_isolated_iff linker (raised linker system call.action) call.Err
    rw [AllClean, ← here, ← after, Isolated]
    apply and_congr_right
    rintro ⟨-, settledError⟩
    generalize (perform linker ⟨system, none⟩ call).2 = thread at settledError ⊢
    obtain ⟨next, error⟩ := thread
    obtain rfl : error = none := settledError
    exact inductionHypothesis next

/-- What remains of errors is their own, or else what is kept of the one before. -/
theorem remaining_eq (errors : Raised σ) (before : Option Message) :
    remaining linker errors before = (remaining linker errors none).or (linker.kept before) := by
  obtain ⟨first, closing, system⟩ := errors
  cases closing with
  | none => simp [remaining]
  | some closing =>
    cases forgets : linker.forgets <;> simp [remaining, Linker.kept, forgets, Option.or_assoc]

/-- Behind a call, the error of the thread is the one that it has left. An error before it is
kept without a string only. -/
theorem perform_error (thread : Thread σ) (call : Call) :
    (perform linker thread call).2.error =
      (left linker thread call).or (if call.Err = none then linker.kept thread.error else none) := by
  obtain ⟨action, Err⟩ := call
  rw [perform_settles]
  cases Err with
  | none => exact remaining_eq linker _ _
  | some text =>
    simp only [settle, left]
    split <;> simp

/-- A call without a string leaves no error to a linker that keeps errors exactly when it
raises none. -/
theorem left_silent {thread : Thread σ} {call : Call} (given : call.Err = none)
    (keeps : linker.forgets = false) : left linker thread call = none ↔
      (raised linker thread.system call.action).own = none := by
  obtain ⟨action, Err⟩ := call
  obtain rfl : Err = none := given
  rcases errors : raised linker thread.system action with ⟨first, _ | closing, system⟩
  · simp [left, errors, remaining, Raised.own]
  · simp [left, errors, remaining, Raised.own, Linker.kept, keeps, and_comm]

/-- An error waits behind some calls if it has waited before silent ones, or if one of the calls
has left it and the later ones are silent. -/
theorem error_waits (thread : Thread σ) (calls : List Call) (message : Message) :
    (run linker thread calls).error = some message ↔
      (Silent linker thread.system calls ∧ thread.error = some message) ∨
      ∃ front culprit between, calls = front ++ culprit :: between ∧
        left linker (run linker thread front) culprit = some message ∧
        Silent linker (run linker thread (front ++ [culprit])).system between := by
  induction calls generalizing thread with
  | nil => simp [run, Silent]
  | cons call calls inductionHypothesis =>
    have step : run linker thread (call :: calls) = run linker (perform linker thread call).2 calls := rfl
    have after : (perform linker thread call).2.system =
        (raised linker thread.system call.action).system := by
      rw [perform_settles, settle_system]
    rw [step, inductionHypothesis, perform_error, after]
    constructor
    · rintro (⟨silent, waits⟩ | ⟨front, culprit, between, rfl, leaves, silent⟩)
      · cases leaves : left linker thread call with
        | some own =>
          rw [leaves, Option.some_or] at waits
          exact .inr ⟨[], call, calls, rfl, leaves.trans waits, by rwa [← after] at silent⟩
        | none =>
          rw [leaves, Option.none_or] at waits
          cases forgets : linker.forgets with
          | true => simp [Linker.kept, forgets] at waits
          | false =>
            simp only [Linker.kept, forgets, Bool.false_eq_true, ↓reduceIte] at waits
            split at waits
            · next given =>
              exact .inl ⟨⟨⟨given, forgets, (left_silent linker given forgets).mp leaves⟩, silent⟩, waits⟩
            · cases waits
      · exact .inr ⟨call :: front, culprit, between, rfl, leaves, silent⟩
    · rintro (⟨⟨⟨given, keeps, raises⟩, silent⟩, waits⟩ |
        ⟨front, culprit, between, split, leaves, silent⟩)
      · refine .inl ⟨silent, ?_⟩
        rw [(left_silent linker given keeps).mpr raises, if_pos given, waits]
        simp [Linker.kept, keeps]
      · cases front with
        | nil =>
          obtain ⟨rfl, rfl⟩ := List.cons.inj split
          have silent : Silent linker (perform linker thread call).2.system calls := silent
          rw [after] at silent
          have leaves : left linker thread call = some message := leaves
          exact .inl ⟨silent, by rw [leaves, Option.some_or]⟩
        | cons first front =>
          obtain ⟨rfl, rfl⟩ := List.cons.inj split
          exact .inr ⟨front, culprit, between, rfl, leaves, silent⟩

/-- After calls from a thread without an error, an error waits exactly when one of the calls has
left it and the later ones are silent. If the linker keeps it, the next call with a string
reports it as its own, unless it raises an error itself. -/
theorem waiting_error_reported (system : σ) (calls : List Call) (message : Message) :
    ((run linker ⟨system, none⟩ calls).error = some message ↔
      ∃ front culprit between, calls = front ++ culprit :: between ∧
        left linker (run linker ⟨system, none⟩ front) culprit = some message ∧
        Silent linker (run linker ⟨system, none⟩ (front ++ [culprit])).system between) ∧
    ((run linker ⟨system, none⟩ calls).error = some message → linker.forgets = false →
      ∀ action text,
        (raised linker (run linker ⟨system, none⟩ calls).system action).first = none →
        (perform linker (run linker ⟨system, none⟩ calls) ⟨action, some text⟩).1 =
          some message.text) := by
  constructor
  · rw [error_waits]
    simp only [reduceCtorEq, and_false, false_or]
  · intro waits keeps action text succeeds
    rw [perform_settles]
    simp [settle, succeeds, waits, reported, Linker.kept, keeps]

/-- The linker asks for one of the two modes of binding. -/
def Linker.Strict (linker : Linker σ) : Prop :=
  ∀ system path mode, .RTLD_LAZY ∉ mode → .RTLD_NOW ∉ mode →
    ∃ message next, linker.dlopen system path mode = (.error message, next)

/-- `DLSym` gives no mode of binding. So it finds nothing, and raises the error of opening. -/
theorem strict_finds_nothing {linker : Linker σ} (strict : linker.Strict) (Name : Bytes)
    (Err : Option Bytes) (thread : Thread σ) :
    (dlSym linker Name Err thread).1 = 0 ∧
      ∃ message next, raised linker thread.system (.sym Name) = ⟨some message, none, next⟩ := by
  obtain ⟨message, next, refused⟩ := strict thread.system none [.RTLD_GLOBAL] (by decide) (by decide)
  exact ⟨by simp [dlSym, attempt_eq, refused], message, next, by simp [raised, refused]⟩

/-- With such a linker, a call is clean exactly when it has a string or raises no error. -/
theorem strict_clean_iff {linker : Linker σ} (strict : linker.Strict) (system : σ) (call : Call) :
    Clean linker system call ↔ (call.Err = none → (raised linker system call.action).own = none) := by
  have nothing : (raised linker system call.action).closing = none := by
    rcases call with ⟨Path | Name | Lib, Err⟩
    · rfl
    · obtain ⟨-, message, next, errors⟩ := strict_finds_nothing strict Name none ⟨system, none⟩
      rw [errors]
    · rfl
  obtain ⟨action, Err⟩ := call
  cases Err <;> simp [Clean, remaining, Raised.own, nothing]

end Sessions

end CppInterpreter.DynamicLinking
