import CppInterpreter.PushedTransactions
import CppInterpreter.StateFiles

/-!
# Scopes of the interpreter

Three kinds of objects act at the beginning and at the end of a scope. A
`PushTransactionRAII` begins a transaction, and pops it at the end unless it is rolled back
by then. An `InputFlagsRAII` exchanges the input flags and puts the old ones back. A
`StateDebuggerRAII` stores the state of the compiler while debug printing is on, each time
within a transaction of its own; at the end of its scope it compares what it has stored,
whether or not printing is still on.

Scopes end in the reverse order of their beginnings. While they are open, a program may pop
a transaction explicitly, and the state of a transaction may change in any way. The flags
and the temporary files are put back all the same. The open transactions are those of the
open scopes as long as no explicit pop ends one, and no scope ends without ending its own.
-/

namespace CppInterpreter.InterpreterScopes

open Bytes ClangInternalState Runs
open PushTransactionRAII (IncrementalParser ParserCall committingParser)

/-- What happens to transactions and states, in order. -/
inductive Event where
  | beginTransaction
  | request (call : ParserCall)
  | stored
  | compared
  | destroyed
deriving DecidableEq, Repr

/-- An object that lives until the end of its scope. A transaction is kept with its state. -/
inductive Frame where
  | pushTransaction (transaction : TransactionState)
  | inputFlags (oldFlags : UInt32)
  | stateDebugger (state : Option Stored)
deriving DecidableEq, Repr

/-- The interpreter with its open scopes, the innermost first. -/
structure Interpreter where
  printDebug : Bool
  inputFlags : UInt32
  world : World
  compared : List (Comparison × Bool)
  frames : List Frame
  events : List Event
deriving DecidableEq, Repr

/-- Scopes are entered and left. In between, the transaction of any open scope may be popped,
or get another state from outside. -/
inductive Step where
  | enablePrintDebug (print : Bool)
  | pushTransaction
  | inputFlags (flags : UInt32)
  | stateDebugger (hasModule : Bool)
  | pop (scope : Nat)
  | setState (scope : Nat) (state : TransactionState)
  | leave
deriving DecidableEq, Repr

/-- Pop a transaction: the state that it gets, and the requests to the parser. -/
def popped (parser : IncrementalParser) (transaction : TransactionState) :
    TransactionState × List Event :=
  let pushed := PushTransactionRAII.pop parser ⟨transaction, []⟩
  (pushed.transaction, pushed.calls.map .request)

/-- A debugger stores a state within a transaction, which is collecting when it begins. -/
def storing (parser : IncrementalParser) : List Event :=
  [.beginTransaction, .stored] ++ (popped parser .kCollecting).2

/-- A debugger compares and destroys its state within a transaction. -/
def comparing (parser : IncrementalParser) : List Event :=
  [.beginTransaction, .compared, .destroyed] ++ (popped parser .kCollecting).2

/-- The constructor of `StateDebuggerRAII`. -/
def enterDebugger (parser : IncrementalParser) (env : Environment) (hasModule : Bool)
    (interpreter : Interpreter) : Except Fault Interpreter :=
  if interpreter.printDebug then
    (construct env hasModule interpreter.world).map fun (state, world) =>
      { interpreter with
        world := world
        frames := .stateDebugger (some state) :: interpreter.frames
        events := interpreter.events ++ storing parser }
  else .ok { interpreter with frames := .stateDebugger none :: interpreter.frames }

/-- The destructor of `StateDebuggerRAII` with a stored state. -/
def leaveDebugger (parser : IncrementalParser) (env : Environment) (state : Stored)
    (outer : List Frame) (interpreter : Interpreter) : Except Fault Interpreter :=
  (compare env state interpreter.world).map fun (state, world, found) =>
    { interpreter with
      world := destroy state world
      compared := interpreter.compared ++
        found.map fun comparison => (comparison, comparison.readable world)
      frames := outer
      events := interpreter.events ++ comparing parser }

/-- Change the transaction of an open scope. There is none but that of a `PushTransactionRAII`. -/
def atTransaction (interpreter : Interpreter) (scope : Nat)
    (change : TransactionState → TransactionState × List Event) : Except Fault Interpreter :=
  match interpreter.frames[scope]? with
  | some (.pushTransaction transaction) => .ok { interpreter with
      frames := interpreter.frames.set scope (.pushTransaction (change transaction).1)
      events := interpreter.events ++ (change transaction).2 }
  | _ => .error (.noObject scope)

/-- One step of a program. There is no scope to leave but an open one. -/
def perform (parser : IncrementalParser) (env : Environment) (interpreter : Interpreter) :
    Step → Except Fault Interpreter
  | .enablePrintDebug print => .ok { interpreter with printDebug := print }
  | .pushTransaction => .ok { interpreter with
      frames := .pushTransaction .kCollecting :: interpreter.frames
      events := interpreter.events ++ [.beginTransaction] }
  | .inputFlags flags => .ok { interpreter with
      inputFlags := flags
      frames := .inputFlags interpreter.inputFlags :: interpreter.frames }
  | .stateDebugger hasModule => enterDebugger parser env hasModule interpreter
  | .pop scope => atTransaction interpreter scope (popped parser)
  | .setState scope state => atTransaction interpreter scope fun _ => (state, [])
  | .leave =>
    match interpreter.frames with
    | [] => .error (.noObject 0)
    | .pushTransaction transaction :: outer => .ok { interpreter with
        frames := outer
        events := interpreter.events ++ (popped parser transaction).2 }
    | .inputFlags oldFlags :: outer => .ok { interpreter with
        inputFlags := oldFlags
        frames := outer }
    | .stateDebugger none :: outer => .ok { interpreter with frames := outer }
    | .stateDebugger (some state) :: outer => leaveDebugger parser env state outer interpreter

/-- A sequence of steps, up to the first fault. -/
def performAll (parser : IncrementalParser) (env : Environment) :
    Interpreter → List Step → Except Fault Interpreter
  | interpreter, [] => .ok interpreter
  | interpreter, step :: rest =>
    perform parser env interpreter step >>= (performAll parser env · rest)

/-- A step as an action of a run, which a fault ends. -/
def untilFault (parser : IncrementalParser) (env : Environment) (interpreter : Interpreter)
    (step : Step) : Outcome Interpreter Empty :=
  match perform parser env interpreter step with
  | .error _ => .ends
  | .ok next => .continues next

/-- No open scope, and some files of others. -/
def Interpreter.initial (printDebug : Bool) (flags : UInt32) (others : List Bytes) : Interpreter :=
  ⟨printDebug, flags, ⟨others, 0, []⟩, [], [], []⟩

/-- The state that a debugger has stored. -/
def Frame.stored? : Frame → Option Stored
  | .stateDebugger state => state
  | .pushTransaction _ | .inputFlags _ => none

/-- A scope has a transaction. -/
def Frame.isPushed : Frame → Bool
  | .pushTransaction _ => true
  | .inputFlags _ | .stateDebugger _ => false

/-- The states that the open debuggers have stored. -/
def storedStates (frames : List Frame) : List Stored := frames.filterMap Frame.stored?

/-- The number of open scopes that have a transaction. -/
def pushedScopes (frames : List Frame) : Nat := frames.countP Frame.isPushed

/-- The flags that are left when all open scopes end. -/
def outerFlags : List Frame → UInt32 → UInt32
  | [], flags => flags
  | .inputFlags oldFlags :: outer, _ => outerFlags outer oldFlags
  | .pushTransaction _ :: outer, flags | .stateDebugger _ :: outer, flags => outerFlags outer flags

/-- The number of open transactions after some events. A state is stored, compared or
destroyed within a transaction only, and no transaction ends that has not begun. -/
def openAfter : List Event → Nat → Option Nat
  | [], open_ => some open_
  | .beginTransaction :: rest, open_ => openAfter rest (open_ + 1)
  | .request (.commitTransaction _) :: rest, open_ => openAfter rest open_
  | .request (.endTransaction _) :: rest, open_ + 1 => openAfter rest open_
  | .stored :: rest, open_ + 1 | .compared :: rest, open_ + 1 | .destroyed :: rest, open_ + 1 =>
    openAfter rest (open_ + 1)
  | _ :: _, 0 => none

/-- The states of the debuggers, as live objects of a program. -/
def Interpreter.session (interpreter : Interpreter) : Session :=
  ⟨interpreter.world, storedStates interpreter.frames, interpreter.compared⟩

/-- The flags are restored by the open scopes, and the stored states that have not been compared
are those of the open scopes. -/
structure Nested (flags : UInt32) (interpreter : Interpreter) : Prop where
  flags : outerFlags interpreter.frames interpreter.inputFlags = flags
  comparisons : interpreter.events.count .stored =
    interpreter.events.count .compared + (storedStates interpreter.frames).length

/-- The open transactions are those of the open scopes. -/
def Balanced (interpreter : Interpreter) : Prop :=
  openAfter interpreter.events 0 = some (pushedScopes interpreter.frames)

/-- A transaction is popped explicitly only after it was rolled back, and no scope is left whose
transaction was. -/
def Undisturbed (interpreter : Interpreter) : Step → Prop
  | .pop scope => ∀ transaction, interpreter.frames[scope]? = some (.pushTransaction transaction) →
      transaction = .kRolledBack
  | .leave => ∀ outer, interpreter.frames ≠ .pushTransaction .kRolledBack :: outer
  | .enablePrintDebug _ | .pushTransaction | .inputFlags _ | .stateDebugger _ | .setState _ _ => True

section Events

variable {parser : IncrementalParser} {transaction : TransactionState}

/-- Events are counted one after the other. -/
theorem openAfter_append (first second : List Event) (open_ : Nat) :
    openAfter (first ++ second) open_ = (openAfter first open_).bind (openAfter second) := by
  induction first generalizing open_ with
  | nil => rfl
  | cons event rest inductionHypothesis =>
    cases event with
    | request call => cases call <;> cases open_ <;> simp [openAfter, inductionHypothesis]
    | beginTransaction | stored | compared | destroyed =>
      cases open_ <;> simp [openAfter, inductionHypothesis]

/-- Popping a transaction that is rolled back asks nothing of the parser. -/
theorem popped_rolledBack : popped parser .kRolledBack = (.kRolledBack, []) := by
  rw [popped, PushTransactionRAII.pop_rolledBack rfl]
  rfl

/-- Popping any other transaction ends it, and may commit it. -/
theorem popped_other (other : transaction ≠ .kRolledBack) :
    (popped parser transaction).2 = [.request (.endTransaction transaction)] ∨
      ∃ ended, (popped parser transaction).2 =
        [.request (.endTransaction transaction), .request (.commitTransaction ended)] := by
  rw [popped, PushTransactionRAII.pop, if_neg other]
  obtain ⟨ended, returned⟩ := parser.endTransaction transaction
  cases returned with
  | false => exact .inl rfl
  | true => exact .inr ⟨ended, rfl⟩

/-- One open transaction fewer is left by the requests of a pop. -/
theorem openAfter_popped (other : transaction ≠ .kRolledBack) (open_ : Nat) :
    openAfter (popped parser transaction).2 (open_ + 1) = some open_ := by
  rcases popped_other other with requests | ⟨ended, requests⟩
  · rw [requests]
    rfl
  · rw [requests]
    rfl

/-- Requests to the parser neither store nor compare. -/
theorem popped_states : (popped parser transaction).2.count .stored = 0 ∧
    (popped parser transaction).2.count .compared = 0 := by
  simp [popped, List.count_eq_zero]

end Events

section Frames

variable {frames : List Frame} {scope : Nat} {transaction : TransactionState}

@[simp] theorem storedStates_pushed :
    storedStates (.pushTransaction transaction :: frames) = storedStates frames := rfl

@[simp] theorem storedStates_flags {oldFlags : UInt32} :
    storedStates (.inputFlags oldFlags :: frames) = storedStates frames := rfl

@[simp] theorem storedStates_silent :
    storedStates (.stateDebugger none :: frames) = storedStates frames := rfl

@[simp] theorem storedStates_stored {state : Stored} :
    storedStates (.stateDebugger (some state) :: frames) = state :: storedStates frames := rfl

@[simp] theorem pushedScopes_pushed :
    pushedScopes (.pushTransaction transaction :: frames) = pushedScopes frames + 1 :=
  List.countP_cons_of_pos rfl

@[simp] theorem pushedScopes_flags {oldFlags : UInt32} :
    pushedScopes (.inputFlags oldFlags :: frames) = pushedScopes frames :=
  List.countP_cons_of_neg Bool.false_ne_true

@[simp] theorem pushedScopes_debugger {state : Option Stored} :
    pushedScopes (.stateDebugger state :: frames) = pushedScopes frames :=
  List.countP_cons_of_neg Bool.false_ne_true

/-- Another state of a transaction leaves the frames alike. -/
theorem alike_set (present : frames[scope]? = some (.pushTransaction transaction))
    (state : TransactionState) (flags : UInt32) :
    storedStates (frames.set scope (.pushTransaction state)) = storedStates frames ∧
      pushedScopes (frames.set scope (.pushTransaction state)) = pushedScopes frames ∧
      outerFlags (frames.set scope (.pushTransaction state)) flags = outerFlags frames flags := by
  induction frames generalizing scope flags with
  | nil => simp at present
  | cons frame outer inductionHypothesis =>
    cases scope with
    | zero =>
      obtain rfl : frame = .pushTransaction transaction := by simpa using present
      exact ⟨rfl, rfl, rfl⟩
    | succ scope =>
      have behind : outer[scope]? = some (.pushTransaction transaction) := by simpa using present
      obtain ⟨stored, pushed, _⟩ := inductionHypothesis behind flags
      have restored (flags : UInt32) := (inductionHypothesis behind flags).2.2
      rw [List.set_cons_succ]
      cases frame with
      | pushTransaction | inputFlags => simp [outerFlags, stored, pushed, restored]
      | stateDebugger state => cases state <;> simp [outerFlags, stored, pushed, restored]

/-- An open scope with a transaction is counted. -/
theorem pushedScopes_pos (present : frames[scope]? = some (.pushTransaction transaction)) :
    0 < pushedScopes frames :=
  List.countP_pos_iff.mpr ⟨_, List.mem_of_getElem? present, rfl⟩

end Frames

section Steps

variable {parser : IncrementalParser} {env : Environment} {others : List Bytes} {flags : UInt32}
  {interpreter next : Interpreter} {scope : Nat}
  {change : TransactionState → TransactionState × List Event}

/-- A debugger that prints is one more live object. -/
theorem enterDebugger_constructs {hasModule : Bool} (printing : interpreter.printDebug = true)
    (entered : enterDebugger parser env hasModule interpreter = .ok next) :
    ClangInternalState.perform env interpreter.session (.construct hasModule) = .ok next.session ∧
      ∃ state, next = { interpreter with
        world := next.world
        frames := .stateDebugger (some state) :: interpreter.frames
        events := interpreter.events ++ storing parser } := by
  rw [enterDebugger, if_pos printing] at entered
  cases constructed : construct env hasModule interpreter.world with
  | error fault => simp [constructed, Except.map] at entered
  | ok result =>
    obtain ⟨state, world⟩ := result
    simp only [constructed, Except.map, Except.ok.injEq] at entered
    subst entered
    refine ⟨?_, state, rfl⟩
    simp only [ClangInternalState.perform, Interpreter.session, constructed, Except.map]
    rfl

/-- A debugger that does not print is kept without a state. -/
theorem enterDebugger_silent {hasModule : Bool} (silent : interpreter.printDebug = false)
    (entered : enterDebugger parser env hasModule interpreter = .ok next) :
    next = { interpreter with frames := .stateDebugger none :: interpreter.frames } := by
  rw [enterDebugger, if_neg (by simp [silent])] at entered
  exact (Except.ok.inj entered).symm

/-- A debugger that has stored a state compares and destroys it. -/
theorem leaveDebugger_destroys {state : Stored} {outer : List Frame}
    (innermost : interpreter.frames = .stateDebugger (some state) :: outer)
    (left : leaveDebugger parser env state outer interpreter = .ok next) :
    ClangInternalState.performAll env interpreter.session [.compare 0, .destroy 0] =
        .ok next.session ∧
      next = { interpreter with
        world := next.world
        compared := next.compared
        frames := outer
        events := interpreter.events ++ comparing parser } := by
  have live : storedStates interpreter.frames = state :: storedStates outer := by
    rw [innermost, storedStates_stored]
  rw [leaveDebugger] at left
  cases compared : compare env state interpreter.world with
  | error fault => simp [compared, Except.map] at left
  | ok result =>
    obtain ⟨changed, world, found⟩ := result
    simp only [compared, Except.map, Except.ok.injEq] at left
    subst left
    refine ⟨?_, rfl⟩
    simp only [ClangInternalState.performAll, ClangInternalState.perform, Interpreter.session, live,
      List.getElem?_cons_zero, compared, Except.map, bind, Except.bind, List.set_cons_zero]
    rfl

/-- A transaction is changed in an open scope that has one. -/
theorem atTransaction_ok (changed : atTransaction interpreter scope change = .ok next) :
    ∃ transaction, interpreter.frames[scope]? = some (.pushTransaction transaction) ∧
      next = { interpreter with
        frames := interpreter.frames.set scope (.pushTransaction (change transaction).1)
        events := interpreter.events ++ (change transaction).2 } := by
  unfold atTransaction at changed
  split at changed
  · next transaction present => exact ⟨transaction, present, (Except.ok.inj changed).symm⟩
  · cases changed

/-- Leaving a scope ends the innermost one. -/
theorem leave_cases (left : perform parser env interpreter .leave = .ok next) :
    (∃ transaction outer, interpreter.frames = .pushTransaction transaction :: outer ∧
      next = { interpreter with
        frames := outer
        events := interpreter.events ++ (popped parser transaction).2 }) ∨
    (∃ oldFlags outer, interpreter.frames = .inputFlags oldFlags :: outer ∧
      next = { interpreter with inputFlags := oldFlags, frames := outer }) ∨
    (∃ outer, interpreter.frames = .stateDebugger none :: outer ∧
      next = { interpreter with frames := outer }) ∨
    (∃ state outer, interpreter.frames = .stateDebugger (some state) :: outer ∧
      leaveDebugger parser env state outer interpreter = .ok next) := by
  cases frames : interpreter.frames with
  | nil => simp [perform, frames] at left
  | cons frame outer =>
    simp only [perform, frames] at left
    cases frame with
    | pushTransaction transaction => exact .inl ⟨transaction, outer, rfl, (Except.ok.inj left).symm⟩
    | inputFlags oldFlags => exact .inr (.inl ⟨oldFlags, outer, rfl, (Except.ok.inj left).symm⟩)
    | stateDebugger state =>
      cases state with
      | none => exact .inr (.inr (.inl ⟨outer, rfl, (Except.ok.inj left).symm⟩))
      | some state => exact .inr (.inr (.inr ⟨state, outer, rfl, left⟩))

/-- Changing a transaction does not touch the debuggers. -/
theorem atTransaction_session (changed : atTransaction interpreter scope change = .ok next) :
    next.session = interpreter.session := by
  obtain ⟨transaction, present, rfl⟩ := atTransaction_ok changed
  rw [Interpreter.session, (alike_set present _ 0).1, Interpreter.session]

/-- Every step keeps the files of the debuggers accounted for. -/
theorem perform_sound {step : Step} (sound : Sound others interpreter.session)
    (performed : perform parser env interpreter step = .ok next) : Sound others next.session := by
  cases step with
  | enablePrintDebug print | pushTransaction | inputFlags flags =>
    obtain rfl := Except.ok.inj performed
    exact sound
  | stateDebugger hasModule =>
    cases printing : interpreter.printDebug with
    | true => exact construct_sound sound (enterDebugger_constructs printing performed).1
    | false =>
      obtain rfl := enterDebugger_silent printing performed
      exact sound
  | pop scope | setState scope state => rwa [atTransaction_session performed]
  | leave =>
    rcases leave_cases performed with ⟨_, outer, frames, rfl⟩ | ⟨_, outer, frames, rfl⟩ |
      ⟨outer, frames, rfl⟩ | ⟨state, outer, frames, left⟩
    · rwa [Interpreter.session, frames, storedStates_pushed] at sound
    · rwa [Interpreter.session, frames, storedStates_flags] at sound
    · rwa [Interpreter.session, frames, storedStates_silent] at sound
    · exact performAll_sound sound (leaveDebugger_destroys frames left).1

/-- Requests of a pop do not change how often states are stored and compared. -/
theorem nested_popped {transaction : TransactionState} {frames : List Frame}
    (nested : Nested flags interpreter)
    (restored : outerFlags frames interpreter.inputFlags = flags)
    (stored : storedStates frames = storedStates interpreter.frames) :
    Nested flags { interpreter with
      frames
      events := interpreter.events ++ (popped parser transaction).2 } := by
  obtain ⟨_, comparisons⟩ := nested
  refine ⟨restored, ?_⟩
  simpa [popped_states, stored] using comparisons

/-- Every step keeps flags and comparisons nested. -/
theorem perform_nested {step : Step} (nested : Nested flags interpreter)
    (performed : perform parser env interpreter step = .ok next) : Nested flags next := by
  cases step with
  | pop scope =>
    obtain ⟨transaction, present, rfl⟩ := atTransaction_ok performed
    obtain ⟨stored, _, same⟩ := alike_set present (popped parser transaction).1 interpreter.inputFlags
    exact nested_popped nested (same.trans nested.flags) stored
  | setState scope state =>
    obtain ⟨transaction, present, rfl⟩ := atTransaction_ok performed
    obtain ⟨stored, _, same⟩ := alike_set present state interpreter.inputFlags
    exact ⟨same.trans nested.flags, by simpa [stored] using nested.comparisons⟩
  | enablePrintDebug print =>
    obtain rfl := Except.ok.inj performed
    exact ⟨nested.flags, nested.comparisons⟩
  | pushTransaction | inputFlags flags =>
    obtain rfl := Except.ok.inj performed
    exact ⟨nested.flags, by simpa using nested.comparisons⟩
  | stateDebugger hasModule =>
    cases printing : interpreter.printDebug with
    | true =>
      obtain ⟨_, state, entered⟩ := enterDebugger_constructs printing performed
      rw [entered]
      refine ⟨nested.flags, ?_⟩
      simp [storing, popped_states, nested.comparisons, Nat.add_assoc]
    | false =>
      obtain rfl := enterDebugger_silent printing performed
      exact ⟨nested.flags, by simpa using nested.comparisons⟩
  | leave =>
    have restored := nested.flags
    have comparisons := nested.comparisons
    rcases leave_cases performed with ⟨_, outer, frames, rfl⟩ | ⟨_, outer, frames, rfl⟩ |
      ⟨outer, frames, rfl⟩ | ⟨state, outer, frames, left⟩ <;> rw [frames] at restored comparisons
    · exact nested_popped nested restored (by rw [frames, storedStates_pushed])
    · exact ⟨restored, comparisons⟩
    · exact ⟨restored, comparisons⟩
    · rw [(leaveDebugger_destroys frames left).2]
      refine ⟨restored, ?_⟩
      have ended : (comparing parser).count .stored = 0 ∧ (comparing parser).count .compared = 1 := by
        simp [comparing, popped_states]
      rw [storedStates_stored, List.length_cons] at comparisons
      simp only [List.count_append, ended]
      omega

/-- Every sequence of steps keeps the files accounted for, and flags and comparisons nested. -/
theorem performAll_scopes {steps : List Step} (sound : Sound others interpreter.session)
    (nested : Nested flags interpreter)
    (performed : performAll parser env interpreter steps = .ok next) :
    Sound others next.session ∧ Nested flags next := by
  induction steps generalizing interpreter with
  | nil => exact Except.ok.inj performed ▸ ⟨sound, nested⟩
  | cons step rest inductionHypothesis =>
    obtain ⟨middle, first, later⟩ := bind_ok performed
    exact inductionHypothesis (perform_sound sound first) (perform_nested nested first) later

end Steps

section Balance

variable {parser : IncrementalParser} {env : Environment} {interpreter next : Interpreter}

/-- A balanced interpreter stays balanced when the events of a step change the number of open
transactions as the frames do. -/
theorem balanced_events {frames : List Frame} {events : List Event} {other : Interpreter}
    (balanced : Balanced interpreter) (framed : other.frames = frames)
    (appended : other.events = interpreter.events ++ events) :
    Balanced other ↔ openAfter events (pushedScopes interpreter.frames) = some (pushedScopes frames) := by
  rw [Balanced, framed, appended, openAfter_append, show openAfter interpreter.events 0 = _ from balanced,
    Option.bind_some]

/-- The events of a debugger leave no transaction open. -/
theorem openAfter_debugger (open_ : Nat) :
    openAfter (storing parser) open_ = some open_ ∧ openAfter (comparing parser) open_ = some open_ := by
  have ended : openAfter (popped parser .kCollecting).2 (open_ + 1) = some open_ :=
    openAfter_popped (by decide) open_
  exact ⟨ended, ended⟩

/-- A pop keeps the number of open transactions exactly when the transaction is rolled back. -/
theorem openAfter_popped_iff {transaction : TransactionState} {open_ : Nat} (positive : 0 < open_) :
    openAfter (popped parser transaction).2 open_ = some open_ ↔ transaction = .kRolledBack := by
  by_cases rolledBack : transaction = .kRolledBack
  · simp [rolledBack, popped_rolledBack, openAfter]
  · obtain ⟨fewer, rfl⟩ : ∃ fewer, open_ = fewer + 1 := ⟨open_ - 1, by omega⟩
    simp [openAfter_popped rolledBack, rolledBack]

/-- Leaving a scope keeps the interpreter balanced exactly when it is not that of a transaction
that is rolled back. -/
theorem leave_balanced_iff (balanced : Balanced interpreter)
    (left : perform parser env interpreter .leave = .ok next) :
    Undisturbed interpreter .leave ↔ Balanced next := by
  have before := balanced
  rcases leave_cases left with ⟨transaction, outer, frames, rfl⟩ | ⟨_, outer, frames, rfl⟩ |
    ⟨outer, frames, rfl⟩ | ⟨state, outer, frames, left⟩ <;> rw [Balanced, frames] at before
  · have guarded : Undisturbed interpreter .leave ↔ transaction ≠ .kRolledBack := by
      simp [Undisturbed, frames]
    rw [guarded, balanced_events balanced rfl rfl, frames, pushedScopes_pushed]
    constructor
    · intro other
      exact openAfter_popped other _
    · rintro ended rfl
      simp [popped_rolledBack, openAfter] at ended
  · exact iff_of_true (by simp [Undisturbed, frames]) before
  · exact iff_of_true (by simp [Undisturbed, frames]) before
  · refine iff_of_true (by simp [Undisturbed, frames]) ?_
    rw [(leaveDebugger_destroys frames left).2, balanced_events balanced rfl rfl, frames,
      pushedScopes_debugger]
    exact (openAfter_debugger _).2

/-- A step without a fault keeps the interpreter balanced exactly when it disturbs no
transaction. -/
theorem perform_balanced_iff (balanced : Balanced interpreter) {step : Step}
    (performed : perform parser env interpreter step = .ok next) :
    Undisturbed interpreter step ↔ Balanced next := by
  cases step with
  | enablePrintDebug print =>
    obtain rfl := Except.ok.inj performed
    exact iff_of_true trivial balanced
  | inputFlags flags =>
    obtain rfl := Except.ok.inj performed
    exact iff_of_true trivial (by simpa [Balanced] using balanced)
  | pushTransaction =>
    obtain rfl := Except.ok.inj performed
    refine iff_of_true trivial ((balanced_events balanced rfl rfl).mpr ?_)
    rw [pushedScopes_pushed]
    rfl
  | stateDebugger hasModule =>
    refine iff_of_true trivial ?_
    cases printing : interpreter.printDebug with
    | true =>
      obtain ⟨_, state, entered⟩ := enterDebugger_constructs printing performed
      rw [entered, balanced_events balanced rfl rfl, pushedScopes_debugger]
      exact (openAfter_debugger _).1
    | false =>
      obtain rfl := enterDebugger_silent printing performed
      simpa [Balanced] using balanced
  | pop scope =>
    obtain ⟨transaction, present, rfl⟩ := atTransaction_ok performed
    have same := (alike_set present (popped parser transaction).1 0).2.1
    rw [balanced_events balanced rfl rfl, same, openAfter_popped_iff (pushedScopes_pos present)]
    simp [Undisturbed, present]
  | setState scope state =>
    obtain ⟨transaction, present, rfl⟩ := atTransaction_ok performed
    have same := (alike_set present state 0).2.1
    exact iff_of_true trivial ((balanced_events balanced rfl rfl).mpr (by rw [same]; rfl))
  | leave => exact leave_balanced_iff balanced performed

/-- A step with a fault disturbs no transaction. -/
theorem undisturbed_of_fault {step : Step} {fault : Fault}
    (failed : perform parser env interpreter step = .error fault) : Undisturbed interpreter step := by
  cases step with
  | pop scope =>
    intro transaction present
    simp [perform, atTransaction, present] at failed
  | leave =>
    intro outer frames
    simp [perform, frames] at failed
  | _ => trivial

/-- At every point of a run the open transactions are those of the open scopes exactly when no
step disturbs one. -/
theorem run_balanced_iff_undisturbed (balanced : Balanced interpreter) (steps : List Step) :
    Safe (performing (untilFault parser env)) Balanced interpreter steps ↔
      Meets (performing (untilFault parser env)) Undisturbed interpreter steps := by
  refine safe_iff_meets (fun _ => id) ?_ (fun _ _ _ _ _ => id) steps balanced
  rintro interpreter step outcome balanced rfl
  unfold untilFault
  cases performed : perform parser env interpreter step with
  | error fault => exact iff_of_true (undisturbed_of_fault performed) trivial
  | ok next => exact perform_balanced_iff balanced performed

end Balance

/-- In a run without a fault, however scopes are nested, popped and given other states, and
whenever debug printing is turned on and off: the temporary files are those of others and of
the open debuggers, leaving the open scopes restores the input flags, and every stored state
has been compared once or belongs to an open scope. The open transactions are those of the
open scopes at every point of the run exactly when no explicit pop ends one, and no scope is
left whose transaction is rolled back. -/
theorem scopes_restore (parser : IncrementalParser) (env : Environment) (printDebug : Bool)
    (flags : UInt32) {others : List Bytes} (distinct : others.Nodup) (steps : List Step)
    {interpreter : Interpreter}
    (performed : performAll parser env (.initial printDebug flags others) steps = .ok interpreter) :
    interpreter.world.files.Perm
        (others ++ (storedStates interpreter.frames).flatMap Stored.owned) ∧
      outerFlags interpreter.frames interpreter.inputFlags = flags ∧
      interpreter.events.count .stored =
        interpreter.events.count .compared + (storedStates interpreter.frames).length ∧
      (Safe (performing (untilFault parser env)) Balanced (.initial printDebug flags others) steps ↔
        Meets (performing (untilFault parser env)) Undisturbed (.initial printDebug flags others)
          steps) := by
  have begins : Nested flags (.initial printDebug flags others) := ⟨rfl, rfl⟩
  have opened : Balanced (.initial printDebug flags others) := rfl
  obtain ⟨sound, nested⟩ := performAll_scopes (initial_sound distinct) begins performed
  exact ⟨sound.accounts.owns.accounted, nested.flags, nested.comparisons,
    run_balanced_iff_undisturbed opened steps⟩

/-- Two debuggers in a scope with other flags leave no file and restore the flags, although
printing is turned off within them, and a transaction is popped that was rolled back. -/
theorem debuggers_restore : ∃ interpreter,
    performAll committingParser counter (.initial true 1 [text "/tmp/a"])
        [.stateDebugger true, .inputFlags 2, .pushTransaction, .setState 0 .kRolledBack, .pop 0,
          .leave, .stateDebugger false, .enablePrintDebug false, .leave, .leave, .leave] =
        .ok interpreter ∧
      interpreter.world.files.Perm [text "/tmp/a"] ∧ interpreter.inputFlags = 1 := by
  have runs : ((performAll committingParser counter (.initial true 1 [text "/tmp/a"])
      [.stateDebugger true, .inputFlags 2, .pushTransaction, .setState 0 .kRolledBack, .pop 0,
        .leave, .stateDebugger false, .enablePrintDebug false, .leave, .leave,
        .leave]).toOption.map (·.frames)) = some [] := by
    decide +kernel
  cases performed : performAll committingParser counter (.initial true 1 [text "/tmp/a"])
      [.stateDebugger true, .inputFlags 2, .pushTransaction, .setState 0 .kRolledBack, .pop 0,
        .leave, .stateDebugger false, .enablePrintDebug false, .leave, .leave, .leave] with
  | error fault => simp [performed, Except.toOption] at runs
  | ok interpreter =>
    have closed : interpreter.frames = [] := by simpa [performed, Except.toOption] using runs
    obtain ⟨files, flags, _, _⟩ :=
      scopes_restore committingParser counter true 1 (List.nodup_singleton _) _ performed
    rw [closed] at files flags
    exact ⟨interpreter, rfl, files, flags⟩

end CppInterpreter.InterpreterScopes
