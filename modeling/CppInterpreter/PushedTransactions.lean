import CppInterpreter.Runs
import CppInterpreter.Transactions

/-!
# Pushed transactions

A `PushTransactionRAII` begins a transaction and ends it when it is popped or destroyed.
A pop looks at one state of the transaction alone: where it is rolled back, nothing is
done; otherwise the parser ends it and commits what it returns. The object does not
remember that it was popped.

The parser is a parameter. Between two pops the state of the transaction may change in
any way. What the object asks of the parser is recorded in order.

Whether the transaction is ended once at most can be told without the parser, from the
states into which it is put from outside: of all pops, the destructor among them, only one
may come while the latest of these states is not `kRolledBack`, and the transaction is not
over in that state.
-/

namespace CppInterpreter.PushTransactionRAII

open Runs

/-- What `IncrementalParser` does to the state of a transaction; `endTransaction` may or
may not return the transaction. -/
structure IncrementalParser where
  endTransaction : TransactionState → TransactionState × Bool
  commitTransaction : TransactionState → TransactionState

/-- A request to the parser, with the state in which it found the transaction. -/
inductive ParserCall where
  | endTransaction (found : TransactionState)
  | commitTransaction (found : TransactionState)
deriving DecidableEq, Repr

/-- The transaction of the object, and the requests so far. -/
structure Pushed where
  transaction : TransactionState
  calls : List ParserCall
deriving DecidableEq, Repr

/-- `pop`. -/
def pop (parser : IncrementalParser) (pushed : Pushed) : Pushed :=
  if pushed.transaction = .kRolledBack then pushed
  else
    let (ended, returned) := parser.endTransaction pushed.transaction
    let calls := pushed.calls ++ [.endTransaction pushed.transaction]
    if returned then ⟨parser.commitTransaction ended, calls ++ [.commitTransaction ended]⟩
    else ⟨ended, calls⟩

/-- What happens to the object and to its transaction. -/
inductive Operation where
  | pop
  | destroy
  | external (state : TransactionState)
deriving DecidableEq, Repr

/-- The destructor pops. -/
def perform (parser : IncrementalParser) (pushed : Pushed) : Operation → Outcome Pushed Empty
  | .pop | .destroy => .continues (pop parser pushed)
  | .external state => .continues { pushed with transaction := state }

/-- The operations on an object, up to its destructor. -/
def lifetime (operations : List Operation) : List Operation := operations ++ [.destroy]

/-- The states in which the transaction must not be ended. -/
def isOver (state : TransactionState) : Bool :=
  state = .kRolledBack || state = .kRolledBackWithErrors || state = .kCommitted

/-- The states in which `endTransaction` found the transaction. -/
def endings (calls : List ParserCall) : List TransactionState :=
  calls.filterMap fun call =>
    match call with
    | .endTransaction found => some found
    | .commitTransaction _ => none

/-- One state at most, in which the transaction is not over. -/
def OneLive (states : List TransactionState) : Prop :=
  (∀ state ∈ states, isOver state = false) ∧ states.length ≤ 1

/-- What holds of all states holds of the first ones. -/
theorem OneLive.left {first second : List TransactionState} (once : OneLive (first ++ second)) :
    OneLive first := by
  refine ⟨fun state member => once.1 state (List.mem_append_left second member), ?_⟩
  have bounded := once.2
  rw [List.length_append] at bounded
  omega

/-- The transaction was ended once at most, and was not over by then. -/
def EndedOnce (pushed : Pushed) : Prop := OneLive (endings pushed.calls)

/-- For each pop, the state into which the transaction was put last, in the beginning or from
outside. What the parser makes of the transaction does not count. -/
def statesAtPops : TransactionState → List Operation → List TransactionState
  | _, [] => []
  | state, .pop :: rest | state, .destroy :: rest => state :: statesAtPops state rest
  | _, .external state :: rest => statesAtPops state rest

/-- Those of the states at pops in which a transaction is not left alone. -/
def live (initial : TransactionState) (operations : List Operation) : List TransactionState :=
  (statesAtPops initial operations).filter (· ≠ .kRolledBack)

/-- Of all pops one at most comes while the transaction was put last into another state than
`kRolledBack`, and the transaction is not over in that state. -/
def PoppedOnce (initial : TransactionState) (operations : List Operation) : Prop :=
  OneLive (live initial operations)

/-- The parser as far as it is documented: a collecting transaction is completed and
returned, and then committed. -/
structure Documented (parser : IncrementalParser) : Prop where
  ends : parser.endTransaction .kCollecting = (.kCompleted, true)
  commits : ∀ state, parser.commitTransaction state = .kCommitted

/-- A parser that completes, returns and commits whatever it is given. -/
def committingParser : IncrementalParser := ⟨fun _ => (.kCompleted, true), fun _ => .kCommitted⟩

/-- The committing parser behaves as documented. -/
theorem committingParser_documented : Documented committingParser := ⟨rfl, fun _ => rfl⟩

section Pops

variable {parser : IncrementalParser} {pushed : Pushed}

/-- A transaction that is rolled back is left alone. -/
theorem pop_rolledBack (rolledBack : pushed.transaction = .kRolledBack) :
    pop parser pushed = pushed := by
  simp [pop, rolledBack]

/-- Any other transaction is ended in the state that the pop finds. -/
theorem endings_pop (other : pushed.transaction ≠ .kRolledBack) :
    endings (pop parser pushed).calls = endings pushed.calls ++ [pushed.transaction] := by
  unfold pop
  rw [if_neg other]
  obtain ⟨ended, returned⟩ := parser.endTransaction pushed.transaction
  cases returned <;> simp [endings]

/-- A pop leaves a transaction committed that it finds in one of some states, unless the
transaction is over. -/
def Commits (parser : IncrementalParser) (states : List TransactionState) : Prop :=
  ∀ pushed : Pushed, pushed.transaction ∈ states → isOver pushed.transaction = false →
    (pop parser pushed).transaction = .kCommitted

/-- The committing parser commits whatever it ends. -/
theorem committingParser_commits (states : List TransactionState) : Commits committingParser states := by
  intro pushed _ running
  have other : pushed.transaction ≠ .kRolledBack := by
    intro rolledBack
    simp [isOver, rolledBack] at running
  simp [pop, other, committingParser]

/-- A documented parser commits collecting transactions. -/
theorem Documented.commits_collecting (documented : Documented parser) {states : List TransactionState}
    (collecting : ∀ state ∈ states, isOver state = false → state = .kCollecting) :
    Commits parser states := by
  intro pushed member running
  simp [pop, collecting _ member running, documented.ends, documented.commits]

end Pops

section Lifetimes

variable {parser : IncrementalParser} {pushed : Pushed} {state : TransactionState}
  {operations : List Operation}

/-- The head of the live states is that of a pop that does not leave the transaction alone. -/
theorem live_pop (other : state ≠ .kRolledBack) :
    live state (.pop :: operations) = state :: live state operations := by
  simp [live, statesAtPops, other]

theorem live_pop_rolledBack : live .kRolledBack (.pop :: operations) = live .kRolledBack operations := by
  simp [live, statesAtPops]

/-- The live pops of the rest are live. -/
theorem live_subset {later : TransactionState} (member : later ∈ live state operations) :
    later ∈ live state (.pop :: operations) := by
  by_cases rolledBack : state = .kRolledBack
  · subst rolledBack
    rwa [live_pop_rolledBack]
  · rw [live_pop rolledBack]
    exact List.mem_cons_of_mem state member

/-- The transaction is in the state into which it was put last, or the parser has ended it
since then. -/
def Follows (pushed : Pushed) (state : TransactionState) : Prop :=
  pushed.transaction = state ∨ state ≠ .kRolledBack ∧ endings pushed.calls ≠ []

/-- A pop that is not the second of the live ones ends the transaction in the state into which
it was put last, or leaves it alone. -/
theorem pop_follows (follows : Follows pushed state)
    (once : OneLive (endings pushed.calls ++ live state (.pop :: operations))) :
    Follows (pop parser pushed) state ∧
      OneLive (endings (pop parser pushed).calls ++ live state operations) := by
  by_cases rolledBack : state = .kRolledBack
  · subst rolledBack
    have found := follows.resolve_right fun ended => ended.1 rfl
    rw [live_pop_rolledBack] at once
    rw [pop_rolledBack found]
    exact ⟨follows, once⟩
  · rw [live_pop rolledBack] at once
    have first : endings pushed.calls = [] := by
      have bounded := once.2
      rw [List.length_append, List.length_cons] at bounded
      exact List.eq_nil_of_length_eq_zero (by omega)
    have found := follows.resolve_right fun ended => ended.2 first
    have ended : endings (pop parser pushed).calls = endings pushed.calls ++ [state] := by
      rw [endings_pop (found ▸ rolledBack), found]
    rw [Follows, ended, List.append_assoc]
    exact ⟨.inr ⟨rolledBack, by simp⟩, once⟩

/-- Where the endings so far and the live pops to come are one at most, all runs are safe,
whatever the parser does. -/
theorem safe_of_oneLive (operations : List Operation) (follows : Follows pushed state)
    (once : OneLive (endings pushed.calls ++ live state operations)) :
    Safe (performing (perform parser)) EndedOnce pushed operations := by
  induction operations generalizing pushed state with
  | nil => exact once.left
  | cons operation rest inductionHypothesis =>
    refine ⟨once.left, ?_⟩
    rintro _ rfl
    cases operation with
    | pop | destroy =>
      obtain ⟨followsLater, onceLater⟩ := pop_follows follows once
      exact inductionHypothesis followsLater onceLater
    | external other => exact inductionHypothesis (.inl rfl) once

/-- The transaction is in the state into which it was put last, or was committed since then. -/
def Settled (pushed : Pushed) (state : TransactionState) : Prop :=
  pushed.transaction = state ∨ state ≠ .kRolledBack ∧ pushed.transaction = .kCommitted

/-- Where a pop leaves the transaction ended once, it has ended it in the state into which it
was put last, or left it alone. -/
theorem pop_settled (settled : Settled pushed state)
    (commits : Commits parser (live state (.pop :: operations))) (once : EndedOnce (pop parser pushed)) :
    Settled (pop parser pushed) state ∧
      endings (pop parser pushed).calls ++ live state operations =
        endings pushed.calls ++ live state (.pop :: operations) := by
  by_cases rolledBack : state = .kRolledBack
  · subst rolledBack
    have found := settled.resolve_right fun ended => ended.1 rfl
    rw [pop_rolledBack found, live_pop_rolledBack]
    exact ⟨settled, rfl⟩
  · rw [live_pop rolledBack] at commits ⊢
    rcases settled with rfl | ⟨_, committed⟩
    · rw [EndedOnce, endings_pop rolledBack] at once
      have running := once.1 pushed.transaction (by simp)
      rw [endings_pop rolledBack, List.append_assoc]
      exact ⟨.inr ⟨rolledBack, commits pushed List.mem_cons_self running⟩, rfl⟩
    · -- A committed transaction would be ended again.
      have other : pushed.transaction ≠ .kRolledBack := by simp [committed]
      rw [EndedOnce, endings_pop other, committed] at once
      have running := once.1 .kCommitted (by simp)
      simp [isOver] at running

/-- With a parser that commits, a run is safe only where the endings so far and the live pops to
come are one at most. -/
theorem oneLive_of_safe (operations : List Operation) (settled : Settled pushed state)
    (commits : Commits parser (live state operations))
    (safe : Safe (performing (perform parser)) EndedOnce pushed operations) :
    OneLive (endings pushed.calls ++ live state operations) := by
  induction operations generalizing pushed state with
  | nil =>
    have once : OneLive (endings pushed.calls) := safe
    simpa [live, statesAtPops] using once
  | cons operation rest inductionHypothesis =>
    have later := safe.2 _ rfl
    cases operation with
    | pop | destroy =>
      obtain ⟨settledLater, same⟩ := pop_settled settled commits (Safe.good later)
      have commitsLater : Commits parser (live state rest) := fun pushed member =>
        commits pushed (live_subset member)
      exact same ▸ inductionHypothesis settledLater commitsLater later
    | external other =>
      have settledLater : Settled { pushed with transaction := other } other := .inl rfl
      have once := inductionHypothesis settledLater commits later
      exact once

/-- With a documented parser whose transaction is collecting at every live pop, or over, the
lifetime is safe exactly when the object is popped once. -/
theorem collecting_safe_iff (documented : Documented parser) {initial : TransactionState}
    (collecting : ∀ state ∈ live initial operations, isOver state = false → state = .kCollecting) :
    Safe (performing (perform parser)) EndedOnce ⟨initial, []⟩ operations ↔
      PoppedOnce initial operations := by
  constructor
  · exact oneLive_of_safe operations (.inl rfl) (documented.commits_collecting collecting)
  · intro once
    exact safe_of_oneLive operations (.inl rfl) once

end Lifetimes

/-- Over the whole lifetime of an object, its transaction is ended once at most, and only
while it is neither rolled back nor committed, whatever a documented parser does, exactly when
only one of the pops and the destructor comes while the transaction was put last into another
state than `kRolledBack`, and it is not over in that state. -/
theorem lifetime_endedOnce_iff (initial : TransactionState) (operations : List Operation) :
    (∀ parser, Documented parser →
        Safe (performing (perform parser)) EndedOnce ⟨initial, []⟩ (lifetime operations)) ↔
      PoppedOnce initial (lifetime operations) := by
  constructor
  · intro safe
    exact oneLive_of_safe _ (.inl rfl) (committingParser_commits _)
      (safe committingParser committingParser_documented)
  · intro once parser _
    exact safe_of_oneLive _ (.inl rfl) once

/-- A transaction that is popped once is ended again by the destructor, although it was
committed by then. -/
theorem popped_ended_twice : Documented committingParser ∧
    ¬ Safe (performing (perform committingParser)) EndedOnce ⟨.kCollecting, []⟩ (lifetime [.pop]) := by
  refine ⟨committingParser_documented, ?_⟩
  rw [collecting_safe_iff committingParser_documented (by decide)]
  rintro ⟨_, once⟩
  revert once
  decide

end CppInterpreter.PushTransactionRAII
