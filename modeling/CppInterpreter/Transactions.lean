import Mathlib.Data.List.Nodup

/-!
# Transactions and their destruction

A transaction may hold a vector of nested transactions, each of which it owns. Its
destructor deletes them one after the other, and each of them deletes its own nested
transactions first. Before a nested transaction is deleted, its state is asserted to be
one of two permitted ones. An assertion does not stop the destructor here, as in a build
without them: the destructor reports whether every assertion it evaluated held.

Transactions are told apart by their addresses.
-/

namespace CppInterpreter

/-- `Transaction::State`. -/
inductive TransactionState where
  | kCollecting
  | kCompleted
  | kRolledBack
  | kRolledBackWithErrors
  | kCommitted
  | kNumStates
deriving DecidableEq, Repr

/-- A finished transaction is committed or rolled back. -/
def TransactionState.isFinished (state : TransactionState) : Bool :=
  state = .kCommitted || state = .kRolledBack || state = .kRolledBackWithErrors

/-- A transaction, as far as its destructor reads it. -/
inductive Transaction where
  | mk (address : Nat) (state : TransactionState) (nestedTransactions : Option (List Transaction))

namespace Transaction

def address : Transaction → Nat
  | mk address _ _ => address

def state : Transaction → TransactionState
  | mk _ state _ => state

/-- What a destructor did: whether its assertions held, and which transactions it deleted,
in order. -/
structure Destroyed where
  asserted : Bool
  deleted : List Nat
deriving DecidableEq, Repr

/-- The condition that is asserted of a nested transaction. -/
def isPermitted (transaction : Transaction) : Bool :=
  transaction.state = .kCommitted || transaction.state = .kRolledBack

mutual

/-- `~Transaction`. -/
def destroy : Transaction → Destroyed
  | mk _ _ none => ⟨true, []⟩
  | mk _ _ (some nested) => destroyNested nested

/-- The loop over the nested transactions. -/
def destroyNested : List Transaction → Destroyed
  | [] => ⟨true, []⟩
  | transaction :: rest =>
    let destroyed := transaction.destroy
    let later := destroyNested rest
    ⟨transaction.isPermitted && destroyed.asserted && later.asserted,
      destroyed.deleted ++ transaction.address :: later.deleted⟩

end

mutual

/-- The transactions that are nested in a transaction, at any depth. -/
def descendants : Transaction → List Transaction
  | mk _ _ none => []
  | mk _ _ (some nested) => family nested

/-- Transactions together with all that are nested in them. -/
def family : List Transaction → List Transaction
  | [] => []
  | transaction :: rest => transaction :: (transaction.descendants ++ family rest)

end

mutual

/-- The destructor deletes what is nested in a transaction and nothing else. Nested
transactions are deleted before the one that holds them, so only the order differs. -/
theorem destroy_deletes : ∀ transaction : Transaction,
    transaction.destroy.deleted.Perm (transaction.descendants.map address)
  | mk _ _ none => by simp [destroy, descendants]
  | mk _ _ (some nested) => by
    rw [destroy, descendants]
    exact destroyNested_deletes nested

/-- The loop deletes the transactions that it visits and what is nested in them. -/
theorem destroyNested_deletes : ∀ nested : List Transaction,
    (destroyNested nested).deleted.Perm ((family nested).map address)
  | [] => by simp [destroyNested, family]
  | transaction :: rest => by
    have inner := destroy_deletes transaction
    have later := destroyNested_deletes rest
    rw [destroyNested, family, List.map_cons, List.map_append]
    exact List.perm_middle.trans ((inner.append later).cons _)

end

mutual

/-- The assertions hold exactly when every nested transaction is in a permitted state. -/
theorem destroy_asserted : ∀ transaction : Transaction, transaction.destroy.asserted = true ↔
    ∀ nested ∈ transaction.descendants, nested.isPermitted = true
  | mk _ _ none => by simp [destroy, descendants]
  | mk _ _ (some nested) => by
    rw [destroy, descendants]
    exact destroyNested_asserted nested

/-- The loop asserts the states of all that it deletes. -/
theorem destroyNested_asserted : ∀ nested : List Transaction,
    (destroyNested nested).asserted = true ↔ ∀ member ∈ family nested, member.isPermitted = true
  | [] => by simp [destroyNested, family]
  | transaction :: rest => by
    have inner := destroy_asserted transaction
    have later := destroyNested_asserted rest
    rw [destroyNested, family, List.forall_mem_cons, List.forall_mem_append, ← inner, ← later]
    simp only [Bool.and_eq_true, and_assoc]

end

/-- Of the finished states only one is not permitted. -/
theorem isPermitted_iff {transaction : Transaction} (finished : transaction.state.isFinished = true) :
    transaction.isPermitted = true ↔ transaction.state ≠ .kRolledBackWithErrors := by
  unfold isPermitted
  cases state : transaction.state <;> simp_all [TransactionState.isFinished]

/-- Destroying the root of a tree whose nested transactions are finished violates no
assertion and deletes each nested transaction exactly once, precisely when none of them
was rolled back with errors. -/
theorem destroy_clean_iff (root : Transaction)
    (distinct : (root.descendants.map address).Nodup)
    (finished : ∀ nested ∈ root.descendants, nested.state.isFinished = true) :
    (root.destroy.asserted = true ∧
      ∀ nested ∈ root.descendants, root.destroy.deleted.count nested.address = 1) ↔
    ∀ nested ∈ root.descendants, nested.state ≠ .kRolledBackWithErrors := by
  have deletions := destroy_deletes root
  have once : ∀ nested ∈ root.descendants, root.destroy.deleted.count nested.address = 1 := by
    intro nested member
    rw [deletions.count_eq]
    exact List.count_eq_one_of_mem distinct (List.mem_map_of_mem member)
  rw [destroy_asserted, and_iff_left once]
  exact forall₂_congr fun nested member => isPermitted_iff (finished nested member)

/-- A committed transaction that holds another one. -/
def holding (state : TransactionState) : Transaction :=
  mk 0 .kCommitted (some [mk 8 state none])

/-- The equivalence for a rolled back transaction in a committed one. -/
theorem rolled_back_clean :
    ((holding .kRolledBack).destroy.asserted = true ∧
      ∀ nested ∈ (holding .kRolledBack).descendants,
        (holding .kRolledBack).destroy.deleted.count nested.address = 1) ↔
    ∀ nested ∈ (holding .kRolledBack).descendants, nested.state ≠ .kRolledBackWithErrors :=
  destroy_clean_iff (holding .kRolledBack) (by simp [holding, descendants, family])
    (by simp [holding, descendants, family, state, TransactionState.isFinished])

/-- A transaction that was rolled back with errors is finished, and its state is not
permitted. -/
theorem with_errors_asserts :
    ((holding .kRolledBackWithErrors).descendants.map address).Nodup ∧
      (∀ nested ∈ (holding .kRolledBackWithErrors).descendants, nested.state.isFinished = true) ∧
        (holding .kRolledBackWithErrors).destroy.asserted = false := by
  refine ⟨by simp [holding, descendants, family], ?_, rfl⟩
  simp [holding, descendants, family, state, TransactionState.isFinished]

end Transaction

end CppInterpreter
