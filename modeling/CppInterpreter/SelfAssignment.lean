import CppInterpreter.ReferenceCounts

/-!
# Assigning a value to itself

The copy assignment of a value releases what the target holds before it retains what the
source holds. Where both are one object, this gives up the block first and shares it
again afterwards. The count returns to what it was, unless the release was the last one
and took the block away.
-/

namespace CppInterpreter

/-- `v = v` for a live value: the target is the source. -/
def Program.selfAssign (program : Program) (slot : Nat) :
    Option (Runs.Outcome Program BlockFault) := do
  let this ← program.value? slot
  return outcome (this.copyAssign this program.memory) fun (memory, this) =>
    ⟨program.values.set slot (some this), memory⟩

namespace ReferenceCounts

open Holders Runs

variable {program : Program} {slot : Nat} {value : Value}

/-- Writing a live value into its own slot changes nothing. -/
theorem set_lives (lives : program.value? slot = some value) :
    program.values.set slot (some value) = program.values := by
  have present : program.values[slot]? = some (some value) := by
    simpa [Program.value?, Option.join_eq_some_iff] using lives
  obtain ⟨inside, same⟩ := List.getElem?_eq_some_iff.mp present
  rw [← same, List.set_getElem_self]

/-- The assignment goes through the block, if there is one. -/
theorem selfAssign_eq (lives : program.value? slot = some value) :
    program.selfAssign slot = some (outcome
      (do let memory ← value.release program.memory; value.retain memory) fun memory =>
        ⟨program.values, memory⟩) := by
  simp only [Program.selfAssign, lives, Value.copyAssign, bind, Option.bind_some, pure]
  cases value.release program.memory with
  | error fault => rfl
  | ok memory =>
    simp only [Except.bind]
    cases value.retain memory with
    | error fault => rfl
    | ok memory => simp only [outcome, Except.pure, set_lives lives]

/-- A block that has further sharers comes out of the assignment as it was. -/
theorem release_retain {memory : Memory} {address : PayloadAddress} {block : AllocatedValue}
    (live : memory.blocks address = some block) (several : block.refCnt ≠ 1) :
    (do let memory ← memory.release address; memory.retain address) =
      (.ok memory : Except BlockFault Memory) := by
  have remains : block.refCnt - 1 ≠ 0 := mt (pred_eq_zero_iff block.refCnt).mp several
  have restored : { block with refCnt := block.refCnt - 1 + 1 } = block := by
    rw [UInt32.sub_add_cancel]
  have same : Function.update memory.blocks address (some block) = memory.blocks := by
    rw [← live, Function.update_eq_self]
  simp only [Memory.release, live, AllocatedValue.release, remains, ↓reduceIte, List.append_nil, bind,
    Except.bind, Memory.retain, Function.update_self, AllocatedValue.retain, Function.update_idem,
    restored, same]

/-- The last sharer takes its block away and then retains at its address. -/
theorem release_last {memory : Memory} {address : PayloadAddress} {block : AllocatedValue}
    (live : memory.blocks address = some block) (last : block.refCnt = 1) :
    ∃ fault, (do let memory ← memory.release address; memory.retain address) =
      (.error fault : Except BlockFault Memory) := by
  simp only [Memory.release, live, bind, Except.bind]
  cases released : block.release with
  | error fault => exact ⟨fault, rfl⟩
  | ok result =>
    obtain ⟨left, destructions⟩ := result
    have gone : left = none := by
      simp only [AllocatedValue.release, last] at released
      grind
    exact ⟨.retainFreed address, by simp [gone, Memory.retain]⟩

/-- Where the counts are balanced, the block of a live value counts something other than
one exactly when another value shares it. -/
theorem several_iff_shared (balanced : Balanced program) (lives : program.value? slot = some value)
    {address : PayloadAddress} (holds : value.block = some address) :
    (∃ block, program.memory.blocks address = some block ∧ block.refCnt ≠ 1) ↔
      1 < holders (slots program) address := by
  have held : (slots program)[slot]? = some (some address) := by rw [slots_value lives, holds]
  obtain ⟨block, live⟩ := live_of_held balanced held
  have counts : block.refCnt.toNat = holders (slots program) address :=
    balanced.counts address block live
  have sharer := (balanced.live address).mp (by simp [live])
  have one : block.refCnt = 1 ↔ block.refCnt.toNat = 1 := by
    rw [← UInt32.toNat_inj, UInt32.toNat_one]
  simp only [live, Option.some.injEq, exists_eq_left', Ne, one]
  omega

/-- Assigning a live value to itself changes nothing exactly when the value is unmanaged
or its block is live and counts something other than one. -/
theorem selfAssign_unchanged_iff (program : Program) (slot : Nat) (value : Value)
    (lives : program.value? slot = some value) :
    program.selfAssign slot = some (.continues program) ↔
      ∀ address, value.block = some address →
        ∃ block, program.memory.blocks address = some block ∧ block.refCnt ≠ 1 := by
  rw [selfAssign_eq lives]
  unfold Value.release Value.retain
  cases value.block with
  | none => exact iff_of_true rfl nofun
  | some address =>
    simp only [Option.some.injEq, forall_eq']
    cases live : program.memory.blocks address with
    | none => simp [Memory.release, live, outcome, bind, Except.bind]
    | some block =>
      by_cases last : block.refCnt = 1
      · obtain ⟨fault, failed⟩ := release_last live last
        simp [failed, outcome, last]
      · simp [release_retain live last, outcome, last]

/-- The equivalence for the first of two sharers. -/
theorem shared_unchanged :
    (sharers 1).selfAssign 0 = some (.continues (sharers 1)) ↔
      ∀ address, shared.block = some address →
        ∃ block, (sharers 1).memory.blocks address = some block ∧ block.refCnt ≠ 1 :=
  selfAssign_unchanged_iff (sharers 1) 0 shared rfl

/-- Assigning the only managed value of a program to itself frees its block, and retains
at the address of the freed block. -/
theorem sole_owner_retains_freed :
    Program.start.perform plain (.construct (.record 0) 0) = some (.continues (sharers 0)) ∧
      (sharers 0).selfAssign 0 = some (.fault (.retainFreed 0)) ∧
      (sharers 0).selfAssign 0 ≠ some (.continues (sharers 0)) := by
  have freed : (sharers 0).selfAssign 0 = some (.fault (.retainFreed 0)) := rfl
  exact ⟨rfl, freed, by simp [freed]⟩

end ReferenceCounts

end CppInterpreter
