import CppInterpreter.Holders
import CppInterpreter.Values
import Mathlib.Algebra.Group.Nat.Defs

/-!
# Reference counts

The slots of a program hold blocks: a slot holds the block of the managed value that
lives in it. Every operation changes the slots and the counts together, so each block
counts the managed values that share it, and exists as long as there is one.

The counts are kept in 32 bits. A copy is counted exactly when fewer than 2^32 - 1 other
values share the block.
-/

namespace CppInterpreter.ReferenceCounts

open Holders Runs

/-- The block that each slot holds. -/
def slots (program : Program) : List (Option PayloadAddress) :=
  program.values.map fun value => value.bind Value.block

/-- Each block counts the live managed values that store its payload, each of these
pointers denotes a live block, and a block is live as long as there is one. -/
def Balanced (program : Program) : Prop :=
  Counted (fun block : AllocatedValue => block.refCnt.toNat) program.memory.blocks (slots program)

/-- An object that is alive has elements. -/
def Built (memory : Memory) : Prop :=
  ∀ address block, memory.blocks address = some block → block.isAlive = true → block.elemsNum ≠ 0

/-- A copy has room in the count of the block that it shares, once its target has given
up what it held. -/
def ShareFits (program : Program) : Operation → Prop
  | .copy source => ∀ address, (slots program)[source]? = some (some address) →
      holders (slots program) address + 1 < 2 ^ 32
  | .copyAssign target source => ∀ address, (slots program)[source]? = some (some address) →
      holders ((slots program).set target none) address + 1 < 2 ^ 32
  | .default | .construct _ _ | .move _ | .moveAssign _ _ | .destroy _ | .build _ _ => True

section Slots

variable {program : Program} {slot : Nat} {value : Value}

/-- A live value holds its block in its slot. -/
theorem slots_value (lives : program.value? slot = some value) :
    (slots program)[slot]? = some value.block := by
  have present : program.values[slot]? = some (some value) := by
    simpa [Program.value?, Option.join_eq_some_iff] using lives
  simp [slots, present]

/-- Replacing a value replaces what its slot holds. -/
theorem slots_set (values : List (Option Value)) (memory : Memory) (slot : Nat)
    (value : Option Value) :
    slots ⟨values.set slot value, memory⟩ = (slots ⟨values, memory⟩).set slot (value.bind Value.block) :=
  List.map_set

/-- A new value is put into a slot that is empty at first. -/
theorem slots_append (values : List (Option Value)) (memory : Memory) (value : Value) :
    slots ⟨values ++ [some value], memory⟩ =
      (slots ⟨values, memory⟩ ++ [none]).set values.length value.block := by
  simp [slots]

end Slots

/-- Counting down from a positive count does not wrap. -/
theorem pred_toNat {count : UInt32} (positive : 0 < count.toNat) :
    (count - 1).toNat + 1 = count.toNat := by
  have one : (1 : UInt32) ≤ count := UInt32.le_iff_toNat_le.mpr positive
  rw [UInt32.toNat_sub_of_le count 1 one]
  exact Nat.sub_add_cancel positive

/-- Counting up wraps at 2^32. -/
theorem succ_toNat_iff (count : UInt32) :
    (count + 1).toNat = count.toNat + 1 ↔ count.toNat + 1 < 2 ^ 32 := by
  have small := count.toNat_lt
  rw [UInt32.toNat_add]
  simp only [UInt32.toNat_one]
  omega

/-- What `Release` leaves of a block. -/
def remaining (block : AllocatedValue) : Option AllocatedValue :=
  if block.refCnt = 1 then none else some { block with refCnt := block.refCnt - 1 }

/-- A count becomes zero from one alone. -/
theorem pred_eq_zero_iff (count : UInt32) : count - 1 = 0 ↔ count = 1 := by
  constructor
  · intro zero
    rw [← UInt32.sub_add_cancel count 1, zero]
    rfl
  · rintro rfl
    rfl

/-- What remains of a block counts one sharer less, and is nothing for the last one. -/
theorem remaining_counts {block : AllocatedValue} (positive : 0 < block.refCnt.toNat) :
    (∀ left, remaining block = some left → left.refCnt.toNat + 1 = block.refCnt.toNat) ∧
      ((remaining block).isSome = true ↔ 1 < block.refCnt.toNat) := by
  unfold remaining
  by_cases last : block.refCnt = 1
  · simp [last]
  · have several : block.refCnt.toNat ≠ 1 := by
      intro one
      exact last (UInt32.toNat_inj.mp one)
    rw [if_neg last]
    refine ⟨?_, iff_of_true rfl (by omega)⟩
    rintro left ⟨⟩
    exact pred_toNat positive

/-- Releasing a block that has elements where its object is alive does not fault. -/
theorem release_remaining {block : AllocatedValue}
    (built : block.isAlive = true → block.elemsNum ≠ 0) :
    ∃ destroyed, block.release = .ok (remaining block, destroyed) := by
  unfold AllocatedValue.release remaining
  simp only [pred_eq_zero_iff]
  by_cases last : block.refCnt = 1
  · simp only [last, ↓reduceIte]
    cases block.dtorFunc with
    | none => exact ⟨[], rfl⟩
    | some dtorFunc =>
      cases alive : block.isAlive with
      | false => exact ⟨[], rfl⟩
      | true =>
        have elements := built alive
        simp [elements]
  · exact ⟨[], by simp only [last, ↓reduceIte]⟩

section Memory

variable {memory : Memory} {held : List (Option PayloadAddress)} {slot : Nat} {value : Value}

/-- Objects stay built when the one block that changes is. -/
theorem built_update (built : Built memory) {address : PayloadAddress}
    {left : Option AllocatedValue} (destructions : List Destruction)
    (changed : ∀ block, left = some block → block.isAlive = true → block.elemsNum ≠ 0) :
    Built ⟨Function.update memory.blocks address left, destructions⟩ := by
  intro other block live
  by_cases same : other = address
  · subst same
    exact changed block (by simpa using live)
  · exact built other block (by simpa [Function.update_of_ne same] using live)

/-- A value that is released empties its slot. -/
theorem release_counted
    (counted : Counted (fun block : AllocatedValue => block.refCnt.toNat) memory.blocks held)
    (built : Built memory) (holds : held[slot]? = some value.block) :
    ∃ after, value.release memory = .ok after ∧
      Counted (fun block : AllocatedValue => block.refCnt.toNat) after.blocks (held.set slot none) ∧
      Built after := by
  unfold Value.release
  cases content : value.block with
  | none =>
    rw [content] at holds
    obtain ⟨inside, same⟩ := List.getElem?_eq_some_iff.mp holds
    refine ⟨memory, rfl, ?_, built⟩
    rwa [← same, List.set_getElem_self]
  | some address =>
    rw [content] at holds
    obtain ⟨block, live⟩ := live_of_held counted holds
    obtain ⟨destroyed, released⟩ := release_remaining (built address block live)
    refine ⟨_, by simp only [Memory.release, live, released]; rfl, ?_, ?_⟩
    · have sharers := (counted.live address).mp (by simp [live])
      rw [← counted.counts address block live] at sharers
      exact (counted_drop_iff counted holds live (remaining block)).mpr (remaining_counts sharers)
    · apply built_update built
      intro left stays
      unfold remaining at stays
      split at stays
      · cases stays
      · cases stays
        exact built address block live

/-- A value that is retained fills an empty slot, and is counted when the count of its
block does not wrap. -/
theorem retain_counted_iff
    (counted : Counted (fun block : AllocatedValue => block.refCnt.toNat) memory.blocks held)
    (built : Built memory) (empty : held[slot]? = some none) {source : Nat}
    (shared : held[source]? = some value.block) :
    ∃ after, value.retain memory = .ok after ∧ Built after ∧
      (Counted (fun block : AllocatedValue => block.refCnt.toNat) after.blocks
          (held.set slot value.block) ↔
        ∀ address, value.block = some address → holders held address + 1 < 2 ^ 32) := by
  unfold Value.retain
  cases content : value.block with
  | none =>
    obtain ⟨inside, same⟩ := List.getElem?_eq_some_iff.mp empty
    refine ⟨memory, rfl, built, iff_of_true ?_ (by simp)⟩
    rwa [← same, List.set_getElem_self]
  | some address =>
    rw [content] at shared
    obtain ⟨block, live⟩ := live_of_held counted shared
    refine ⟨_, by simp only [Memory.retain, live]; rfl, ?_, ?_⟩
    · apply built_update built
      rintro _ ⟨⟩
      exact built address block live
    · have stored : block.refCnt.toNat = holders held address := counted.counts address block live
      simp only [counted_share_iff counted empty live, Option.some.injEq, forall_eq', ← stored]
      exact succ_toNat_iff block.refCnt

end Memory

/-- The invariant of runs. -/
structure Sound (program : Program) : Prop where
  balanced : Balanced program
  built : Built program.memory

/-- No values and no blocks are sound. -/
theorem start_sound : Sound .start := by
  refine ⟨⟨?_, ?_⟩, ?_⟩
  · rintro address block ⟨⟩
  · intro address
    simp [Program.start, slots, holders]
  · rintro address block ⟨⟩

/-- A new block counts one holder, and its object is not constructed. -/
theorem managedBlock_fresh (interp : Interpreter) (type : QualType) :
    (Value.managedBlock interp type).refCnt = 1 ∧
      (Value.managedBlock interp type).isAlive = false :=
  ⟨rfl, rfl⟩

/-- A value that was moved from holds nothing. -/
@[simp] theorem movedFrom_block (value : Value) : value.movedFrom.block = none := rfl

/-- What an operation leads to: no fault, built objects, and balanced counts exactly when
a copy fits. -/
def Leads (program : Program) (operation : Operation) (result : Outcome Program BlockFault) : Prop :=
  ∃ next, result = .continues next ∧ Built next.memory ∧
    (Balanced next ↔ ShareFits program operation)

section Operations

variable {interp : Interpreter} {program : Program} {result : Outcome Program BlockFault}

/-- The slot of a new value is empty at first. -/
theorem new_slot (program : Program) :
    (slots program ++ [none])[program.values.length]? = some none := by
  simp [slots]

/-- An empty slot at the end keeps the balance. -/
theorem balanced_append (sound : Sound program) :
    Counted (fun block : AllocatedValue => block.refCnt.toNat) program.memory.blocks
      (slots program ++ [none]) :=
  (counted_congr (holders_append (slots program))).mpr sound.balanced

/-- A new value that holds nothing keeps the balance. -/
theorem balanced_unmanaged (sound : Sound program) {value : Value} (unmanaged : value.block = none) :
    Balanced { program with values := program.values ++ [some value] } := by
  have appended : slots { program with values := program.values ++ [some value] } =
      slots program ++ [none] := by
    simp [slots, unmanaged]
  rw [Balanced, appended]
  exact balanced_append sound

/-- A default value holds nothing. -/
theorem default_leads (sound : Sound program)
    (performed : program.perform interp .default = some result) : Leads program .default result := by
  obtain rfl := Option.some.inj performed
  exact ⟨_, rfl, sound.built, iff_of_true (balanced_unmanaged sound rfl) trivial⟩

/-- A constructed value holds a new block, if its type is managed. -/
theorem construct_leads (sound : Sound program) {type : QualType} {address : PayloadAddress}
    (performed : program.perform interp (.construct type address) = some result) :
    Leads program (.construct type address) result := by
  cases managed : needsManagedAllocation type with
  | false =>
    simp only [Program.perform, Value.construct, managed, Bool.false_and, Bool.false_eq_true,
      ↓reduceIte, Option.some.injEq] at performed
    subst performed
    exact ⟨_, rfl, sound.built, iff_of_true (balanced_unmanaged sound rfl) trivial⟩
  | true =>
    cases occupied : (program.memory.blocks address).isSome with
    | true => simp [Program.perform, managed, occupied] at performed
    | false =>
      simp only [Program.perform, Value.construct, managed, occupied, Bool.and_false,
        Bool.false_eq_true, ↓reduceIte, Option.some.injEq] at performed
      subst performed
      obtain ⟨one, unbuilt⟩ := managedBlock_fresh interp type
      refine ⟨_, rfl, ?_, iff_of_true ?_ trivial⟩
      · apply built_update sound.built
        rintro _ ⟨⟩ alive
        simp [unbuilt] at alive
      · rw [Balanced, slots_append]
        refine counted_allocate (balanced_append sound) (new_slot program) ?_ ?_
        · simpa using occupied
        · simp [one]

/-- A copied value shares a block. -/
theorem copy_leads (sound : Sound program) {source : Nat}
    (performed : program.perform interp (.copy source) = some result) :
    Leads program (.copy source) result := by
  simp only [Program.perform, bind, Option.bind_eq_some_iff, pure, Option.some.injEq] at performed
  obtain ⟨other, lives, rfl⟩ := performed
  have holds := slots_value lives
  have still : (slots program ++ [none])[source]? = some other.block := by
    rw [List.getElem?_append_left (List.getElem?_eq_some_iff.mp holds).1, holds]
  obtain ⟨after, retained, built, fits⟩ :=
    retain_counted_iff (balanced_append sound) sound.built (new_slot program) still
  refine ⟨⟨program.values ++ [some other], after⟩, ?_, built, ?_⟩
  · simp [Value.copyConstruct, retained, outcome, bind, Except.bind, pure, Except.pure]
  · rw [Balanced, slots_append]
    refine fits.trans ?_
    simp [ShareFits, holds]

/-- A moved value takes a block over. -/
theorem move_leads (sound : Sound program) {source : Nat}
    (performed : program.perform interp (.move source) = some result) :
    Leads program (.move source) result := by
  simp only [Program.perform, bind, Option.bind_eq_some_iff, pure, Option.some.injEq] at performed
  obtain ⟨other, lives, rfl⟩ := performed
  have holds := slots_value lives
  have inside : source < (slots program).length := (List.getElem?_eq_some_iff.mp holds).1
  have distinct : program.values.length ≠ source := by
    simp only [slots, List.length_map] at inside
    omega
  have still : (slots program ++ [none])[source]? = some other.block := by
    rw [List.getElem?_append_left inside, holds]
  refine ⟨_, rfl, sound.built, iff_of_true ?_ trivial⟩
  have handed := counted_hand (balanced_append sound) distinct (new_slot program) still
  rw [List.set_comm _ _ distinct, List.set_append_left _ _ inside] at handed
  rw [Balanced, Value.moveConstruct, slots_append, slots_set]
  simpa using handed

/-- An assignment first gives up what the target held, and leaves the source alone. -/
theorem assign_releases (sound : Sound program) {target source : Nat} (distinct : target ≠ source)
    {this other : Value} (livesTarget : program.value? target = some this)
    (livesSource : program.value? source = some other) :
    ∃ dropped, this.release program.memory = .ok dropped ∧
      Counted (fun block : AllocatedValue => block.refCnt.toNat) dropped.blocks
        ((slots program).set target none) ∧
      Built dropped ∧ ((slots program).set target none)[target]? = some none ∧
      ((slots program).set target none)[source]? = some other.block := by
  have holds := slots_value livesTarget
  obtain ⟨dropped, released, balanced, built⟩ := release_counted sound.balanced sound.built holds
  refine ⟨dropped, released, balanced, built, ?_, ?_⟩
  · exact List.getElem?_set_self (List.getElem?_eq_some_iff.mp holds).1
  · rw [List.getElem?_set_ne distinct, slots_value livesSource]

/-- A copy assignment drops what the target held, and shares a block. -/
theorem copyAssign_leads (sound : Sound program) {target source : Nat}
    (performed : program.perform interp (.copyAssign target source) = some result) :
    Leads program (.copyAssign target source) result := by
  by_cases same : target = source
  · simp [Program.perform, same] at performed
  simp only [Program.perform, if_neg same, bind, Option.bind_eq_some_iff, pure, Option.some.injEq]
    at performed
  obtain ⟨this, livesTarget, other, livesSource, rfl⟩ := performed
  obtain ⟨dropped, released, balanced, built, empty, still⟩ :=
    assign_releases sound same livesTarget livesSource
  obtain ⟨after, retained, built, fits⟩ := retain_counted_iff balanced built empty still
  refine ⟨⟨program.values.set target (some other), after⟩, ?_, built, ?_⟩
  · simp [Value.copyAssign, released, retained, outcome, bind, Except.bind, pure, Except.pure]
  · rw [Balanced, slots_set]
    rw [List.set_set] at fits
    refine fits.trans ?_
    simp [ShareFits, slots_value livesSource]

/-- A move assignment drops what the target held, and takes a block over. -/
theorem moveAssign_leads (sound : Sound program) {target source : Nat}
    (performed : program.perform interp (.moveAssign target source) = some result) :
    Leads program (.moveAssign target source) result := by
  by_cases same : target = source
  · simp [Program.perform, same] at performed
  simp only [Program.perform, if_neg same, bind, Option.bind_eq_some_iff, pure, Option.some.injEq]
    at performed
  obtain ⟨this, livesTarget, other, livesSource, rfl⟩ := performed
  obtain ⟨dropped, released, balanced, built, empty, still⟩ :=
    assign_releases sound same livesTarget livesSource
  have handed := counted_hand balanced same empty still
  rw [List.set_set] at handed
  refine ⟨⟨(program.values.set target (some other)).set source (some other.movedFrom), dropped⟩, ?_,
    built, iff_of_true ?_ trivial⟩
  · simp [Value.moveAssign, released, outcome, bind, Except.bind, pure, Except.pure]
  · rw [Balanced, slots_set, slots_set]
    exact handed

/-- A destroyed value drops what it held. -/
theorem destroy_leads (sound : Sound program) {target : Nat}
    (performed : program.perform interp (.destroy target) = some result) :
    Leads program (.destroy target) result := by
  simp only [Program.perform, bind, Option.bind_eq_some_iff, pure, Option.some.injEq] at performed
  obtain ⟨this, lives, rfl⟩ := performed
  obtain ⟨after, released, balanced, built⟩ :=
    release_counted sound.balanced sound.built (slots_value lives)
  refine ⟨⟨program.values.set target none, after⟩, ?_, built, iff_of_true ?_ trivial⟩
  · simp [Value.destroy, released, outcome]
  · rw [Balanced, slots_set]
    exact balanced

/-- A constructed object changes no count. -/
theorem build_leads (sound : Sound program) {address : PayloadAddress}
    {payload : Nat → Option UInt8}
    (performed : program.perform interp (.build address payload) = some result) :
    Leads program (.build address payload) result := by
  simp only [Program.perform, bind, Option.bind_eq_some_iff] at performed
  obtain ⟨block, live, performed⟩ := performed
  by_cases vacant : block.elemsNum = 0
  · simp [vacant] at performed
  simp only [if_neg vacant, pure, Option.some.injEq] at performed
  subst performed
  refine ⟨_, rfl, ?_, iff_of_true ?_ trivial⟩
  · apply built_update sound.built
    rintro _ ⟨⟩ _
    exact vacant
  · exact counted_rewrite sound.balanced live rfl

/-- Every operation leads to a program with built objects, and balances the counts
exactly when a copy fits. -/
theorem perform_leads (sound : Sound program) {operation : Operation}
    (performed : program.perform interp operation = some result) :
    Leads program operation result := by
  cases operation with
  | default => exact default_leads sound performed
  | construct type address => exact construct_leads sound performed
  | copy source => exact copy_leads sound performed
  | move source => exact move_leads sound performed
  | copyAssign target source => exact copyAssign_leads sound performed
  | moveAssign target source => exact moveAssign_leads sound performed
  | destroy target => exact destroy_leads sound performed
  | build address payload => exact build_leads sound performed

end Operations

/-- A run faults nowhere and keeps the counts balanced in every state exactly when each
copy in it fits. -/
theorem run_balanced_iff (interp : Interpreter) (run : List Operation) :
    Safe (operations interp) Balanced .start run ↔
      Meets (operations interp) ShareFits .start run := by
  apply safe_iff_meets
  · exact fun _ => Sound.balanced
  · intro program operation result sound performed
    obtain ⟨next, rfl, _, fits⟩ := perform_leads sound performed
    exact fits.symm
  · intro program operation result sound performed
    obtain ⟨next, rfl, built, _⟩ := perform_leads sound performed
    intro balanced
    exact ⟨balanced, built⟩
  · exact start_sound

/-- An interpreter without records: every object has eight bytes. -/
def plain : Interpreter := ⟨fun _ => 8, fun _ => none⟩

/-- A managed value of a record type, with its block at address zero. -/
def shared : Value := (Value.construct plain (.record 0) 0 ⟨fun _ => none, []⟩).2

/-- Copies of one managed value, and its block with what 32 bits keep of their number. -/
def sharers (count : Nat) : Program :=
  ⟨List.replicate (count + 1) (some shared),
    ⟨Function.update (fun _ => none) 0
      (some { Value.managedBlock plain (.record 0) with refCnt := UInt32.ofNat (count + 1) }), []⟩⟩

/-- One more copy is one more value, and counts up. -/
theorem sharers_copy (count : Nat) :
    (sharers count).perform plain (.copy 0) = some (.continues (sharers (count + 1))) := by
  have values : List.replicate (count + 1) (some shared) ++ [some shared] =
      List.replicate (count + 1 + 1) (some shared) := List.replicate_succ'.symm
  have counted : UInt32.ofNat (count + 1) + 1 = UInt32.ofNat (count + 1 + 1) :=
    (UInt32.ofNat_add (count + 1) 1).symm
  have held : shared.block = some 0 := rfl
  have lives : (sharers count).value? 0 = some shared := by
    simp [Program.value?, sharers, List.replicate_succ]
  have retained : (sharers count).memory.retain 0 = .ok (sharers (count + 1)).memory := by
    simp only [Memory.retain, sharers, Function.update_self, Function.update_idem,
      AllocatedValue.retain, counted]
  have copied : shared.copyConstruct (sharers count).memory =
      .ok ((sharers (count + 1)).memory, shared) := by
    simp only [Value.copyConstruct, Value.retain, held, retained, bind, Except.bind, pure, Except.pure]
  simp only [Program.perform, lives, copied, outcome, Option.bind_some, bind, pure]
  simp only [sharers, values]

/-- Copies in a row are safe only if the counts are balanced at their end. -/
theorem copies_balanced {copies count : Nat}
    (safe : Safe (operations plain) Balanced (sharers count) (List.replicate copies (.copy 0))) :
    Balanced (sharers (count + copies)) := by
  induction copies generalizing count with
  | zero => exact safe
  | succ copies inductionHypothesis =>
    rw [List.replicate_succ] at safe
    have later := safe.2 _ (sharers_copy count)
    rw [Nat.add_comm copies 1, ← Nat.add_assoc]
    exact inductionHypothesis later

/-- The block of the copies counts them as long as 32 bits hold their number. -/
theorem balanced_bound {count : Nat} (balanced : Balanced (sharers count)) : count + 1 < 2 ^ 32 := by
  have sharing : holders (slots (sharers count)) 0 = count + 1 := by
    have held : shared.block = some 0 := rfl
    simp [holders, slots, sharers, held]
  have counts := balanced.counts 0 _ (by simp [sharers]; rfl)
  rw [sharing] at counts
  rw [← counts]
  exact UInt32.toNat_lt _

/-- A managed value and 2^32 - 1 copies of it wrap the count of their block. -/
theorem copies_wrap : ¬ Safe (operations plain) Balanced .start
    (.construct (.record 0) 0 :: List.replicate (2 ^ 32 - 1) (.copy 0)) := by
  intro safe
  have constructed : Program.start.perform plain (.construct (.record 0) 0) =
      some (.continues (sharers 0)) := rfl
  have balanced := copies_balanced (safe.2 _ constructed)
  have bound := balanced_bound balanced
  omega

end CppInterpreter.ReferenceCounts
