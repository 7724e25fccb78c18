import Mathlib.Data.List.Count
import Mathlib.Logic.Function.Basic

/-!
# Counting the holders of shared blocks

Slots hold blocks, several of them perhaps the same one. Every block stores a count of
the slots that hold it, and exists exactly as long as there is one. A slot may be filled
from a new block or from a shared one, handed over to another slot, or emptied; for each
of these the count that the block must store afterwards is determined.
-/

namespace CppInterpreter.Holders

variable {α β : Type*} [DecidableEq α]

/-- The number of slots that hold a block. -/
def holders (slots : List (Option α)) (address : α) : Nat := slots.count (some address)

/-- Blocks store the number of their holders, and exist as long as they have one. -/
structure Counted (count : β → Nat) (blocks : α → Option β) (slots : List (Option α)) : Prop where
  counts : ∀ address block, blocks address = some block → count block = holders slots address
  live : ∀ address, (blocks address).isSome = true ↔ 0 < holders slots address

/-- Writing a slot takes its old content out of the count and adds the new one. -/
theorem holders_set {slots : List (Option α)} {slot : Nat} {old : Option α}
    (present : slots[slot]? = some old) (new : Option α) (address : α) :
    holders (slots.set slot new) address + (if old = some address then 1 else 0) =
      holders slots address + if new = some address then 1 else 0 := by
  obtain ⟨inside, same⟩ := List.getElem?_eq_some_iff.mp present
  have atLeast : old = some address → 0 < holders slots address := by
    rintro rfl
    exact List.count_pos_iff.mpr (same ▸ List.getElem_mem inside)
  simp only [holders, List.count_set inside, same, beq_iff_eq] at atLeast ⊢
  split_ifs with held filled filled
  · have positive := atLeast held
    omega
  · have positive := atLeast held
    omega
  · omega
  · omega

/-- An empty slot at the end holds nothing. -/
@[simp] theorem holders_append (slots : List (Option α)) (address : α) :
    holders (slots ++ [none]) address = holders slots address := by
  simp [holders]

variable {count : β → Nat} {blocks : α → Option β} {slots : List (Option α)}

/-- Only the numbers of holders matter. -/
theorem counted_congr {others : List (Option α)}
    (same : ∀ address, holders others address = holders slots address) :
    Counted count blocks others ↔ Counted count blocks slots := by
  constructor
  · intro counted
    exact ⟨fun address => same address ▸ counted.counts address,
      fun address => same address ▸ counted.live address⟩
  · intro counted
    exact ⟨fun address => (same address).symm ▸ counted.counts address,
      fun address => (same address).symm ▸ counted.live address⟩

/-- A change at one address is checked at that address. -/
theorem counted_update_iff (counted : Counted count blocks slots) {address : α}
    {others : List (Option α)}
    (elsewhere : ∀ other, other ≠ address → holders others other = holders slots other)
    (left : Option β) :
    Counted count (Function.update blocks address left) others ↔
      (∀ block, left = some block → count block = holders others address) ∧
        (left.isSome = true ↔ 0 < holders others address) := by
  constructor
  · intro after
    constructor
    · intro block stored
      apply after.counts address block
      simp [stored]
    · have live := after.live address
      simpa using live
  · rintro ⟨counts, live⟩
    constructor
    · intro other block stored
      by_cases same : other = address
      · subst same
        exact counts block (by simpa using stored)
      · rw [Function.update_of_ne same] at stored
        rw [elsewhere other same]
        exact counted.counts other block stored
    · intro other
      by_cases same : other = address
      · subst same
        simpa using live
      · rw [Function.update_of_ne same, elsewhere other same]
        exact counted.live other

section Slots

variable {slot : Nat} {address : α}

/-- Filling a slot with a block leaves the other blocks' holders alone, and adds one. -/
theorem holders_fill (empty : slots[slot]? = some none) (address : α) :
    holders (slots.set slot (some address)) address = holders slots address + 1 ∧
      ∀ other, other ≠ address →
        holders (slots.set slot (some address)) other = holders slots other := by
  refine ⟨by simpa using holders_set empty (some address) address, ?_⟩
  intro other different
  simpa [Ne.symm different] using holders_set empty (some address) other

/-- Emptying a slot leaves the other blocks' holders alone, and takes one away. -/
theorem holders_drop (held : slots[slot]? = some (some address)) :
    holders (slots.set slot none) address + 1 = holders slots address ∧
      ∀ other, other ≠ address → holders (slots.set slot none) other = holders slots other := by
  refine ⟨by simpa using holders_set held none address, ?_⟩
  intro other different
  simpa [Ne.symm different] using holders_set held none other

/-- A new block has one holder. -/
theorem counted_allocate (counted : Counted count blocks slots) (empty : slots[slot]? = some none)
    (free : blocks address = none) {block : β} (one : count block = 1) :
    Counted count (Function.update blocks address (some block)) (slots.set slot (some address)) := by
  obtain ⟨added, elsewhere⟩ := holders_fill empty address
  have unheld : holders slots address = 0 := by
    have live := counted.live address
    simpa [free] using live
  rw [counted_update_iff counted elsewhere, added, unheld]
  simp [one]

/-- A shared block must count one holder more. -/
theorem counted_share_iff (counted : Counted count blocks slots)
    (empty : slots[slot]? = some none) {block : β} (live : blocks address = some block) (shared : β) :
    Counted count (Function.update blocks address (some shared)) (slots.set slot (some address)) ↔
      count shared = count block + 1 := by
  obtain ⟨added, elsewhere⟩ := holders_fill empty address
  rw [counted_update_iff counted elsewhere, added, counted.counts address block live]
  simp

/-- A dropped block must count one holder less, and is taken away with its last one. -/
theorem counted_drop_iff (counted : Counted count blocks slots)
    (held : slots[slot]? = some (some address)) {block : β} (live : blocks address = some block)
    (left : Option β) :
    Counted count (Function.update blocks address left) (slots.set slot none) ↔
      (∀ remaining, left = some remaining → count remaining + 1 = count block) ∧
        (left.isSome = true ↔ 1 < count block) := by
  obtain ⟨removed, elsewhere⟩ := holders_drop held
  rw [counted_update_iff counted elsewhere, counted.counts address block live, ← removed]
  simp

/-- A block may change as long as its count stays. -/
theorem counted_rewrite (counted : Counted count blocks slots) {block changed : β}
    (live : blocks address = some block) (same : count changed = count block) :
    Counted count (Function.update blocks address (some changed)) slots := by
  have present := (counted.live address).mp (by simp [live])
  rw [counted_update_iff counted fun _ _ => rfl, ← counted.counts address block live]
  rw [← counted.counts address block live] at present
  exact ⟨by rintro _ ⟨⟩; exact same, iff_of_true rfl present⟩

/-- A held block is live. -/
theorem live_of_held (counted : Counted count blocks slots)
    (held : slots[slot]? = some (some address)) : ∃ block, blocks address = some block := by
  apply Option.isSome_iff_exists.mp
  apply (counted.live address).mpr
  exact List.count_pos_iff.mpr (List.mem_of_getElem? held)

/-- Handing a slot's content over to an empty slot changes no number of holders. -/
theorem counted_hand (counted : Counted count blocks slots) {target source : Nat}
    {content : Option α} (distinct : target ≠ source) (empty : slots[target]? = some none)
    (held : slots[source]? = some content) :
    Counted count blocks ((slots.set target content).set source none) := by
  refine (counted_congr fun address => ?_).mpr counted
  have still : (slots.set target content)[source]? = some content := by
    rw [List.getElem?_set_ne distinct, held]
  have filled := holders_set empty content address
  have emptied := holders_set still none address
  simp only [reduceCtorEq, ↓reduceIte, Nat.add_zero] at filled emptied
  omega

end Slots

end CppInterpreter.Holders
