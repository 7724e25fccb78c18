import CppInterpreter.Loops
import CppInterpreter.Strings

/-!
# Reading the output of a command

`Popen` reads what a command writes into a buffer of the caller. The buffer is emptied
first, and its capacity is the size of the chunks that are read. Each round makes room for
one chunk behind the elements, and a round that gets less than a chunk is the last one.

The shell is a parameter that gives the output of a command, and so is the growth of a full
buffer. A read gets less than it asks for only at the end of the output. Storing outside of
the buffer is a fault.
-/

namespace CppInterpreter.Popen

open Bytes

/-- The capacity of a grown vector, from the old one and the size that is needed. -/
structure Growth where
  newCapacity : Nat → Nat → Nat
  enough : ∀ old minSize, minSize ≤ newCapacity old minSize

/-- `llvm::SmallVectorImpl<char>`. -/
structure SmallVector where
  elements : Bytes
  capacity : Nat
  fits : elements.length ≤ capacity

/-- Bytes are stored outside of the elements. -/
structure Overrun where
  position : Nat
  count : Nat
deriving DecidableEq, Repr

/-- `fread`: the bytes that are read, and what remains of the output. -/
def fread (count : Nat) (stream : Bytes) : Bytes × Bytes := (stream.take count, stream.drop count)

/-- Overwrite elements from a position on. -/
def SmallVector.store (buf : SmallVector) (position : Nat) (bytes : Bytes) :
    Except Overrun SmallVector :=
  if inside : position + bytes.length ≤ buf.elements.length then
    .ok { buf with
      elements := buf.elements.take position ++ bytes ++ buf.elements.drop (position + bytes.length)
      fits := by
        have fits := buf.fits
        simp only [List.length_append, List.length_take, List.length_drop]
        omega }
  else .error ⟨position, bytes.length⟩

/-- The variables of the loop: the buffer and the output that is not read yet. -/
structure Reading where
  buf : SmallVector
  stream : Bytes

/-- The line that is given to the shell. -/
def command (cmd : Bytes) (rdE : Bool) : Bytes := cStr (if rdE then cmd ++ text " 2>&1" else cmd)

section Calls

variable (growth : Growth)

/-- `resize`. New elements are zero. -/
def SmallVector.resize (buf : SmallVector) (size : Nat) : SmallVector where
  elements := buf.elements.take size ++ List.replicate (size - buf.elements.length) 0
  capacity := if buf.capacity < size then growth.newCapacity buf.capacity size else buf.capacity
  fits := by
    have fits := buf.fits
    have enough := growth.enough buf.capacity size
    simp only [List.length_append, List.length_take, List.length_replicate]
    split <;> omega

/-- One execution of the loop body. -/
def body (chunk : Nat) (state : Reading) : Reading ⊕ Except Overrun SmallVector :=
  let len := state.buf.elements.length
  let (bytes, stream) := fread chunk state.stream
  match (state.buf.resize growth (len + chunk)).store len bytes with
  | .error fault => .inr (.error fault)
  | .ok buf =>
    if bytes.length < chunk then .inr (.ok (buf.resize growth (len + bytes.length)))
    else .inl ⟨buf, stream⟩

/-- `Popen`. The shell gives the output of a command, or cannot run it. -/
def popen (shell : Bytes → Option Bytes) (fuel : Nat) (cmd : Bytes) (buf : SmallVector) (rdE : Bool) :
    Option (Except Overrun (Bool × SmallVector)) :=
  match shell (command cmd rdE) with
  | none => some (.ok (false, buf))
  | some output =>
    let buf := buf.resize growth 0
    let chunk := buf.capacity
    (Loops.run (body growth chunk) fuel ⟨buf, output⟩).map fun left =>
      left.map fun buf => (decide (buf.elements ≠ []), buf)

/-- A call ends, leaves exactly the output in the buffer, and tells whether there is any. -/
def ReadsAll (shell : Bytes → Option Bytes) (cmd : Bytes) (buf : SmallVector) (rdE : Bool)
    (output : Bytes) : Prop :=
  ∃ fuel after, popen growth shell fuel cmd buf rdE = some (.ok (decide (output ≠ []), after)) ∧
    after.elements = output

end Calls

variable (growth : Growth)

/-- A smaller size keeps the elements in front, and the capacity. -/
theorem resize_shrinks {buf : SmallVector} {size : Nat} (smaller : size ≤ buf.elements.length) :
    (buf.resize growth size).elements = buf.elements.take size ∧
      (buf.resize growth size).capacity = buf.capacity := by
  have fits := buf.fits
  constructor
  · simp [SmallVector.resize, Nat.sub_eq_zero_of_le smaller]
  · simp only [SmallVector.resize, ite_eq_right_iff]
    omega

/-- A read chunk is put behind the elements, in front of what is left of the room made for it. -/
theorem store_room (buf : SmallVector) {bytes : Bytes} {chunk : Nat} (room : bytes.length ≤ chunk) :
    ∃ after, (buf.resize growth (buf.elements.length + chunk)).store buf.elements.length bytes =
        .ok after ∧
      after.elements = buf.elements ++ bytes ++ List.replicate (chunk - bytes.length) 0 := by
  have grown : (buf.resize growth (buf.elements.length + chunk)).elements =
      buf.elements ++ List.replicate chunk 0 := by
    simp [SmallVector.resize, List.take_of_length_le]
  have inside : buf.elements.length + bytes.length ≤
      (buf.resize growth (buf.elements.length + chunk)).elements.length := by
    simp only [grown, List.length_append, List.length_replicate]
    omega
  rw [SmallVector.store, dif_pos inside]
  refine ⟨_, rfl, ?_⟩
  simp [grown]

/-- The last round gets less than a chunk. It leaves what it gets behind the elements. -/
theorem body_last {chunk : Nat} {state : Reading} (short : state.stream.length < chunk) :
    ∃ after, body growth chunk state = .inr (.ok after) ∧
      after.elements = state.buf.elements ++ state.stream := by
  obtain ⟨stored, store, elements⟩ := store_room growth state.buf (Nat.le_of_lt short)
  have whole : state.stream.take chunk = state.stream := List.take_of_length_le (Nat.le_of_lt short)
  simp only [body, fread, whole, store, short, ↓reduceIte]
  refine ⟨_, rfl, ?_⟩
  have shrinks : state.buf.elements.length + state.stream.length ≤ stored.elements.length := by
    simp only [elements, List.length_append]
    omega
  rw [(resize_shrinks growth shrinks).1, elements, ← List.length_append, List.take_left]

/-- A round that gets a chunk leaves it behind the elements, and goes on with the rest. -/
theorem body_chunk {chunk : Nat} {state : Reading} (full : chunk ≤ state.stream.length) :
    ∃ after, body growth chunk state = .inl ⟨after, state.stream.drop chunk⟩ ∧
      after.elements = state.buf.elements ++ state.stream.take chunk := by
  have size : (state.stream.take chunk).length = chunk := List.length_take_of_le full
  obtain ⟨stored, store, elements⟩ := store_room growth state.buf (Nat.le_of_eq size)
  simp only [body, fread, store, size, Nat.lt_irrefl, ↓reduceIte]
  refine ⟨stored, rfl, ?_⟩
  simpa [size] using elements

/-- With chunks that are not empty the loop ends, and has put the whole output behind the
elements. -/
theorem loop_reads {chunk : Nat} (positive : 0 < chunk) (state : Reading) :
    ∃ after, Loops.Returns (body growth chunk) state (.ok after) ∧
      after.elements = state.buf.elements ++ state.stream := by
  induction measured : state.stream.length using Nat.strong_induction_on generalizing state with
  | _ size inductionHypothesis =>
    rcases Nat.lt_or_ge state.stream.length chunk with short | full
    · obtain ⟨after, leaves, elements⟩ := body_last growth short
      exact ⟨after, (Loops.returns_of_leaves leaves _).mpr rfl, elements⟩
    · obtain ⟨next, continues, read⟩ := body_chunk growth full
      have shorter : (state.stream.drop chunk).length < size := by
        simp only [List.length_drop]
        omega
      obtain ⟨after, returns, elements⟩ :=
        inductionHypothesis _ shorter ⟨next, state.stream.drop chunk⟩ rfl
      refine ⟨after, (Loops.returns_of_continues continues _).mpr returns, ?_⟩
      rw [elements, read, List.append_assoc, List.take_append_drop]

/-- With empty chunks the loop never ends, since no read gets less than it asks for. -/
theorem loop_stuck (state : Reading) : ¬ Loops.Terminates (body growth 0) state := by
  apply Loops.diverges (fun _ => True)
  · intro state _
    obtain ⟨after, continues, _⟩ := body_chunk growth (Nat.zero_le state.stream.length)
    exact ⟨_, continues, trivial⟩
  · trivial

/-- Emptying a buffer keeps its capacity. -/
theorem resize_zero (buf : SmallVector) :
    (buf.resize growth 0).elements = [] ∧ (buf.resize growth 0).capacity = buf.capacity :=
  resize_shrinks growth (Nat.zero_le _)

variable {growth}

/-- A buffer with a capacity gets exactly the output. -/
theorem popen_reads {shell : Bytes → Option Bytes} {cmd output : Bytes} {rdE : Bool}
    (opened : shell (command cmd rdE) = some output) {buf : SmallVector} (positive : 0 < buf.capacity) :
    ReadsAll growth shell cmd buf rdE output := by
  obtain ⟨emptied, kept⟩ := resize_zero growth buf
  obtain ⟨after, ⟨fuel, finished⟩, elements⟩ :=
    loop_reads growth positive ⟨buf.resize growth 0, output⟩
  simp only [emptied, List.nil_append] at elements
  refine ⟨fuel, after, ?_, elements⟩
  simp only [popen, opened, kept, finished, Option.map_some, Except.map, elements]

/-- A call with a buffer that has a capacity returns nothing but the output. -/
theorem popen_returns {shell : Bytes → Option Bytes} {cmd output : Bytes} {rdE : Bool}
    (opened : shell (command cmd rdE) = some output) {buf : SmallVector} (positive : 0 < buf.capacity)
    {fuel : Nat} {result : Except Overrun (Bool × SmallVector)}
    (returned : popen growth shell fuel cmd buf rdE = some result) :
    ∃ after, result = .ok (decide (output ≠ []), after) ∧ after.elements = output := by
  obtain ⟨emptied, kept⟩ := resize_zero growth buf
  simp only [popen, opened, kept, Option.map_eq_some_iff] at returned
  obtain ⟨left, finished, rfl⟩ := returned
  obtain ⟨after, returns, elements⟩ :=
    loop_reads growth positive ⟨buf.resize growth 0, output⟩
  obtain rfl : left = .ok after := Loops.returns_unique ⟨fuel, finished⟩ returns
  simp only [emptied, List.nil_append] at elements
  exact ⟨after, by rw [Except.map, elements], elements⟩

/-- A buffer without a capacity keeps the call in its loop. -/
theorem popen_stuck {shell : Bytes → Option Bytes} {cmd output : Bytes} {rdE : Bool}
    (opened : shell (command cmd rdE) = some output) {buf : SmallVector} (empty : buf.capacity = 0)
    (fuel : Nat) : popen growth shell fuel cmd buf rdE = none := by
  simp only [popen, opened, (resize_zero growth buf).2, empty, Option.map_eq_none_iff]
  rw [Option.eq_none_iff_forall_ne_some]
  intro left finished
  exact loop_stuck growth _ ⟨left, fuel, finished⟩

/-- `Popen` reads the output of a command into a buffer exactly when the buffer has a
capacity. -/
theorem popen_reads_iff (growth : Growth) (shell : Bytes → Option Bytes) (cmd output : Bytes)
    (rdE : Bool) (opened : shell (command cmd rdE) = some output) (buf : SmallVector) :
    ReadsAll growth shell cmd buf rdE output ↔ 0 < buf.capacity := by
  constructor
  · rintro ⟨fuel, after, returned, _⟩
    by_contra exhausted
    rw [popen_stuck opened (Nat.eq_zero_of_not_pos exhausted)] at returned
    cases returned
  · exact popen_reads opened

/-- `SmallVectorBase::grow_pod`. -/
def doubling : Growth where
  newCapacity old minSize := max (2 * old + 1) minSize
  enough _ _ := Nat.le_max_right ..

/-- An empty vector with inline storage. -/
def inlineStorage (size : Nat) : SmallVector := ⟨[], size, Nat.zero_le size⟩

/-- A shell in which one command has an output. -/
def oneCommand (line output : Bytes) (asked : Bytes) : Option Bytes :=
  if asked = line then some output else none

/-- The equivalence for a buffer of two bytes. -/
theorem pair_reads :
    ReadsAll doubling (oneCommand (text "ls 2>&1") (text "abc\n")) (text "ls") (inlineStorage 2) true
        (text "abc\n") ↔ 0 < (inlineStorage 2).capacity :=
  popen_reads_iff doubling (oneCommand (text "ls 2>&1") (text "abc\n")) (text "ls") (text "abc\n") true
    (by decide) (inlineStorage 2)

/-- No output is read into a buffer without a capacity: the call does not end. -/
theorem unallocated_never_reads :
    oneCommand (text "ls") (text "abc\n") (command (text "ls") false) = some (text "abc\n") ∧
      (∀ fuel, popen doubling (oneCommand (text "ls") (text "abc\n")) fuel (text "ls")
        (inlineStorage 0) false = none) ∧
      ¬ ReadsAll doubling (oneCommand (text "ls") (text "abc\n")) (text "ls") (inlineStorage 0)
        false (text "abc\n") := by
  have opened : oneCommand (text "ls") (text "abc\n") (command (text "ls") false) =
      some (text "abc\n") := by decide
  refine ⟨opened, popen_stuck opened rfl, ?_⟩
  rintro ⟨fuel, after, returned, _⟩
  rw [popen_stuck opened rfl] at returned
  cases returned

end CppInterpreter.Popen
