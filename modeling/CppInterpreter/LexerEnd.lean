import CppInterpreter.LexerTiling

/-!
# Calls behind the end of input

A parser that looks ahead may call `lex` again after the end of input. A literal that is
never closed leaves the cursor at the NUL, so that the end is found once more. The NUL
itself is consumed like any other byte: the cursor passes it, and the next call reads
outside the buffer.
-/

namespace CppInterpreter.MetaLexer

open Bytes Runs

/-- The cursor, and the kinds of the tokens that the calls so far have left. -/
structure Reading where
  curPos : Nat
  kinds : List TokenKind
deriving DecidableEq, Repr

/-- One more call of `lex` on the same lexer. -/
def lexAgain (buffer : Buffer) (reading : Reading) (_ : Unit) : Outcome Reading OutOfBounds :=
  match lex buffer reading.curPos with
  | .error outOfBounds => .fault outOfBounds
  | .ok lexed => .continues ⟨lexed.curPos, reading.kinds ++ [lexed.token.kind]⟩

/-- The cursor has not passed the NUL, and only ends of input follow an end of input. -/
def Sticky (buffer : Buffer) (reading : Reading) : Prop :=
  reading.curPos ≤ buffer.size ∧
    reading.kinds.Pairwise fun earlier later => earlier = .eof → later = .eof

/-- A call does not find the NUL under its cursor. -/
def BeforeNul (buffer : Buffer) (reading : Reading) (_ : Unit) : Prop :=
  reading.curPos ≠ buffer.size

/-- A reading that is sticky, with the cursor at the NUL after an end of input. -/
def AtNulAfterEnd (buffer : Buffer) (reading : Reading) : Prop :=
  Sticky buffer reading ∧ (.eof ∈ reading.kinds → reading.curPos = buffer.size)

/-- A call at the NUL returns the end of input and passes the NUL. -/
theorem lex_at_nul (buffer : Buffer) :
    lex buffer buffer.size = .ok ⟨⟨.eof, buffer.size, 1, 0xFFFFFFFF⟩, buffer.size + 1, true⟩ := by
  have yields := lex_yields (Nat.le_refl buffer.size)
  have ending : buffer.bytes.drop buffer.size = [] := List.drop_length
  rw [ending] at yields
  exact yields.2

/-- A call behind the NUL reads outside the buffer. -/
theorem lex_behind_nul (buffer : Buffer) :
    lex buffer (buffer.size + 1) = .error ⟨buffer.size + 1⟩ := by
  have unreadable : buffer.readable (buffer.size + 1) = [] := by
    apply List.drop_eq_nil_of_le
    simp [Buffer.size]
  simp [lex, Buffer.read, unreadable, bind, Except.bind]

section Ending

variable {buffer : Buffer} {reading : Reading}

/-- A call before the NUL does not pass it, and leaves the cursor there when it returns
the end of input. -/
theorem lex_before_nul (ending : buffer.bytes.getLast? ≠ some backslash) {curPos : Nat}
    (before : curPos < buffer.size) : ∃ lexed, lex buffer curPos = .ok lexed ∧
      lexed.curPos ≤ buffer.size ∧ (lexed.token.kind = .eof → lexed.curPos = buffer.size) := by
  have yields := lex_yields (Nat.le_of_lt before)
  cases found : lexeme (buffer.bytes.drop curPos) with
  | token kind length =>
    rw [found] at yields
    obtain ⟨_, within, notEof, _, asserted, called⟩ := yields
    have stored : storedKind kind length ≠ .eof := storedKind_ne_eof notEof length
    exact ⟨_, called, within, fun eof => absurd eof stored⟩
  | unknown =>
    rw [found] at yields
    exact ⟨_, yields.1, before, fun eof => nomatch eof⟩
  | endOfInput =>
    rw [found] at yields
    exact absurd yields.1 (Nat.ne_of_lt before)
  | unterminated =>
    rw [found] at yields
    obtain ⟨_, asserted, called⟩ := yields
    exact ⟨_, called, Nat.le_refl _, fun _ => rfl⟩
  | overrun => exact absurd found (no_overrun ending curPos)

/-- A call that finds the NUL does not leave a sticky reading. -/
theorem not_accepted_at_nul (atNul : reading.curPos = buffer.size) :
    ¬ (lexAgain buffer reading ()).Accepted (Sticky buffer) := by
  simp [lexAgain, atNul, lex_at_nul, Outcome.Accepted, Sticky]

/-- Any other call is no later than the first end of input, and leaves a sticky reading. -/
theorem accepted_before_nul (ending : buffer.bytes.getLast? ≠ some backslash)
    (invariant : AtNulAfterEnd buffer reading) (before : reading.curPos ≠ buffer.size) :
    (lexAgain buffer reading ()).Accepted (AtNulAfterEnd buffer) := by
  obtain ⟨⟨inside, ordered⟩, ended⟩ := invariant
  obtain ⟨lexed, called, within, last⟩ := lex_before_nul ending (Nat.lt_of_le_of_ne inside before)
  have running : .eof ∉ reading.kinds := fun present => before (ended present)
  simp only [lexAgain, called, Outcome.Accepted]
  refine ⟨⟨within, ?_⟩, ?_⟩
  · rw [List.pairwise_append]
    refine ⟨ordered, List.pairwise_singleton _ _, ?_⟩
    rintro kind present _ _ rfl
    exact absurd present running
  · intro present
    rcases List.mem_append.mp present with earlier | here
    · exact absurd earlier running
    · exact last (List.mem_singleton.mp here).symm

end Ending

/-- In a buffer that does not end with a backslash, ends of input are sticky in a run of
calls, and the cursor stays inside, exactly when no call finds the NUL. -/
theorem run_sticky_iff (buffer : Buffer) (ending : buffer.bytes.getLast? ≠ some backslash)
    {start : Nat} (inside : start ≤ buffer.size) (calls : List Unit) :
    Safe (performing (lexAgain buffer)) (Sticky buffer) ⟨start, []⟩ calls ↔
      Meets (performing (lexAgain buffer)) (BeforeNul buffer) ⟨start, []⟩ calls := by
  have first : AtNulAfterEnd buffer ⟨start, []⟩ := ⟨⟨inside, .nil⟩, nofun⟩
  refine safe_iff_meets (fun _ invariant => invariant.1) ?_ ?_ calls first
  · rintro reading ⟨⟩ outcome invariant rfl
    by_cases atNul : reading.curPos = buffer.size
    · exact iff_of_false (fun before => before atNul) (not_accepted_at_nul atNul)
    · refine iff_of_true atNul ?_
      exact (accepted_before_nul ending invariant atNul).mono fun _ => And.left
  · rintro reading ⟨⟩ outcome invariant rfl accepted
    by_cases atNul : reading.curPos = buffer.size
    · exact absurd accepted (not_accepted_at_nul atNul)
    · exact accepted_before_nul ending invariant atNul

/-- The equivalence for two calls on a buffer of one identifier and a blank. -/
theorem run_sticky_short :
    Safe (performing (lexAgain ⟨text "a ", by decide⟩)) (Sticky ⟨text "a ", by decide⟩) ⟨0, []⟩ [(), ()] ↔
      Meets (performing (lexAgain ⟨text "a ", by decide⟩)) (BeforeNul ⟨text "a ", by decide⟩) ⟨0, []⟩
        [(), ()] :=
  run_sticky_iff ⟨text "a ", by decide⟩ (by decide) (Nat.zero_le _) [(), ()]

/-- A buffer without contents. -/
def emptyBuffer : Buffer := ⟨[], List.not_mem_nil⟩

/-- The first call on an empty buffer passes the NUL, and the second one reads behind it. -/
theorem empty_passes_nul : emptyBuffer.bytes.getLast? ≠ some backslash ∧
    lex emptyBuffer 0 = .ok ⟨⟨.eof, 0, 1, 0xFFFFFFFF⟩, 1, true⟩ ∧ lex emptyBuffer 1 = .error ⟨1⟩ ∧
      ¬ Safe (performing (lexAgain emptyBuffer)) (Sticky emptyBuffer) ⟨0, []⟩ [(), ()] := by
  refine ⟨nofun, lex_at_nul emptyBuffer, lex_behind_nul emptyBuffer, ?_⟩
  rintro ⟨_, safe⟩
  have called : lexAgain emptyBuffer ⟨0, []⟩ () = .continues ⟨1, [.eof]⟩ := by
    simp only [lexAgain, show (0 : Nat) = emptyBuffer.size from rfl, lex_at_nul]
    rfl
  have passed := safe _ called.symm
  exact absurd passed.1.1 (by decide)

end CppInterpreter.MetaLexer
