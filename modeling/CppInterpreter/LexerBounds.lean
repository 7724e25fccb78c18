import CppInterpreter.Lexemes
import CppInterpreter.Runs

/-!
# Bounds of a lexing session

A session calls the lexer any number of times, in any order of its entry points, until
a call of `lex` returns the end of input. Every entry point but `lex` stops at the NUL
at the latest. The branches of `lex` do as well, except the loop over a literal: its
escape skips the NUL when an odd run of backslashes stands before it. This happens
exactly when the literal has no closing quote, and it is the only read outside the
buffer.
-/

namespace CppInterpreter.MetaLexer

open Bytes EscapedScan Runs

/-- The entry points of the lexer. -/
inductive Call where
  | lex
  | lexAnyString
  | readToEndOfLine (kind : TokenKind)
  | skipWhiteSpace
deriving DecidableEq, Repr

/-- Perform a call at a cursor. The session ends at the first end of input that `lex`
returns. -/
def perform (buffer : Buffer) (curPos : Nat) : Call → Outcome Nat OutOfBounds
  | .lex =>
    match lex buffer curPos with
    | .error outOfBounds => .fault outOfBounds
    | .ok lexed => if lexed.token.kind = .eof then .ends else .continues lexed.curPos
  | .lexAnyString =>
    match lexAnyString buffer curPos with
    | .error outOfBounds => .fault outOfBounds
    | .ok lexed => .continues lexed.curPos
  | .readToEndOfLine kind =>
    match readToEndOfLine buffer kind curPos with
    | .error outOfBounds => .fault outOfBounds
    | .ok lexed => .continues lexed.curPos
  | .skipWhiteSpace =>
    match skipWhiteSpace buffer curPos with
    | .error outOfBounds => .fault outOfBounds
    | .ok curPos => .continues curPos

/-- A literal that a call of `lex` begins is closed, or no escape covers the NUL: the
run of backslashes at the end of the buffer, as far as it stands behind the opening
quote, has even length. -/
def LiteralEnds (buffer : Buffer) (curPos : Nat) (call : Call) : Prop :=
  call = .lex → ∀ quote rest, buffer.bytes.drop curPos = quote :: rest → isQuote quote = true →
    (∃ index, Closes backslash quote rest index) ∨ Even (escapeRun backslash rest rest.length)

/-- The guard of a call excludes the overrun and nothing else. -/
theorem literalEnds_lex (buffer : Buffer) (curPos : Nat) :
    LiteralEnds buffer curPos .lex ↔ lexeme (buffer.bytes.drop curPos) ≠ .overrun := by
  rw [Ne, lexeme_overrun_iff]
  constructor
  · rintro ends ⟨quote, rest, here, isQuote_, overrun⟩
    rw [scan_overrun_iff (quote_plain isQuote_).1] at overrun
    rcases ends rfl quote rest here isQuote_ with ⟨index, closes⟩ | even
    · exact overrun.1 index closes
    · exact overrun.2 even
  · intro absent _ quote rest here isQuote_
    by_contra open_
    rw [not_or, not_exists] at open_
    exact absent ⟨quote, rest, here, isQuote_,
      (scan_overrun_iff (quote_plain isQuote_).1 rest).mpr open_⟩

/-- A loop that the NUL stops ends inside the buffer. -/
theorem skipWhile_inside {buffer : Buffer} {curPos : Nat} (inside : curPos ≤ buffer.size)
    {p : UInt8 → Bool} (stops : p 0 = false) :
    ∃ behind ≤ buffer.size, skipWhile p (buffer.readable curPos) curPos = .ok behind := by
  refine ⟨_, ?_, by rw [readable_eq inside, skipWhile_text stops]⟩
  have stretch := (List.takeWhile_prefix p (l := buffer.bytes.drop curPos)).length_le
  rw [List.length_drop] at stretch
  unfold Buffer.size at *
  omega

/-- A call of `lex` inside the buffer stays inside, or ends the session, exactly when
no escape covers the NUL. -/
theorem lex_accepted {buffer : Buffer} {curPos : Nat} (inside : curPos ≤ buffer.size) :
    (perform buffer curPos .lex).Accepted (· ≤ buffer.size) ↔
      lexeme (buffer.bytes.drop curPos) ≠ .overrun := by
  have yields := lex_yields inside
  cases found : lexeme (buffer.bytes.drop curPos) with
  | token kind length =>
    rw [found] at yields
    obtain ⟨_, within, notEof, _, _, lexed⟩ := yields
    have stored : storedKind kind length ≠ .eof := storedKind_ne_eof notEof length
    simp [perform, lexed, stored, Outcome.Accepted, within]
  | unknown =>
    rw [found] at yields
    obtain ⟨lexed, ch, present, _⟩ := yields
    have within : curPos + 1 ≤ buffer.size := (List.getElem?_eq_some_iff.mp present).1
    simp [perform, lexed, startToken, Outcome.Accepted, within]
  | endOfInput =>
    rw [found] at yields
    simp [perform, yields.2, Outcome.Accepted]
  | unterminated =>
    rw [found] at yields
    obtain ⟨_, _, lexed⟩ := yields
    simp [perform, lexed, Outcome.Accepted]
  | overrun =>
    rw [found] at yields
    have faults : lex buffer curPos = .error ⟨buffer.size + 1⟩ := yields
    simp [perform, faults, Outcome.Accepted]

/-- One call from a cursor inside the buffer keeps the cursor inside, without a read
outside, exactly when the literal it begins ends. -/
theorem perform_accepted {buffer : Buffer} {curPos : Nat} (call : Call)
    (inside : curPos ≤ buffer.size) :
    LiteralEnds buffer curPos call ↔ (perform buffer curPos call).Accepted (· ≤ buffer.size) := by
  cases call with
  | lex => rw [literalEnds_lex, lex_accepted inside]
  | lexAnyString =>
    obtain ⟨behind, within, skipped⟩ := skipWhile_inside inside
      (p := fun ch => ch ≠ ' '.toUInt8 && ch ≠ '\t'.toUInt8 && ch ≠ 0) (by decide)
    refine iff_of_true (fun lexing => by cases lexing) ?_
    simp only [perform, lexAnyString, skipped, bind, Except.bind, pure, Except.pure,
      Outcome.Accepted, within]
  | readToEndOfLine kind =>
    obtain ⟨behind, within, skipped⟩ := skipWhile_inside inside
      (p := fun ch => ch ≠ '\r'.toUInt8 && ch ≠ '\n'.toUInt8 && ch ≠ 0) (by decide)
    refine iff_of_true (fun lexing => by cases lexing) ?_
    simp only [perform, readToEndOfLine, skipped, bind, Except.bind, pure, Except.pure,
      Outcome.Accepted, within]
  | skipWhiteSpace =>
    obtain ⟨behind, within, skipped⟩ := skipWhile_inside inside
      (p := fun ch => isBlank ch && ch ≠ 0) (by decide)
    refine iff_of_true (fun lexing => by cases lexing) ?_
    simp only [perform, skipWhiteSpace, skipped, Outcome.Accepted, within]

/-- A session stays inside its buffer exactly when each literal it begins is closed or
leaves the NUL uncovered. -/
theorem session_inside_iff (buffer : Buffer) (calls : List Call) :
    Safe (performing (perform buffer)) (· ≤ buffer.size) 0 calls ↔
      Meets (performing (perform buffer)) (LiteralEnds buffer) 0 calls := by
  apply safe_iff_meets
  · exact fun _ inside => inside
  · rintro curPos call outcome inside rfl
    exact perform_accepted call inside
  · exact fun _ _ _ _ _ accepted => accepted
  · exact Nat.zero_le _

/-- A quote and a backslash: the escape covers the NUL, and the loop reads the byte
behind it. -/
def coveredNul : Buffer := ⟨text "\"\\", by decide⟩

/-- A single call of `lex` leaves a buffer of two bytes and reads at index three. -/
theorem covered_nul_overruns : lex coveredNul 0 = .error ⟨coveredNul.size + 1⟩ ∧
    ¬ Safe (performing (perform coveredNul)) (· ≤ coveredNul.size) 0 [.lex] := by
  have faults : lex coveredNul 0 = .error ⟨coveredNul.size + 1⟩ := by decide +kernel
  refine ⟨faults, ?_⟩
  rintro ⟨_, accepted⟩
  have outcome := accepted _ rfl
  simp [perform, faults, Outcome.Accepted] at outcome

end CppInterpreter.MetaLexer
