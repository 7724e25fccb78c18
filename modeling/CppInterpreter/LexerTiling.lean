import CppInterpreter.LexerBounds

/-!
# Tilings by a lexing run

Calling `lex` until it returns the end of input consumes one lexeme after the other.
The calls tile the buffer, or the prefix before a literal that is never closed, and
there are at most as many as the buffer has bytes, and one.

The tokens describe the tiles only as far as their 32-bit lengths reach. A lexeme of
2^32 bytes or more is recorded with a smaller length; an identifier whose recorded
length is zero is even left unknown. Without such a lexeme the description is exact.
-/

namespace CppInterpreter.MetaLexer

open Bytes EscapedScan

/-- Call `lex` until it returns the end of input, a limited number of times. -/
def lexRun (buffer : Buffer) : Nat → Nat → Option (List Lexed)
  | 0, _ => none
  | calls + 1, curPos =>
    match lex buffer curPos with
    | .error _ => none
    | .ok lexed =>
      if lexed.token.kind = .eof then some [lexed]
      else (lexRun buffer calls lexed.curPos).map (lexed :: ·)

/-- An opening quote that nothing closes. -/
def Unterminated (buffer : Buffer) (curPos : Nat) : Prop :=
  ∃ quote rest, buffer.bytes.drop curPos = quote :: rest ∧ isQuote quote = true ∧
    ∀ index, ¬ Closes backslash quote rest index

/-- The results of successive calls describe tiles from a cursor on. Each call starts
at the cursor that the previous one left. A token starts there as well and is as long
as the tile; an unknown one is a single byte that begins no token. The last call finds
the NUL or a literal that is never closed. -/
inductive Tiles (buffer : Buffer) : Nat → List Lexed → Prop where
  | last {curPos : Nat} {lexed : Lexed} (eof : lexed.token.kind = .eof)
      (advances : curPos < lexed.curPos)
      (complete : curPos = buffer.size ∨ Unterminated buffer curPos) : Tiles buffer curPos [lexed]
  | tile {curPos : Nat} {lexed : Lexed} {rest : List Lexed} (more : lexed.token.kind ≠ .eof)
      (advances : curPos < lexed.curPos) (starts : lexed.token.bufStart = curPos)
      (length : lexed.token.kind ≠ .unknown → lexed.token.length.toNat = lexed.curPos - curPos)
      (single : lexed.token.kind = .unknown → lexed.curPos = curPos + 1 ∧
        ∃ ch, buffer.bytes[curPos]? = some ch ∧ beginsToken ch = false)
      (behind : Tiles buffer lexed.curPos rest) : Tiles buffer curPos (lexed :: rest)

/-- The cursors at which the lexemes from a cursor on begin. -/
inductive Begins (buffer : Buffer) : Nat → Nat → Prop where
  | here (pos : Nat) : Begins buffer pos pos
  | token {pos start length : Nat} {kind : TokenKind}
      (found : lexeme (buffer.bytes.drop pos) = .token kind length)
      (later : Begins buffer (pos + length) start) : Begins buffer pos start
  | unknown {pos start : Nat} (found : lexeme (buffer.bytes.drop pos) = .unknown)
      (later : Begins buffer (pos + 1) start) : Begins buffer pos start

/-- Each lexeme from a cursor on is shorter than 2^32 bytes. -/
def ShortLexemes (buffer : Buffer) (pos : Nat) : Prop :=
  ∀ start kind length, Begins buffer pos start →
    lexeme (buffer.bytes.drop start) = .token kind length → length < 2 ^ 32

section Steps

variable {buffer : Buffer} {pos : Nat}

/-- The lexemes from a token on are short when the token is and those behind it are. -/
theorem short_token {kind : TokenKind} {length : Nat}
    (found : lexeme (buffer.bytes.drop pos) = .token kind length) :
    ShortLexemes buffer pos ↔ length < 2 ^ 32 ∧ ShortLexemes buffer (pos + length) := by
  constructor
  · intro short
    exact ⟨short pos kind length (.here pos) found,
      fun start other size begins => short start other size (.token found begins)⟩
  · rintro ⟨bound, short⟩ start other size begins at_
    cases begins with
    | here => simp_all
    | token first later =>
      rw [found] at first
      cases first
      exact short start other size later at_
    | unknown first => simp [found] at first

/-- A byte that begins no token adds no lexeme of its own. -/
theorem short_unknown (found : lexeme (buffer.bytes.drop pos) = .unknown) :
    ShortLexemes buffer pos ↔ ShortLexemes buffer (pos + 1) := by
  constructor
  · intro short start kind length begins
    exact short start kind length (.unknown found begins)
  · intro short start kind length begins at_
    cases begins with
    | here => simp [found] at at_
    | token first => simp [found] at first
    | unknown _ later => exact short start kind length later at_

/-- Where the text ends there is no lexeme left. -/
theorem short_ended (found : ∀ kind length, lexeme (buffer.bytes.drop pos) ≠ .token kind length)
    (known : lexeme (buffer.bytes.drop pos) ≠ .unknown) : ShortLexemes buffer pos := by
  intro start kind length begins at_
  cases begins with
  | here => exact absurd at_ (found kind length)
  | token first => exact absurd first (found _ _)
  | unknown first => exact absurd first known

/-- A call before the end of input puts its result before those of the later calls. -/
theorem lexRun_more {lexed : Lexed} {rest : List Lexed} {calls : Nat}
    (called : lex buffer pos = .ok lexed) (more : lexed.token.kind ≠ .eof)
    (ran : lexRun buffer calls lexed.curPos = some rest) :
    lexRun buffer (calls + 1) pos = some (lexed :: rest) := by
  simp [lexRun, called, more, ran]

/-- The end of input ends the run. -/
theorem lexRun_last {lexed : Lexed} (calls : Nat) (called : lex buffer pos = .ok lexed)
    (eof : lexed.token.kind = .eof) : lexRun buffer (calls + 1) pos = some [lexed] := by
  simp [lexRun, called, eof]

/-- The results of a run behind a call before the end of input are those of the later
calls. -/
theorem lexRun_later {lexed : Lexed} {run : List Lexed} {calls : Nat}
    (called : lex buffer pos = .ok lexed) (more : lexed.token.kind ≠ .eof)
    (ran : lexRun buffer (calls + 1) pos = some run) :
    ∃ rest, lexRun buffer calls lexed.curPos = some rest ∧ run = lexed :: rest := by
  simp only [lexRun, called, more, ↓reduceIte] at ran
  obtain ⟨rest, later, same⟩ := Option.map_eq_some_iff.mp ran
  exact ⟨rest, later, same.symm⟩

/-- A run that reports the end of input at once consists of this report. -/
theorem lexRun_ended {lexed : Lexed} {run : List Lexed} {calls : Nat}
    (called : lex buffer pos = .ok lexed) (eof : lexed.token.kind = .eof)
    (ran : lexRun buffer (calls + 1) pos = some run) : run = [lexed] := by
  rw [lexRun_last calls called eof] at ran
  exact (Option.some.inj ran).symm

/-- A call before the end of input tiles when its own tile is described and the later
calls tile behind it. -/
theorem tiles_more {lexed : Lexed} {rest : List Lexed} (more : lexed.token.kind ≠ .eof)
    (advances : pos < lexed.curPos) (starts : lexed.token.bufStart = pos) :
    Tiles buffer pos (lexed :: rest) ↔
      ((lexed.token.kind ≠ .unknown → lexed.token.length.toNat = lexed.curPos - pos) ∧
        (lexed.token.kind = .unknown → lexed.curPos = pos + 1 ∧
          ∃ ch, buffer.bytes[pos]? = some ch ∧ beginsToken ch = false)) ∧
      Tiles buffer lexed.curPos rest := by
  constructor
  · intro tiled
    cases tiled with
    | last eof => exact absurd eof more
    | tile _ _ _ length single behind => exact ⟨⟨length, single⟩, behind⟩
  · rintro ⟨⟨length, single⟩, behind⟩
    exact .tile more advances starts length single behind

/-- A token describes its lexeme exactly as long as 32 bits hold the length. From
2^32 on the recorded length is too small, and where it is zero the unknown kind claims
a single byte. -/
theorem described_iff {kind : TokenKind} (known : kind ≠ .unknown) {length : Nat}
    (positive : 0 < length) (p : Prop) :
    ((storedKind kind length ≠ .unknown → (UInt32.ofNat length).toNat = length) ∧
      (storedKind kind length = .unknown → length = 1 ∧ p)) ↔ length < 2 ^ 32 := by
  constructor
  · rintro ⟨exact_, single⟩
    by_cases unknown : storedKind kind length = .unknown
    · have one := (single unknown).1
      omega
    · have bound := (UInt32.ofNat length).toNat_lt
      rw [exact_ unknown] at bound
      exact bound
  · intro bound
    have exact_ : (UInt32.ofNat length).toNat = length := UInt32.toNat_ofNat_of_lt' bound
    refine ⟨fun _ => exact_, ?_⟩
    intro unknown
    have vanished : UInt32.ofNat length = 0 := by
      by_contra stored
      simp [storedKind, stored, known] at unknown
    rw [vanished] at exact_
    exact absurd exact_ (Nat.ne_of_lt positive)

end Steps

/-- A buffer whose last byte is no backslash has no escape that covers the NUL. -/
theorem no_overrun {buffer : Buffer} (ending : buffer.bytes.getLast? ≠ some backslash) (pos : Nat) :
    lexeme (buffer.bytes.drop pos) ≠ .overrun := by
  rw [Ne, lexeme_overrun_iff]
  rintro ⟨quote, rest, here, isQuote_, overrun⟩
  have plain : rest.getLast? ≠ some backslash := by
    intro escaped
    have suffix : rest <:+ buffer.bytes :=
      (List.suffix_cons quote rest).trans (here ▸ List.drop_suffix pos buffer.bytes)
    obtain ⟨front, split⟩ := suffix
    rw [← split, List.getLast?_append, escaped] at ending
    exact ending rfl
  have even := ((scan_overrun_iff (quote_plain isQuote_).1 rest).mp overrun).2
  rw [escapeRun_ending plain] at even
  exact even Even.zero

/-- Enough calls reach the end of input, and their results describe tiles exactly when
the lexemes are short. Each call consumes its lexeme, which is not empty, so one call
for each remaining byte and one for the end suffice. -/
theorem lexRun_tiles {buffer : Buffer} (ending : buffer.bytes.getLast? ≠ some backslash)
    (calls : Nat) {pos : Nat} (inside : pos ≤ buffer.size) (enough : buffer.size - pos < calls) :
    ∃ run, lexRun buffer calls pos = some run ∧
      (Tiles buffer pos run ↔ ShortLexemes buffer pos) := by
  induction calls generalizing pos with
  | zero => omega
  | succ calls inductionHypothesis =>
    have yields := lex_yields inside
    cases found : lexeme (buffer.bytes.drop pos) with
    | token kind length =>
      rw [found] at yields
      obtain ⟨positive, within, notEof, known, asserted, called⟩ := yields
      obtain ⟨rest, ran, tiles⟩ := inductionHypothesis within (by omega)
      have stored : storedKind kind length ≠ .eof := storedKind_ne_eof notEof length
      refine ⟨_, lexRun_more called stored ran, ?_⟩
      rw [short_token found, ← tiles]
      refine Iff.trans (tiles_more stored ?_ rfl) ?_
      · exact Nat.lt_add_of_pos_right positive
      apply and_congr_left
      intro _
      simp only [Nat.add_sub_cancel_left, Nat.add_left_cancel_iff]
      exact described_iff known positive _
    | unknown =>
      rw [found] at yields
      obtain ⟨called, ch, present, begins⟩ := yields
      have within : pos + 1 ≤ buffer.size := (List.getElem?_eq_some_iff.mp present).1
      obtain ⟨rest, ran, tiles⟩ := inductionHypothesis within (by omega)
      have more : (startToken pos).kind ≠ .eof := TokenKind.noConfusion
      refine ⟨_, lexRun_more called more ran, ?_⟩
      rw [short_unknown found, ← tiles]
      refine Iff.trans (tiles_more more (Nat.lt_succ_self pos) rfl) ?_
      apply and_iff_right
      exact ⟨fun known => absurd rfl known, fun _ => ⟨rfl, ch, present, begins⟩⟩
    | endOfInput =>
      rw [found] at yields
      obtain ⟨atEnd, called⟩ := yields
      refine ⟨_, lexRun_last calls called rfl, ?_⟩
      exact iff_of_true (.last rfl (Nat.lt_succ_self pos) (.inl atEnd))
        (short_ended (by simp [found]) (by simp [found]))
    | unterminated =>
      rw [found] at yields
      obtain ⟨before, asserted, called⟩ := yields
      refine ⟨_, lexRun_last calls called rfl, ?_⟩
      refine iff_of_true (.last rfl before (.inr ?_))
        (short_ended (by simp [found]) (by simp [found]))
      obtain ⟨quote, rest, here, isQuote_, ended⟩ := (lexeme_unterminated_iff _).mp found
      have met := scan_meets (quote_plain isQuote_).1 rest
      rw [ended] at met
      exact ⟨quote, rest, here, isQuote_, met.1⟩
    | overrun => exact absurd found (no_overrun ending pos)

/-- The bytes that the calls before the end of input consume. -/
def consumed (buffer : Buffer) : Nat → List Lexed → Bytes
  | _, [] => []
  | curPos, lexed :: rest =>
    if lexed.token.kind = .eof then []
    else (buffer.bytes.drop curPos).take (lexed.curPos - curPos) ++ consumed buffer lexed.curPos rest

/-- The consumed bytes are the text up to its end, or up to the opening quote of a
literal that is never closed. -/
theorem tiles_consumed {buffer : Buffer} {curPos : Nat} {run : List Lexed}
    (tiles : Tiles buffer curPos run) :
    ∃ stop, curPos ≤ stop ∧ (stop = buffer.size ∨ Unterminated buffer stop) ∧
      consumed buffer curPos run = (buffer.bytes.drop curPos).take (stop - curPos) := by
  induction tiles with
  | @last curPos lexed eof _ complete =>
    exact ⟨curPos, Nat.le_refl _, complete, by simp [consumed, eof]⟩
  | @tile curPos lexed rest more advances _ _ _ _ inductionHypothesis =>
    obtain ⟨stop, after, complete, text⟩ := inductionHypothesis
    refine ⟨stop, by omega, complete, ?_⟩
    have split : stop - curPos = (lexed.curPos - curPos) + (stop - lexed.curPos) := by omega
    have behind : curPos + (lexed.curPos - curPos) = lexed.curPos := by omega
    rw [consumed, if_neg more, text, split, List.take_add, List.drop_drop, behind]

/-- From the start of a buffer that does not end with a backslash, at most one call
for each byte and one more reach the end of input. Their results describe tiles exactly
when no lexeme is 2^32 bytes long or longer. -/
theorem run_tiles_iff (buffer : Buffer) (ending : buffer.bytes.getLast? ≠ some backslash) :
    (∃ run, lexRun buffer (buffer.size + 1) 0 = some run ∧ Tiles buffer 0 run) ↔
      ShortLexemes buffer 0 := by
  obtain ⟨run, ran, tiles⟩ := lexRun_tiles ending (buffer.size + 1) (Nat.zero_le _) (by omega)
  rw [← tiles, ran]
  simp

example : (lexRun ⟨text "a1 /*'x", by decide⟩ 8 0).map (·.map (·.token.kind)) =
    some [.ident, .space, .l_comment, .eof] := by decide +kernel

/-- The equivalence on a short buffer that ends with an unclosed literal. -/
theorem run_tiles_unclosed :
    (∃ run, lexRun ⟨text "a1 /*'x", by decide⟩ 8 0 = some run ∧
      Tiles ⟨text "a1 /*'x", by decide⟩ 0 run) ↔ ShortLexemes ⟨text "a1 /*'x", by decide⟩ 0 :=
  run_tiles_iff ⟨text "a1 /*'x", by decide⟩ (by decide)

/-- A single identifier as long as the buffer. -/
def letters (count : Nat) : Buffer :=
  ⟨List.replicate count 'a'.toUInt8, fun present => by
    have nul : (0 : UInt8) = 'a'.toUInt8 := List.eq_of_mem_replicate present
    exact absurd nul (by decide)⟩

/-- The buffer of letters is one lexeme. -/
theorem lexeme_letters (count : Nat) :
    lexeme (letters (count + 1)).bytes = .token .ident (count + 1) := by
  have head : isQuote 'a'.toUInt8 = false ∧ isDigit 'a'.toUInt8 = false ∧
      isIdentHead 'a'.toUInt8 = true ∧ isIdentBody 'a'.toUInt8 = true ∧
      'a'.toUInt8 ≠ '/'.toUInt8 ∧ 'a'.toUInt8 ≠ '*'.toUInt8 ∧
      punctuators.lookup 'a'.toUInt8 = none := by
    decide
  obtain ⟨quote, digit, letter, body, slash, star, single⟩ := head
  have whole : (List.replicate count 'a'.toUInt8).takeWhile isIdentBody =
      List.replicate count 'a'.toUInt8 := by
    rw [List.takeWhile_replicate, if_pos body]
  simp only [letters, List.replicate_succ, lexeme, quote, pairs_lookup, slash, star, single, digit,
    letter, whole, List.length_replicate, Bool.false_eq_true, ↓reduceIte, Nat.add_comm 1]

/-- Letters in a number that 32 bits do not hold are not tiled by the token that the
lexer records for them. -/
theorem letters_untiled {count : Nat} (long : 2 ^ 32 ≤ count) :
    (letters count).bytes.getLast? ≠ some backslash ∧
      ¬ ∃ run, lexRun (letters count) ((letters count).size + 1) 0 = some run ∧
        Tiles (letters count) 0 run := by
  have ending : (letters count).bytes.getLast? ≠ some backslash := by
    intro last
    have letter := List.eq_of_mem_replicate (List.mem_of_getLast? last)
    exact absurd letter (by decide)
  refine ⟨ending, ?_⟩
  rintro ⟨run, ran, tiles⟩
  obtain ⟨_, same, short⟩ := lexRun_tiles ending ((letters count).size + 1) (Nat.zero_le _) (by omega)
  obtain rfl : run = _ := Option.some.inj (ran.symm.trans same)
  obtain ⟨before, rfl⟩ := Nat.exists_eq_succ_of_ne_zero (show count ≠ 0 by omega)
  have bound := short.mp tiles 0 .ident (before + 1) (.here 0) (lexeme_letters before)
  omega

/-- A buffer of 2^32 letters is one identifier, which is recorded with length zero and
an unknown kind, so its only token describes a single byte. -/
theorem long_identifier_untiled : (letters (2 ^ 32)).bytes.getLast? ≠ some backslash ∧
    ¬ ∃ run, lexRun (letters (2 ^ 32)) ((letters (2 ^ 32)).size + 1) 0 = some run ∧
      Tiles (letters (2 ^ 32)) 0 run :=
  letters_untiled (Nat.le_refl _)

end CppInterpreter.MetaLexer
