import CppInterpreter.TokenGrammar

/-!
# Lexing over a semicolon

Two texts that are lexed to a plain end of input may be put together with a semicolon
between them. The tokens of the first text stay as they are, the semicolon is one, and
those of the second text follow.

The argument is about texts alone. What stands at the beginning of a text is the same when
a semicolon follows instead of the end, unless it is a literal without an end. So a text
spells a sequence of tokens independently of the buffer and the position where it stands,
and a run of the lexer reports what the text of its buffer spells.
-/

namespace CppInterpreter.MetaLexer

open Bytes EscapedScan

def semicolon : UInt8 := ';'.toUInt8

/-- Two texts with a semicolon between them. -/
def Buffer.join (first second : Buffer) : Buffer :=
  ⟨first.bytes ++ semicolon :: second.bytes, by
    have apart : (0 : UInt8) ≠ semicolon := by decide
    simp [first.nulFree, second.nulFree, apart]⟩

/-- The kinds and texts of the tokens before the end of input. -/
def tokens (buffer : Buffer) (run : List Lexed) : List (TokenKind × Bytes) :=
  (run.filter fun lexed => lexed.token.kind ≠ .eof).map fun lexed =>
    (lexed.token.kind, getIdent buffer lexed.token)

/-- A run that ends at the NUL, which is reported as an end of input of one byte. -/
def EndsPlainly (run : List Lexed) : Prop :=
  ∃ ending, run.getLast? = some ending ∧ ending.token.kind = .eof ∧ ending.token.length = 1

/-- The tokens that a text spells, up to its end. -/
inductive Spells : Bytes → List (TokenKind × Bytes) → Prop where
  | nil : Spells [] []
  | token {input : Bytes} {kind : TokenKind} {length : Nat} {rest : List (TokenKind × Bytes)}
      (found : lexeme input = .token kind length) (later : Spells (input.drop length) rest) :
      Spells input ((storedKind kind length, input.take (UInt32.ofNat length).toNat) :: rest)
  | unknown {input : Bytes} {rest : List (TokenKind × Bytes)} (found : lexeme input = .unknown)
      (later : Spells (input.drop 1) rest) : Spells input ((.unknown, []) :: rest)

section Texts

variable {ch : UInt8} {input rest behind : Bytes} {kind : TokenKind} {length : Nat}

/-- A token is not longer than the text that it begins. -/
theorem lexeme_bound (found : lexeme input = .token kind length) : length ≤ input.length := by
  cases input with
  | nil => cases found
  | cons ch rest =>
    cases quote : isQuote ch with
    | true =>
      cases ended : scan backslash ch rest with
      | closed index =>
        have bound := scan_closed_bound (quote_plain quote).1 ended
        simp only [lexeme, quote, ended, ↓reduceIte, Lexeme.token.injEq] at found
        simp only [List.length_cons]
        omega
      | unclosed | overrun => simp [lexeme, quote, ended] at found
    | false =>
      have munches : (lexeme (ch :: rest)).Munches (ch :: rest) := lexeme_munches quote
      rw [found] at munches
      obtain ⟨word, rfl, longest⟩ := munches
      exact longest.begins.length_le

/-- A class without the semicolon stretches as far as before. -/
theorem takeWhile_semicolon {p : UInt8 → Bool} (stops : p semicolon = false) (rest behind : Bytes) :
    (rest ++ semicolon :: behind).takeWhile p = rest.takeWhile p := by
  rw [List.takeWhile_append]
  split
  · next whole =>
    rw [List.takeWhile_cons_of_neg (by simp [stops]), List.append_nil]
    exact (List.takeWhile_prefix p).eq_of_length whole |>.symm
  · rfl

/-- A semicolon continues no mark, as little as the end of a text does. -/
theorem pairs_semicolon (ch : UInt8) (rest behind : Bytes) :
    pairs.lookup (ch, (rest ++ semicolon :: behind).headD 0) = pairs.lookup (ch, rest.headD 0) := by
  cases rest with
  | nil =>
    have apart : semicolon ≠ '/'.toUInt8 ∧ semicolon ≠ '*'.toUInt8 ∧ (0 : UInt8) ≠ '/'.toUInt8 ∧
        (0 : UInt8) ≠ '*'.toUInt8 := by decide
    simp [pairs_lookup, apart]
  | cons next rest => rfl

/-- What stands at the beginning of a text is the same when a semicolon follows, unless it
is a literal that is not closed. -/
theorem lexeme_semicolon (closed : isQuote ch = true → ∃ index, scan backslash ch rest = .closed index)
    (behind : Bytes) : lexeme (ch :: rest ++ semicolon :: behind) = lexeme (ch :: rest) := by
  rw [List.cons_append]
  cases quote : isQuote ch with
  | true =>
    obtain ⟨index, ended⟩ := closed quote
    simp only [lexeme, quote, ↓reduceIte, ended, scan_append ended]
  | false =>
    simp only [lexeme, quote, Bool.false_eq_true, ↓reduceIte, pairs_semicolon,
      takeWhile_semicolon (show isDigit semicolon = false by decide),
      takeWhile_semicolon (show isIdentBody semicolon = false by decide),
      takeWhile_semicolon (show isBlank semicolon = false by decide)]

/-- A token and an unknown byte stay as they are when a semicolon follows. -/
theorem lexeme_followed {found : Lexeme} (here : lexeme input = found)
    (more : (∃ kind length, found = .token kind length) ∨ found = .unknown) (behind : Bytes) :
    lexeme (input ++ semicolon :: behind) = found := by
  subst here
  cases input with
  | nil => simp [lexeme] at more
  | cons ch rest =>
    apply lexeme_semicolon
    intro quote
    cases ended : scan backslash ch rest with
    | closed index => exact ⟨index, rfl⟩
    | unclosed | overrun => simp [lexeme, quote, ended] at more

/-- The text behind a semicolon between two texts spells what it did before. -/
theorem spells_semicolon {first second : Bytes} {ones others : List (TokenKind × Bytes)}
    (spellsFirst : Spells first ones) (spellsSecond : Spells second others) :
    Spells (first ++ semicolon :: second) (ones ++ (.semicolon, text ";") :: others) := by
  induction spellsFirst with
  | nil =>
    have alone : lexeme (semicolon :: second) = .token .semicolon 1 := by
      have plain : isQuote semicolon = false := by decide
      have single : punctuators.lookup semicolon = some .semicolon := by decide
      have apart : semicolon ≠ '/'.toUInt8 ∧ semicolon ≠ '*'.toUInt8 := by decide
      simp [lexeme, plain, pairs_lookup, single, apart]
    exact .token alone spellsSecond
  | @token input kind length rest found later inductionHypothesis =>
    have bound := lexeme_bound found
    have recorded : (UInt32.ofNat length).toNat ≤ input.length := by
      rw [UInt32.toNat_ofNat']
      exact Nat.le_trans (Nat.mod_le _ _) bound
    have followed := lexeme_followed found (.inl ⟨kind, length, rfl⟩) second
    rw [← List.drop_append_of_le_length bound] at inductionHypothesis
    rw [List.cons_append, ← List.take_append_of_le_length recorded]
    exact .token followed inductionHypothesis
  | @unknown input rest found later inductionHypothesis =>
    have followed := lexeme_followed found (.inr rfl) second
    have nonempty : 1 ≤ input.length := by
      cases input with
      | nil => cases found
      | cons => exact Nat.succ_le_succ (Nat.zero_le _)
    rw [← List.drop_append_of_le_length nonempty] at inductionHypothesis
    exact .unknown followed inductionHypothesis

end Texts

section Runs

variable {buffer : Buffer} {pos : Nat} {lexed : Lexed} {run : List Lexed}

/-- A token before the end of input is listed. -/
theorem tokens_more (more : lexed.token.kind ≠ .eof) (run : List Lexed) :
    tokens buffer (lexed :: run) =
      (lexed.token.kind, getIdent buffer lexed.token) :: tokens buffer run := by
  simp [tokens, more]

/-- The end of input is not listed. -/
theorem tokens_last (eof : lexed.token.kind = .eof) : tokens buffer [lexed] = [] := by
  simp [tokens, eof]

/-- A run ends as its later calls do. -/
theorem endsPlainly_more (nonempty : run ≠ []) : EndsPlainly (lexed :: run) ↔ EndsPlainly run := by
  rw [EndsPlainly, EndsPlainly, List.getLast?_cons_of_ne_nil nonempty]

/-- A run consists of one call at least. -/
theorem run_nonempty {calls : Nat} (ran : lexRun buffer calls pos = some run) : run ≠ [] := by
  cases calls with
  | zero => cases ran
  | succ calls =>
    simp only [lexRun] at ran
    split at ran
    · cases ran
    · split at ran
      · cases ran
        exact List.cons_ne_nil _ _
      · obtain ⟨rest, _, rfl⟩ := Option.map_eq_some_iff.mp ran
        exact List.cons_ne_nil _ _

/-- The text of a token is as long as it is recorded. -/
theorem ident_recorded {kind : TokenKind} {length : Nat} {value : UInt32}
    (within : pos + length ≤ buffer.size) :
    getIdent buffer ⟨kind, pos, UInt32.ofNat length, value⟩ =
      (buffer.bytes.drop pos).take (UInt32.ofNat length).toNat := by
  have recorded : (UInt32.ofNat length).toNat ≤ (buffer.bytes.drop pos).length := by
    rw [UInt32.toNat_ofNat', List.length_drop]
    have bound := Nat.mod_le length (2 ^ 32)
    have size : buffer.size = buffer.bytes.length := rfl
    omega
  rw [getIdent, readable_eq (show pos ≤ buffer.size by omega),
    List.take_append_of_le_length recorded]

/-- A run that ends plainly reports what the text spells. -/
theorem run_spells {calls : Nat} (inside : pos ≤ buffer.size)
    (ran : lexRun buffer calls pos = some run) (plain : EndsPlainly run) :
    Spells (buffer.bytes.drop pos) (tokens buffer run) := by
  induction calls generalizing pos run with
  | zero => cases ran
  | succ calls inductionHypothesis =>
    have yields := lex_yields inside
    cases found : lexeme (buffer.bytes.drop pos) with
    | token kind length =>
      rw [found] at yields
      obtain ⟨_, within, notEof, _, asserted, called⟩ := yields
      have more := storedKind_ne_eof notEof length
      obtain ⟨rest, later, rfl⟩ := lexRun_later called more ran
      have spelled := inductionHypothesis within later ((endsPlainly_more (run_nonempty later)).mp plain)
      rw [← List.drop_drop] at spelled
      rw [tokens_more more, ident_recorded within]
      exact .token found spelled
    | unknown =>
      rw [found] at yields
      obtain ⟨called, ch, present, _⟩ := yields
      have within : pos + 1 ≤ buffer.size := (List.getElem?_eq_some_iff.mp present).1
      have more : (startToken pos).kind ≠ .eof := TokenKind.noConfusion
      obtain ⟨rest, later, rfl⟩ := lexRun_later called more ran
      have spelled := inductionHypothesis within later ((endsPlainly_more (run_nonempty later)).mp plain)
      rw [← List.drop_drop] at spelled
      rw [tokens_more more]
      exact .unknown found spelled
    | endOfInput =>
      rw [found] at yields
      obtain ⟨rfl, called⟩ := yields
      obtain rfl := lexRun_ended called rfl ran
      rw [tokens_last rfl, Buffer.size, List.drop_length]
      exact .nil
    | unterminated =>
      rw [found] at yields
      obtain ⟨_, asserted, called⟩ := yields
      obtain rfl := lexRun_ended called rfl ran
      obtain ⟨ending, last, _, single⟩ := plain
      cases last
      cases single
    | overrun =>
      rw [found] at yields
      have called : lex buffer pos = .error ⟨buffer.size + 1⟩ := yields
      simp [lexRun, called] at ran

/-- What a text spells is reported by enough calls, which end plainly. -/
theorem spells_run {input : Bytes} {spelled : List (TokenKind × Bytes)} (spells : Spells input spelled)
    (here : buffer.bytes.drop pos = input) (inside : pos ≤ buffer.size) {calls : Nat}
    (enough : buffer.size - pos < calls) :
    ∃ run, lexRun buffer calls pos = some run ∧ EndsPlainly run ∧ tokens buffer run = spelled := by
  obtain ⟨calls, rfl⟩ := Nat.exists_eq_succ_of_ne_zero (Nat.ne_zero_of_lt enough)
  have yields := lex_yields inside
  induction spells generalizing pos calls with
  | nil =>
    rw [here] at yields
    obtain ⟨_, called⟩ := yields
    exact ⟨_, lexRun_last calls called rfl, ⟨_, rfl, rfl, rfl⟩, tokens_last rfl⟩
  | @token input kind length rest found later inductionHypothesis =>
    rw [here, found] at yields
    obtain ⟨positive, within, notEof, _, asserted, called⟩ := yields
    have more := storedKind_ne_eof notEof length
    obtain ⟨calls, rfl⟩ := Nat.exists_eq_succ_of_ne_zero (show calls ≠ 0 by omega)
    obtain ⟨run, ran, plain, listed⟩ := inductionHypothesis (by rw [← here, List.drop_drop]) within calls
      (by omega) (lex_yields within)
    refine ⟨_, lexRun_more called more ran, (endsPlainly_more (run_nonempty ran)).mpr plain, ?_⟩
    rw [tokens_more more, ident_recorded within, here, listed]
  | @unknown input rest found later inductionHypothesis =>
    rw [here, found] at yields
    obtain ⟨called, ch, present, _⟩ := yields
    have within : pos + 1 ≤ buffer.size := (List.getElem?_eq_some_iff.mp present).1
    have more : (startToken pos).kind ≠ .eof := TokenKind.noConfusion
    obtain ⟨calls, rfl⟩ := Nat.exists_eq_succ_of_ne_zero (show calls ≠ 0 by omega)
    obtain ⟨run, ran, plain, listed⟩ := inductionHypothesis (by rw [← here, List.drop_drop]) within calls
      (by omega) (lex_yields within)
    refine ⟨_, lexRun_more called more ran, (endsPlainly_more (run_nonempty ran)).mpr plain, ?_⟩
    rw [tokens_more more, listed]
    rfl

end Runs

/-- The tokens of two texts that end plainly are those of the first one, a semicolon, and
those of the second one, when a semicolon stands between the texts. -/
theorem lexRun_semicolon (first second : Buffer) (firstRun secondRun : List Lexed)
    (firstRan : lexRun first (first.size + 1) 0 = some firstRun) (firstPlain : EndsPlainly firstRun)
    (secondRan : lexRun second (second.size + 1) 0 = some secondRun)
    (secondPlain : EndsPlainly secondRun) :
    ∃ run, lexRun (first.join second) ((first.join second).size + 1) 0 = some run ∧
      EndsPlainly run ∧
      tokens (first.join second) run =
        tokens first firstRun ++ (.semicolon, text ";") :: tokens second secondRun := by
  have spellsFirst := run_spells (Nat.zero_le _) firstRan firstPlain
  have spellsSecond := run_spells (Nat.zero_le _) secondRan secondPlain
  exact spells_run (spells_semicolon spellsFirst spellsSecond) rfl (Nat.zero_le _) (Nat.lt_succ_self _)

/-- A buffer with a slash. -/
def slashBuffer : Buffer := ⟨text "/", by decide⟩

/-- A buffer with a literal. -/
def literalBuffer : Buffer := ⟨text "'x'", by decide⟩

/-- The tokens of a slash and of a literal with a semicolon between them. -/
theorem slash_semicolon_literal : ∃ run,
    lexRun (slashBuffer.join literalBuffer) 6 0 = some run ∧ EndsPlainly run ∧
      tokens (slashBuffer.join literalBuffer) run =
        tokens slashBuffer [⟨⟨.slash, 0, 1, 0xFFFFFFFF⟩, 1, true⟩, ⟨⟨.eof, 1, 1, 0xFFFFFFFF⟩, 2, true⟩] ++
          (.semicolon, text ";") ::
            tokens literalBuffer
              [⟨⟨.charlit, 0, 3, 0xFFFFFFFF⟩, 3, true⟩, ⟨⟨.eof, 3, 1, 0xFFFFFFFF⟩, 4, true⟩] :=
  lexRun_semicolon slashBuffer literalBuffer _ _ (by decide +kernel) ⟨_, rfl, rfl, rfl⟩
    (by decide +kernel) ⟨_, rfl, rfl, rfl⟩

end CppInterpreter.MetaLexer
