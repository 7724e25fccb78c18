import CppInterpreter.LexerTiling

/-!
# Quoted literals

A literal ends at the first quote of its own kind that an even run of backslashes
precedes. The run is looked for behind the opening quote only. The lexer reports the text
from quote to quote, and `getIdentNoQuotes` what stands in between. Without such a quote
the literal ends the input.

The report is right for literals that 32 bits measure. A longer one is recorded with a
smaller length, which cuts its text off.
-/

namespace CppInterpreter.MetaLexer

open Bytes EscapedScan

/-- `Token::getIdentNoQuotes`: the text of a literal without its first and its last byte,
and that of another token as it is. -/
def getIdentNoQuotes (buffer : Buffer) (token : Token) : Bytes :=
  match token.kind with
  | .stringlit | .charlit => (getIdent buffer token).dropLast.drop 1
  | _ => getIdent buffer token

/-- A literal that opens at a position may end at a later one: the same quote stands there,
and the run of backslashes before it and behind the opening quote has even length. -/
def MayEnd (buffer : Buffer) (pos : Nat) (quote : UInt8) (e : Nat) : Prop :=
  pos < e ∧ buffer.bytes[e]? = some quote ∧
    Even (escapeRun backslash (buffer.bytes.drop (pos + 1)) (e - (pos + 1)))

/-- A literal ends at the first position where it may. -/
def Ends (buffer : Buffer) (pos : Nat) (quote : UInt8) (e : Nat) : Prop :=
  MayEnd buffer pos quote e ∧ ∀ earlier < e, ¬ MayEnd buffer pos quote earlier

/-- A call reports a literal between two positions: its kind, where it starts, its length,
and its text without the quotes. The cursor is behind it, and all assertions held. -/
structure Reports (buffer : Buffer) (pos : Nat) (quote : UInt8) (e : Nat) (lexed : Lexed) :
    Prop where
  kind : lexed.token.kind = if quote = '"'.toUInt8 then .stringlit else .charlit
  starts : lexed.token.bufStart = pos
  length : lexed.token.length.toNat = e - pos + 1
  text : getIdentNoQuotes buffer lexed.token = (buffer.bytes.drop (pos + 1)).take (e - (pos + 1))
  curPos : lexed.curPos = e + 1
  asserted : lexed.asserted = true

/-- A call at a quote reports the literal up to its end, and the end of input where it has
none. -/
def LexesLiteral (buffer : Buffer) (pos : Nat) (quote : UInt8) : Prop :=
  (∀ e, Ends buffer pos quote e → ∃ lexed, lex buffer pos = .ok lexed ∧
    Reports buffer pos quote e lexed) ∧
  ((∀ e, ¬ MayEnd buffer pos quote e) → ∃ lexed, lex buffer pos = .ok lexed ∧
    lexed.token.kind = .eof ∧ lexed.token.length = 0 ∧ lexed.curPos = buffer.size)

section Ends

variable {buffer : Buffer} {pos : Nat} {quote : UInt8} {rest : Bytes}

/-- Seen from behind the opening quote, a literal may end where a closer counts. -/
theorem mayEnd_iff (here : buffer.bytes.drop pos = quote :: rest) (e : Nat) :
    MayEnd buffer pos quote e ↔ ∃ index, e = pos + 1 + index ∧ Closes backslash quote rest index := by
  have behind : buffer.bytes.drop (pos + 1) = rest := (read_contents here).2.2.1
  constructor
  · rintro ⟨after, present, even⟩
    obtain ⟨index, rfl⟩ := Nat.exists_eq_add_of_le (Nat.succ_le_of_lt after)
    rw [behind, Nat.add_sub_cancel_left] at even
    refine ⟨index, rfl, ?_, even⟩
    rw [← behind, List.getElem?_drop]
    exact present
  · rintro ⟨index, rfl, present, even⟩
    rw [← behind, List.getElem?_drop] at present
    refine ⟨by omega, present, ?_⟩
    rwa [behind, Nat.add_sub_cancel_left]

/-- A literal ends where the scan behind its opening quote stops. -/
theorem ends_iff (here : buffer.bytes.drop pos = quote :: rest) (isQuote_ : isQuote quote = true)
    (e : Nat) :
    Ends buffer pos quote e ↔
      ∃ index, e = pos + 1 + index ∧ scan backslash quote rest = .closed index := by
  have different := (quote_plain isQuote_).1
  simp only [Ends, mayEnd_iff here, scan_closed_iff different]
  constructor
  · rintro ⟨⟨index, rfl, closes⟩, first⟩
    refine ⟨index, rfl, closes, ?_⟩
    intro earlier before closesBefore
    exact first (pos + 1 + earlier) (by omega) ⟨earlier, rfl, closesBefore⟩
  · rintro ⟨index, rfl, closes, first⟩
    refine ⟨⟨index, rfl, closes⟩, ?_⟩
    rintro _ before ⟨earlier, rfl, closesBefore⟩
    exact first earlier (by omega) closesBefore

end Ends

section Texts

variable {buffer : Buffer} {pos : Nat} {quote : UInt8} {rest : Bytes} {index : Nat}

/-- The recorded text of a short literal reaches from quote to quote. -/
theorem literal_text (here : buffer.bytes.drop pos = quote :: rest) (isQuote_ : isQuote quote = true)
    (ended : scan backslash quote rest = .closed index) (short : index + 2 < 2 ^ 32) :
    getIdent buffer (literalToken quote pos (index + 2)) = quote :: rest.take index ++ [quote] := by
  have different := (quote_plain isQuote_).1
  obtain ⟨inside, _⟩ := read_contents here
  have bound := scan_closed_bound different ended
  have closing := ((scan_closed_iff different rest index).mp ended).1.1
  have whole : (rest ++ [0]).take (index + 1) = rest.take (index + 1) :=
    List.take_append_of_le_length bound
  have stored : (literalToken quote pos (index + 2)).length.toNat = index + 2 :=
    UInt32.toNat_ofNat_of_lt' short
  have starts : (literalToken quote pos (index + 2)).bufStart = pos := rfl
  rw [getIdent, stored, starts, readable_eq (Nat.le_of_lt inside), here, List.cons_append,
    List.take_succ_cons, whole, List.take_add_one, closing]
  rfl

/-- The text of a literal begins and ends with its quote. -/
theorem asserted_quoted (isQuote_ : isQuote quote = true) (body : Bytes) :
    quotedAsserted (quote :: body ++ [quote]) = true := by
  have last : (quote :: body ++ [quote]).getLast? = some quote := List.getLast?_concat
  have first : (quote :: body ++ [quote]).head? = some quote := rfl
  simp only [quotedAsserted, first, last, isQuote_, decide_true, Bool.and_self]

/-- The text between the quotes. -/
theorem identNoQuotes_literal {length : Nat} {body : Bytes}
    (text : getIdent buffer (literalToken quote pos length) = quote :: body ++ [quote]) :
    getIdentNoQuotes buffer (literalToken quote pos length) = body := by
  have literal : getIdentNoQuotes buffer (literalToken quote pos length) =
      (getIdent buffer (literalToken quote pos length)).dropLast.drop 1 := by
    unfold getIdentNoQuotes literalToken
    by_cases double : quote = '"'.toUInt8
    · simp [double]
    · simp [double]
  rw [literal, text, List.dropLast_concat]
  rfl

/-- A literal with an end is reported exactly when 32 bits measure it. -/
theorem reports_iff (here : buffer.bytes.drop pos = quote :: rest) (isQuote_ : isQuote quote = true)
    (ended : scan backslash quote rest = .closed index) :
    (∃ lexed, lex buffer pos = .ok lexed ∧ Reports buffer pos quote (pos + 1 + index) lexed) ↔
      index + 2 < 2 ^ 32 := by
  have called := lex_closed here isQuote_ ended
  constructor
  · rintro ⟨lexed, same, reports⟩
    cases same.symm.trans called
    have length := reports.length
    have stored := (UInt32.ofNat (index + 2)).toNat_lt
    have token : (literalToken quote pos (index + 2)).length = UInt32.ofNat (index + 2) := rfl
    rw [token] at length
    omega
  · intro short
    have text := literal_text here isQuote_ ended short
    have cursor : pos + (index + 2) = pos + 1 + index + 1 := by omega
    refine ⟨_, called, rfl, rfl, ?_, ?_, cursor, ?_⟩
    · have stored : (UInt32.ofNat (index + 2)).toNat = index + 2 := UInt32.toNat_ofNat_of_lt' short
      refine stored.trans ?_
      omega
    · rw [identNoQuotes_literal text, (read_contents here).2.2.1, Nat.add_sub_cancel_left]
    · rw [text]
      exact asserted_quoted isQuote_ _

end Texts

/-- In a buffer that does not end with a backslash, the call at a quote reports its literal
exactly when 32 bits measure the literal. -/
theorem lexes_literal_iff (buffer : Buffer) (ending : buffer.bytes.getLast? ≠ some backslash)
    (pos : Nat) (quote : UInt8) (here : buffer.bytes[pos]? = some quote)
    (isQuote_ : isQuote quote = true) :
    LexesLiteral buffer pos quote ↔ ∀ e, Ends buffer pos quote e → e - pos + 1 < 2 ^ 32 := by
  obtain ⟨inside, same⟩ := List.getElem?_eq_some_iff.mp here
  have split : buffer.bytes.drop pos = quote :: buffer.bytes.drop (pos + 1) := by
    rw [List.drop_eq_getElem_cons inside, same]
  have different := (quote_plain isQuote_).1
  constructor
  · rintro ⟨reported, _⟩ e ends
    obtain ⟨index, rfl, ended⟩ := (ends_iff split isQuote_ e).mp ends
    have short := (reports_iff split isQuote_ ended).mp (reported _ ends)
    omega
  · intro short
    constructor
    · intro e ends
      obtain ⟨index, rfl, ended⟩ := (ends_iff split isQuote_ e).mp ends
      have measured := short _ ends
      apply (reports_iff split isQuote_ ended).mpr
      omega
    · intro never
      have yields := lex_yields (Nat.le_of_lt inside)
      rw [split] at yields
      cases ended : scan backslash quote (buffer.bytes.drop (pos + 1)) with
      | closed index =>
        have closes := ((scan_closed_iff different _ index).mp ended).1
        exact absurd ((mayEnd_iff split _).mpr ⟨index, rfl, closes⟩) (never _)
      | unclosed =>
        rw [(lexeme_unterminated_iff _).mpr ⟨quote, _, rfl, isQuote_, ended⟩] at yields
        obtain ⟨_, asserted, called⟩ := yields
        exact ⟨_, called, rfl, rfl, rfl⟩
      | overrun =>
        have overrun := (lexeme_overrun_iff _).mpr ⟨quote, _, rfl, isQuote_, ended⟩
        rw [← split] at overrun
        exact absurd overrun (no_overrun ending pos)

/-- A literal with an escaped quote. -/
def escapedBuffer : Buffer := ⟨text "'a\\''", by decide⟩

/-- The equivalence for a literal with an escaped quote. -/
theorem lexes_escaped :
    LexesLiteral escapedBuffer 0 '\''.toUInt8 ↔
      ∀ e, Ends escapedBuffer 0 '\''.toUInt8 e → e - 0 + 1 < 2 ^ 32 :=
  lexes_literal_iff escapedBuffer (by decide) 0 '\''.toUInt8 (by decide) (by decide)

/-- A literal of letters. -/
def quotedLetters (count : Nat) : Buffer :=
  ⟨'"'.toUInt8 :: (List.replicate count 'a'.toUInt8 ++ ['"'.toUInt8]), by
    have apart : (0 : UInt8) ≠ '"'.toUInt8 ∧ (0 : UInt8) ≠ 'a'.toUInt8 := by decide
    simp [List.mem_replicate, apart]⟩

/-- The literal of letters ends at its last byte. -/
theorem scan_letters (count : Nat) :
    scan backslash '"'.toUInt8 (List.replicate count 'a'.toUInt8 ++ ['"'.toUInt8]) = .closed count := by
  have apart : 'a'.toUInt8 ≠ backslash ∧ 'a'.toUInt8 ≠ '"'.toUInt8 ∧ '"'.toUInt8 ≠ backslash := by
    decide
  induction count with
  | zero => simp [scan, apart]
  | succ count inductionHypothesis =>
    rw [List.replicate_succ, List.cons_append, scan.eq_def]
    simp [apart, inductionHypothesis, Ending.shift]

/-- A literal that 32 bits do not measure is not reported. -/
theorem letters_not_reported {count : Nat} (long : 2 ^ 32 ≤ count + 2) :
    (quotedLetters count).bytes.getLast? ≠ some backslash ∧
      (quotedLetters count).bytes[0]? = some '"'.toUInt8 ∧ isQuote '"'.toUInt8 = true ∧
      ¬ LexesLiteral (quotedLetters count) 0 '"'.toUInt8 := by
  have split : (quotedLetters count).bytes.drop 0 =
      '"'.toUInt8 :: (List.replicate count 'a'.toUInt8 ++ ['"'.toUInt8]) := rfl
  have quote : isQuote '"'.toUInt8 = true := by decide
  refine ⟨?_, rfl, quote, ?_⟩
  · have apart : '"'.toUInt8 ≠ backslash := by decide
    simp [quotedLetters, List.getLast?_cons, apart]
  · rintro ⟨reported, _⟩
    have ends := (ends_iff split quote _).mpr ⟨count, rfl, scan_letters count⟩
    have short := (reports_iff split quote (scan_letters count)).mp (reported _ ends)
    omega

/-- A literal of 2^32 bytes is not reported. -/
theorem long_literal_not_reported :
    (quotedLetters (2 ^ 32 - 2)).bytes.getLast? ≠ some backslash ∧
      (quotedLetters (2 ^ 32 - 2)).bytes[0]? = some '"'.toUInt8 ∧ isQuote '"'.toUInt8 = true ∧
      ¬ LexesLiteral (quotedLetters (2 ^ 32 - 2)) 0 '"'.toUInt8 :=
  letters_not_reported (by decide)

end CppInterpreter.MetaLexer
