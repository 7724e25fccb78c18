import CppInterpreter.EscapedScan
import CppInterpreter.MetaLexer

/-!
# Lexemes of a text

A text is divided into lexemes of unbounded length: literals, comment marks,
punctuators, numbers, identifiers and runs of blanks, with single bytes that begin
none of these in between. A literal that is never closed ends the text, unless an
escape at its end covers the terminating NUL.

The lexer yields, at each cursor inside its buffer, the lexeme found there: it leaves
the cursor directly behind the lexeme and reports its length as far as 32 bits hold
it. It reads outside the buffer exactly at a literal whose last escape covers the NUL.
-/

namespace CppInterpreter.MetaLexer

open Bytes EscapedScan

/-- What stands at the beginning of a text. -/
inductive Lexeme where
  | token (kind : TokenKind) (length : Nat)
  | unknown
  | endOfInput
  | unterminated
  | overrun
deriving DecidableEq, Repr

/-- The marks of two bytes. -/
def pairs : List ((UInt8 × UInt8) × TokenKind) :=
  [(('/'.toUInt8, '/'.toUInt8), .comment), (('/'.toUInt8, '*'.toUInt8), .l_comment),
    (('*'.toUInt8, '/'.toUInt8), .r_comment)]

/-- The lexeme that stands first in a text. -/
def lexeme : Bytes → Lexeme
  | [] => .endOfInput
  | ch :: rest =>
    if isQuote ch then
      match scan backslash ch rest with
      | .closed index => .token (if ch = '"'.toUInt8 then .stringlit else .charlit) (index + 2)
      | .unclosed => .unterminated
      | .overrun => .overrun
    else
      match pairs.lookup (ch, rest.headD 0), punctuators.lookup ch with
      | some kind, _ => .token kind 2
      | none, some kind => .token kind 1
      | none, none =>
        if isDigit ch then .token .constant (1 + (rest.takeWhile isDigit).length)
        else if isIdentHead ch then .token .ident (1 + (rest.takeWhile isIdentBody).length)
        else if isBlank ch then .token .space (1 + (rest.takeWhile isBlank).length)
        else .unknown

/-- Without a quote at its beginning a text begins with a token or an unknown byte. -/
theorem lexeme_unquoted {ch : UInt8} (plain : isQuote ch = false) (rest : Bytes) :
    (∃ kind length, lexeme (ch :: rest) = .token kind length) ∨ lexeme (ch :: rest) = .unknown := by
  simp only [lexeme, plain, Bool.false_eq_true, ↓reduceIte]
  split
  · exact .inl ⟨_, _, rfl⟩
  · exact .inl ⟨_, _, rfl⟩
  · split_ifs
    · exact .inl ⟨_, _, rfl⟩
    · exact .inl ⟨_, _, rfl⟩
    · exact .inl ⟨_, _, rfl⟩
    · exact .inr rfl

/-- Only a quote begins what is neither a token, nor unknown, nor the end of input. -/
theorem lexeme_literal {text : Bytes} {found : Lexeme} (here : lexeme text = found)
    (noToken : ∀ kind length, found ≠ .token kind length) (known : found ≠ .unknown)
    (more : found ≠ .endOfInput) : ∃ quote rest, text = quote :: rest ∧ isQuote quote = true := by
  subst here
  cases text with
  | nil => exact absurd rfl more
  | cons ch rest =>
    cases quote : isQuote ch with
    | true => exact ⟨ch, rest, rfl, quote⟩
    | false =>
      rcases lexeme_unquoted quote rest with ⟨kind, length, token⟩ | unknown
      · exact absurd token (noToken kind length)
      · exact absurd unknown known

/-- A literal without an end stands where a scan from its opening quote says so. -/
theorem lexeme_overrun_iff (text : Bytes) : lexeme text = .overrun ↔
    ∃ quote rest, text = quote :: rest ∧ isQuote quote = true ∧
      scan backslash quote rest = .overrun := by
  constructor
  · intro overrun
    obtain ⟨quote, rest, rfl, isQuote_⟩ := lexeme_literal overrun nofun nofun nofun
    refine ⟨quote, rest, rfl, isQuote_, ?_⟩
    cases ended : scan backslash quote rest <;> simp [lexeme, isQuote_, ended] at overrun
    rfl
  · rintro ⟨quote, rest, rfl, isQuote_, overrun⟩
    simp [lexeme, isQuote_, overrun]

/-- A literal that ends with the text stands where a scan from its opening quote finds
no closer. -/
theorem lexeme_unterminated_iff (text : Bytes) : lexeme text = .unterminated ↔
    ∃ quote rest, text = quote :: rest ∧ isQuote quote = true ∧
      scan backslash quote rest = .unclosed := by
  constructor
  · intro unterminated
    obtain ⟨quote, rest, rfl, isQuote_⟩ := lexeme_literal unterminated nofun nofun nofun
    refine ⟨quote, rest, rfl, isQuote_, ?_⟩
    cases ended : scan backslash quote rest <;> simp [lexeme, isQuote_, ended] at unterminated
    rfl
  · rintro ⟨quote, rest, rfl, isQuote_, unclosed⟩
    simp [lexeme, isQuote_, unclosed]

/-- The bytes that begin a token of the alphabet. -/
def beginsToken (ch : UInt8) : Bool :=
  isQuote ch || (punctuators.lookup ch).isSome || isDigit ch || isIdentHead ch || isBlank ch

/-- A property of each of the 256 values is a property of every byte. -/
theorem forall_byte {p : UInt8 → Prop} (all : ∀ value : Fin 256, p (UInt8.ofFin value)) (ch : UInt8) :
    p ch := by
  simpa using all ch.toFin

/-- The loop condition of `skipWhiteSpace` is its first half. -/
theorem blank_not_nul : (fun ch => isBlank ch && decide (ch ≠ 0)) = isBlank := by
  funext ch
  revert ch
  apply forall_byte
  decide +kernel

/-- The bytes with a one-byte token are those that `lex` can hand to `lexPunctuator`,
and the quotes. -/
theorem lookup_isSome (ch : UInt8) : (punctuators.lookup ch).isSome =
    (isQuote ch || isPunctuator ch || ch = '/'.toUInt8 || ch = '*'.toUInt8) := by
  revert ch
  apply forall_byte
  decide +kernel

/-- A byte without a one-byte token is no quote and goes to no punctuator branch. -/
theorem lookup_none {ch : UInt8} (absent : punctuators.lookup ch = none) :
    isQuote ch = false ∧ isPunctuator ch = false ∧ ch ≠ '/'.toUInt8 ∧ ch ≠ '*'.toUInt8 := by
  have classes := lookup_isSome ch
  simpa [absent, and_assoc] using classes

/-- A quote is no escape and no NUL. -/
theorem quote_plain {ch : UInt8} (quote : isQuote ch = true) : backslash ≠ ch ∧ ch ≠ 0 := by
  revert ch
  apply forall_byte
  decide +kernel

/-- Inside the buffer the readable bytes are the remaining contents and the NUL. -/
theorem readable_eq {buffer : Buffer} {pos : Nat} (inside : pos ≤ buffer.size) :
    buffer.readable pos = buffer.bytes.drop pos ++ [0] :=
  List.drop_append_of_le_length inside

/-- A byte of the contents is read as such, and the contents continue behind it. -/
theorem read_contents {buffer : Buffer} {pos : Nat} {ch : UInt8} {rest : Bytes}
    (here : buffer.bytes.drop pos = ch :: rest) :
    pos < buffer.size ∧ buffer.read pos = .ok ch ∧ buffer.bytes.drop (pos + 1) = rest ∧
      buffer.size = pos + 1 + rest.length ∧ 0 ∉ ch :: rest := by
  have lengths := congrArg List.length here
  simp only [List.length_drop, List.length_cons] at lengths
  have inside : pos < buffer.size := by
    unfold Buffer.size
    omega
  refine ⟨inside, ?_, ?_, by unfold Buffer.size; omega, ?_⟩
  · simp [Buffer.read, readable_eq (Nat.le_of_lt inside), here]
  · rw [← List.drop_drop, here]
    rfl
  · intro present
    exact buffer.nulFree (List.mem_of_mem_drop (here ▸ present))

/-- Behind the contents stands the NUL. -/
theorem read_end (buffer : Buffer) : buffer.read buffer.size = .ok 0 := by
  have ending : buffer.bytes.drop buffer.size = [] := List.drop_length
  simp [Buffer.read, readable_eq (Nat.le_refl buffer.size), ending]

/-- A loop that the NUL stops passes over the longest stretch that satisfies its
condition. -/
theorem skipWhile_text {p : UInt8 → Bool} (stops : p 0 = false) (text : Bytes) (pos : Nat) :
    skipWhile p (text ++ [0]) pos = .ok (pos + (text.takeWhile p).length) := by
  induction text generalizing pos with
  | nil => simp [skipWhile, stops]
  | cons ch text inductionHypothesis =>
    cases kept : p ch
    · simp [skipWhile, kept]
    · simp only [List.cons_append, skipWhile, kept, ↓reduceIte, inductionHypothesis,
        List.takeWhile_cons_of_pos kept, List.length_cons]
      congr 1
      omega

/-- A loop that reads ahead passes over the same stretch and one byte more. -/
theorem readWhile_text {p : UInt8 → Bool} (stops : p 0 = false) (text : Bytes) {ch : UInt8}
    (first : p ch = true) (pos : Nat) :
    readWhile p ch (text ++ [0]) pos = .ok (pos + (text.takeWhile p).length + 1) := by
  induction text generalizing ch pos with
  | nil => simp [readWhile, first, stops]
  | cons next text inductionHypothesis =>
    cases kept : p next
    · cases text <;> simp [readWhile, first, kept]
    · simp only [List.cons_append, readWhile, first, ↓reduceIte, inductionHypothesis kept,
        List.takeWhile_cons_of_pos kept, List.length_cons]
      congr 1
      omega

/-- A byte that is no backslash ends the loop or is passed over alone. -/
theorem quotedLoop_plain {quote ch : UInt8} (plain : ch ≠ backslash) (rest : Bytes) (pos : Nat) :
    quotedLoop quote (ch :: rest) pos =
      if ch = 0 then .ok (pos, false)
      else if ch = quote then .ok (pos + 1, true)
      else quotedLoop quote rest (pos + 1) := by
  cases rest <;> simp [quotedLoop, plain]

/-- The loop over a literal ends as the escaped scan of the remaining contents does:
behind the closer, at the NUL, or with a read behind the NUL. -/
theorem quotedLoop_text {quote : UInt8} (isQuote_ : isQuote quote = true) (text : Bytes)
    (nulFree : 0 ∉ text) (pos : Nat) :
    quotedLoop quote (text ++ [0]) pos =
      match scan backslash quote text with
      | .closed index => .ok (pos + index + 1, true)
      | .unclosed => .ok (pos + text.length, false)
      | .overrun => .error ⟨pos + text.length + 1⟩ := by
  fun_induction scan backslash quote text generalizing pos with
  | case1 => simp [quotedLoop_plain (show (0 : UInt8) ≠ backslash by decide)]
  | case2 => simp [quotedLoop]
  | case3 second rest inductionHypothesis =>
    simp only [List.mem_cons, not_or] at nulFree
    simp only [List.cons_append, quotedLoop, ↓reduceIte, inductionHypothesis nulFree.2.2]
    cases scan backslash quote rest <;> simp [Ending.shift] <;> omega
  | case4 tail plain =>
    simp [quotedLoop_plain plain, (quote_plain isQuote_).2]
  | case5 head tail plain other inductionHypothesis =>
    simp only [List.mem_cons, not_or] at nulFree
    simp only [List.cons_append, quotedLoop_plain plain, Ne.symm nulFree.1, other, ↓reduceIte,
      inductionHypothesis nulFree.2]
    cases scan backslash quote tail <;> simp [Ending.shift] <;> omega

/-- The kind under which a lexeme is stored: an identifier whose length is narrowed to
zero stays unknown. -/
def storedKind (kind : TokenKind) (length : Nat) : TokenKind :=
  if kind = .ident ∧ UInt32.ofNat length = 0 then .unknown else kind

/-- Only an end of input is stored as one. -/
theorem storedKind_ne_eof {kind : TokenKind} (notEof : kind ≠ .eof) (length : Nat) :
    storedKind kind length ≠ .eof := by
  unfold storedKind
  split
  · exact TokenKind.noConfusion
  · exact notEof

/-- The call of `lex` at a cursor yields a lexeme. -/
def Yields (buffer : Buffer) (pos : Nat) : Lexeme → Prop
  | .token kind length =>
    0 < length ∧ pos + length ≤ buffer.size ∧ kind ≠ .eof ∧ kind ≠ .unknown ∧
      ∃ asserted, lex buffer pos =
        .ok ⟨⟨storedKind kind length, pos, UInt32.ofNat length, 0xFFFFFFFF⟩, pos + length, asserted⟩
  | .unknown => lex buffer pos = .ok ⟨startToken pos, pos + 1, true⟩ ∧
      ∃ ch, buffer.bytes[pos]? = some ch ∧ beginsToken ch = false
  | .endOfInput => pos = buffer.size ∧ lex buffer pos = .ok ⟨⟨.eof, pos, 1, 0xFFFFFFFF⟩, pos + 1, true⟩
  | .unterminated => pos < buffer.size ∧ ∃ asserted, lex buffer pos =
      .ok ⟨⟨.eof, buffer.size, 0, 0xFFFFFFFF⟩, buffer.size, asserted⟩
  | .overrun => lex buffer pos = .error ⟨buffer.size + 1⟩

section Dispatch

variable {buffer : Buffer} {pos : Nat} {ch : UInt8} {rest : Bytes}

/-- The byte behind a byte of the contents is the next one, or the NUL. -/
theorem read_next (here : buffer.bytes.drop pos = ch :: rest) :
    buffer.read (pos + 1) = .ok (rest.headD 0) := by
  obtain ⟨_, _, next, size, _⟩ := read_contents here
  cases rest with
  | nil =>
    have ending : buffer.size = pos + 1 := by simpa using size
    rw [← ending, read_end]
    rfl
  | cons second rest => exact (read_contents next).2.1

/-- A loop that reads ahead from a byte of the contents ends behind the longest stretch
that follows it, and one byte further. -/
theorem readWhile_contents (here : buffer.bytes.drop pos = ch :: rest) {p : UInt8 → Bool}
    (stops : p 0 = false) (first : p ch = true) :
    readWhile p ch (buffer.readable (pos + 1)) (pos + 1) =
      .ok (pos + (1 + (rest.takeWhile p).length) + 1) := by
  obtain ⟨inside, _, next, _, _⟩ := read_contents here
  rw [readable_eq inside, next, readWhile_text stops rest first]
  congr 1
  omega

/-- A quote starts a literal. -/
theorem lex_quote (here : buffer.bytes.drop pos = ch :: rest) (quote : isQuote ch = true) :
    lex buffer pos = lexQuotedStringAndAdvance buffer (pos + 1) (startToken pos) := by
  simp [lex, (read_contents here).2.1, quote, bind, Except.bind]

/-- A byte without a one-byte token starts a number, an identifier or blanks, or is
consumed alone. -/
theorem lex_plain (here : buffer.bytes.drop pos = ch :: rest)
    (absent : punctuators.lookup ch = none) :
    lex buffer pos =
      if isDigit ch then lexConstant buffer ch (pos + 1) (startToken pos)
      else if isIdentHead ch then lexIdentifier buffer ch (pos + 1) (startToken pos)
      else if isBlank ch then lexWhitespace buffer (pos + 1) (startToken pos)
      else .ok ⟨startToken pos, pos + 1, true⟩ := by
  obtain ⟨notQuote, notPunctuator, notSlash, notStar⟩ := lookup_none absent
  obtain ⟨_, read, _, _, nulFree⟩ := read_contents here
  have notNul : ch ≠ 0 := by
    rintro rfl
    exact nulFree List.mem_cons_self
  simp [lex, read, notQuote, notPunctuator, notSlash, notStar, notNul, bind, Except.bind, pure,
    Except.pure]

/-- A mark begins with a slash or an asterisk. -/
theorem pairs_lookup (ch next : UInt8) : pairs.lookup (ch, next) =
    if ch = '/'.toUInt8 then
      if next = '/'.toUInt8 then some .comment
      else if next = '*'.toUInt8 then some .l_comment else none
    else if ch = '*'.toUInt8 then if next = '/'.toUInt8 then some .r_comment else none
    else none := by
  simp only [pairs, List.lookup_cons, List.lookup_nil]
  grind

/-- The bytes that `lex` hands to `lexPunctuator` at once begin no mark. -/
theorem punctuator_alone {ch : UInt8} (punctuator : isPunctuator ch = true) :
    ch ≠ '/'.toUInt8 ∧ ch ≠ '*'.toUInt8 := by
  revert ch
  apply forall_byte
  decide +kernel

/-- A byte with a one-byte token that is no quote yields the mark it forms with the
next byte, or itself. -/
theorem lex_mark (here : buffer.bytes.drop pos = ch :: rest) (notQuote : isQuote ch = false)
    {kind : TokenKind} (single : punctuators.lookup ch = some kind) :
    lex buffer pos =
      match pairs.lookup (ch, rest.headD 0) with
      | some kind => .ok ⟨⟨kind, pos, 2, 0xFFFFFFFF⟩, pos + 2, true⟩
      | none => .ok ⟨⟨kind, pos, 1, 0xFFFFFFFF⟩, pos + 1, true⟩ := by
  obtain ⟨_, read, _⟩ := read_contents here
  have next := read_next here
  have alone : lexPunctuator buffer pos (pos + 1) =
      .ok ⟨⟨kind, pos, 1, 0xFFFFFFFF⟩, pos + 1, true⟩ := by
    simp [lexPunctuator, read, single, bind, Except.bind, pure, Except.pure, startToken,
      Token.setLength, Token.setKind]
  have classes := lookup_isSome ch
  simp only [single, notQuote, Option.isSome_some, Bool.false_or, Bool.true_eq, Bool.or_eq_true,
    decide_eq_true_eq] at classes
  rw [pairs_lookup]
  generalize rest.headD 0 = following at next
  have apart : '*'.toUInt8 ≠ '/'.toUInt8 := by decide
  rcases classes with (punctuator | rfl) | rfl
  · obtain ⟨notSlash, notStar⟩ := punctuator_alone punctuator
    simp [lex, read, notQuote, punctuator, alone, notSlash, notStar, bind, Except.bind]
  · have plain : isPunctuator '/'.toUInt8 = false := by decide
    simp only [lex, read, next, notQuote, plain, Nat.add_sub_cancel, alone, bind, Except.bind, pure,
      Except.pure, Bool.false_eq_true, ↓reduceIte]
    by_cases comment : following = '/'.toUInt8
    · simp [comment, startToken, Token.setLength, Token.setKind]
    · by_cases opening : following = '*'.toUInt8
      · simp [opening, apart, startToken, Token.setLength, Token.setKind]
      · simp [comment, opening]
  · have plain : isPunctuator '*'.toUInt8 = false := by decide
    simp only [lex, read, next, notQuote, plain, apart, Nat.add_sub_cancel, alone, bind, Except.bind,
      pure, Except.pure, Bool.false_eq_true, ↓reduceIte]
    by_cases closing : following = '/'.toUInt8
    · simp [closing, startToken, Token.setLength, Token.setKind]
    · simp [closing]

/-- The token of a literal that is closed. -/
def literalToken (quote : UInt8) (pos length : Nat) : Token :=
  ⟨if quote = '"'.toUInt8 then .stringlit else .charlit, pos, UInt32.ofNat length, 0xFFFFFFFF⟩

/-- The scan of a literal reads the text behind its opening quote. -/
theorem readable_behind (here : buffer.bytes.drop pos = ch :: rest) :
    buffer.readable (pos + 1) = rest ++ [0] := by
  obtain ⟨inside, _, next, _⟩ := read_contents here
  rw [readable_eq inside, next]

/-- A literal that is closed is consumed with its closing quote, and the assertions about
its text are evaluated. -/
theorem lex_closed (here : buffer.bytes.drop pos = ch :: rest) (quote : isQuote ch = true)
    {index : Nat} (ended : scan backslash ch rest = .closed index) :
    lex buffer pos = .ok ⟨literalToken ch pos (index + 2), pos + (index + 2),
      quotedAsserted (getIdent buffer (literalToken ch pos (index + 2)))⟩ := by
  obtain ⟨_, read, _, _, nulFree⟩ := read_contents here
  simp only [List.mem_cons, not_or] at nulFree
  have loop := quotedLoop_text quote rest nulFree.2 (pos + 1)
  have behind : pos + 1 + index + 1 = pos + (index + 2) := by omega
  simp only [ended, behind] at loop
  simp [lex_quote here quote, lexQuotedStringAndAdvance, read, readable_behind here, loop, bind,
    Except.bind, pure, Except.pure, startToken, Token.setKind, Token.setLength, literalToken, quote]

/-- A literal is consumed with its closing quote, ends the text where it is never
closed, and is read past the NUL where an escape covers the NUL. -/
theorem lex_literal (here : buffer.bytes.drop pos = ch :: rest) (quote : isQuote ch = true) :
    Yields buffer pos (lexeme (ch :: rest)) := by
  obtain ⟨inside, read, _, size, nulFree⟩ := read_contents here
  simp only [List.mem_cons, not_or] at nulFree
  have loop := quotedLoop_text quote rest nulFree.2 (pos + 1)
  have ending : pos + 1 + rest.length = buffer.size := size.symm
  simp only [lexeme, quote, ↓reduceIte]
  cases ended : scan backslash ch rest with
  | closed index =>
    have bound := scan_closed_bound (quote_plain quote).1 ended
    have literal : (if ch = '"'.toUInt8 then TokenKind.stringlit else .charlit) ≠ .ident := by
      split <;> decide
    have closed := lex_closed here quote ended
    rw [literalToken] at closed
    refine ⟨by omega, by omega, by split <;> decide, by split <;> decide, ?_⟩
    rw [storedKind, if_neg fun both => literal both.1]
    exact ⟨_, closed⟩
  | unclosed =>
    simp only [ended, ending] at loop
    simp [Yields, inside, lex_quote here quote, lexQuotedStringAndAdvance, read, readable_behind here,
      loop, bind, Except.bind, pure, Except.pure, startToken, Token.setKind, Token.setLength]
  | overrun =>
    simp only [ended, ending] at loop
    simp [Yields, lex_quote here quote, lexQuotedStringAndAdvance, read, readable_behind here, loop,
      bind, Except.bind]

/-- The tables of marks and punctuators hold only kinds of complete tokens. -/
theorem punctuator_kind {kind : TokenKind} (single : punctuators.lookup ch = some kind) :
    kind ≠ .eof ∧ kind ≠ .unknown ∧ kind ≠ .ident := by
  have all : ∀ entry ∈ punctuators, entry.2 ≠ .eof ∧ entry.2 ≠ .unknown ∧ entry.2 ≠ .ident := by
    decide
  exact all (ch, kind) (mem_of_lookup single)

/-- A mark of two bytes needs a second byte. -/
theorem mark_kind {kind : TokenKind} (double : pairs.lookup (ch, rest.headD 0) = some kind) :
    (kind ≠ .eof ∧ kind ≠ .unknown ∧ kind ≠ .ident) ∧ 0 < rest.length := by
  rw [pairs_lookup] at double
  cases rest with
  | nil =>
    have apart : (0 : UInt8) ≠ '/'.toUInt8 ∧ (0 : UInt8) ≠ '*'.toUInt8 := by decide
    simp [apart.1, apart.2] at double
  | cons second rest =>
    refine ⟨?_, Nat.succ_pos _⟩
    revert double
    split_ifs <;> simp <;> rintro rfl <;> decide

/-- A byte with a one-byte token that is no quote yields a mark or itself. -/
theorem yields_mark (here : buffer.bytes.drop pos = ch :: rest) (notQuote : isQuote ch = false)
    {kind : TokenKind} (single : punctuators.lookup ch = some kind) :
    Yields buffer pos (lexeme (ch :: rest)) := by
  obtain ⟨inside, _, _, size, _⟩ := read_contents here
  have marked := lex_mark here notQuote single
  simp only [lexeme, notQuote, Bool.false_eq_true, ↓reduceIte, single]
  cases double : pairs.lookup (ch, rest.headD 0) with
  | some mark =>
    obtain ⟨⟨notEof, notUnknown, notIdent⟩, following⟩ := mark_kind double
    rw [double] at marked
    refine ⟨Nat.succ_pos 1, by omega, notEof, notUnknown, true, ?_⟩
    simp [marked, storedKind, notIdent]
  | none =>
    obtain ⟨notEof, notUnknown, notIdent⟩ := punctuator_kind single
    rw [double] at marked
    refine ⟨Nat.one_pos, inside, notEof, notUnknown, true, ?_⟩
    simp [marked, storedKind, notIdent]

/-- A call that consumes a byte and the longest stretch of a class behind it yields the
lexeme of both. -/
theorem yields_stretch (here : buffer.bytes.drop pos = ch :: rest) {kind : TokenKind}
    (known : kind ≠ .eof ∧ kind ≠ .unknown) {p : UInt8 → Bool}
    (called : lex buffer pos = .ok ⟨⟨storedKind kind (1 + (rest.takeWhile p).length), pos,
      UInt32.ofNat (1 + (rest.takeWhile p).length), 0xFFFFFFFF⟩,
      pos + (1 + (rest.takeWhile p).length), true⟩) :
    Yields buffer pos (.token kind (1 + (rest.takeWhile p).length)) := by
  obtain ⟨_, _, _, size, _⟩ := read_contents here
  have bound : (rest.takeWhile p).length ≤ rest.length := (List.takeWhile_prefix p).length_le
  exact ⟨by omega, by omega, known.1, known.2, true, called⟩

/-- A byte without a one-byte token yields a number, an identifier, a run of blanks, or
an unknown token that consumes it alone. -/
theorem yields_plain (here : buffer.bytes.drop pos = ch :: rest)
    (absent : punctuators.lookup ch = none) : Yields buffer pos (lexeme (ch :: rest)) := by
  obtain ⟨inside, _, next, _, _⟩ := read_contents here
  obtain ⟨notQuote, _, notSlash, notStar⟩ := lookup_none absent
  have dispatched := lex_plain here absent
  simp only [lexeme, pairs_lookup, absent, notQuote, notSlash, notStar, Bool.false_eq_true, ↓reduceIte]
  cases digit : isDigit ch with
  | true =>
    have consumed := readWhile_contents here (p := isDigit) (by decide) digit
    apply yields_stretch here (by decide)
    simp [dispatched, digit, lexConstant, consumed, bind, Except.bind, pure, Except.pure, startToken,
      Token.setKind, Token.setLength, storedKind]
  | false =>
    cases head : isIdentHead ch with
    | true =>
      have body : isIdentBody ch = true := by simp [isIdentBody, head]
      have consumed := readWhile_contents here (p := isIdentBody) (by decide) body
      apply yields_stretch here (by decide)
      simp only [dispatched, digit, head, lexIdentifier, consumed, bind, Except.bind, pure,
        Except.pure, startToken, Token.setKind, Token.setLength, storedKind, Bool.false_eq_true,
        ↓reduceIte, Nat.add_sub_cancel, Nat.add_sub_cancel_left, true_and]
      generalize 1 + (rest.takeWhile isIdentBody).length = length
      by_cases vanished : UInt32.ofNat length = 0
      · simp [vanished]
      · simp [vanished]
    | false =>
      cases blank : isBlank ch with
      | true =>
        have consumed : skipWhiteSpace buffer (pos + 1) =
            .ok (pos + (1 + (rest.takeWhile isBlank).length)) := by
          rw [skipWhiteSpace, blank_not_nul, readable_eq inside, next, skipWhile_text (by decide),
            Nat.add_assoc]
        apply yields_stretch here (by decide)
        simp [dispatched, digit, head, blank, lexWhitespace, consumed, bind, Except.bind, pure,
          Except.pure, startToken, Token.setKind, Token.setLength, storedKind]
      | false =>
        refine ⟨by simp [dispatched, digit, head, blank], ch, ?_, ?_⟩
        · rw [← Nat.add_zero pos, ← List.getElem?_drop, here]
          rfl
        · simp [beginsToken, notQuote, absent, digit, head, blank]

end Dispatch

/-- At each cursor inside its buffer the lexer yields the lexeme found there. -/
theorem lex_yields {buffer : Buffer} {pos : Nat} (inside : pos ≤ buffer.size) :
    Yields buffer pos (lexeme (buffer.bytes.drop pos)) := by
  cases here : buffer.bytes.drop pos with
  | nil =>
    have ending : pos = buffer.size :=
      Nat.le_antisymm inside (List.drop_eq_nil_iff.mp here)
    subst ending
    refine ⟨rfl, ?_⟩
    have dispatch : isQuote 0 = false ∧ isPunctuator 0 = false ∧ isDigit 0 = false ∧
        isIdentHead 0 = false ∧ isBlank 0 = false ∧ 0 ≠ '/'.toUInt8 ∧ 0 ≠ '*'.toUInt8 := by
      decide
    obtain ⟨quote, punctuator, digit, head, blank, slash, star⟩ := dispatch
    simp [lex, read_end, quote, punctuator, digit, head, blank, slash, star, lexEndOfFile, bind,
      Except.bind, pure, Except.pure, startToken, Token.setKind, Token.setLength]
  | cons ch rest =>
    cases quote : isQuote ch with
    | true => exact lex_literal here quote
    | false =>
      cases single : punctuators.lookup ch with
      | some kind => exact yields_mark here quote single
      | none => exact yields_plain here single

end CppInterpreter.MetaLexer
