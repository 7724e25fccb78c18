import CppInterpreter.LexerBounds

/-!
# Lexing with lookahead

`MetaLexer::RAII` saves the cursor of the lexer and puts it back when its scope ends. So a
session of lexer calls may look ahead in nested scopes.

A session reads the text as a reader does that knows nothing of buffers and cursors: it has
the rest of the text, and takes tokens, words, lines and blanks from it. Behind the end of
input there is nothing to read. A session leaves its buffer exactly when the reader has
nothing to read, or meets a literal whose escape covers the end. What is read in a scope
changes nothing behind it, and a scope may be left behind the end of input.
-/

namespace CppInterpreter.MetaLexer

open Bytes

/-- The calls of a session, and the scopes in which it looks ahead. -/
inductive Session where
  | done
  | call (call : Call) (later : Session)
  | lookahead (inner later : Session)

/-- Enter the lexer: the token of a call, if it has one, and the cursor behind it. Whether an
assertion held is dropped, as in a build without assertions; with them a call stops where its
assertion fails, as `lexAnyString` does where there is no word. -/
def enter (buffer : Buffer) (curPos : Nat) : Call → Except OutOfBounds (Option Token × Nat)
  | .lex => (lex buffer curPos).map fun lexed => (some lexed.token, lexed.curPos)
  | .lexAnyString => (lexAnyString buffer curPos).map fun lexed => (some lexed.token, lexed.curPos)
  | .readToEndOfLine kind =>
    (readToEndOfLine buffer kind curPos).map fun lexed => (some lexed.token, lexed.curPos)
  | .skipWhiteSpace => (skipWhiteSpace buffer curPos).map fun curPos => (none, curPos)

/-- The tokens of a session outside of its scopes, and the cursor that it leaves. The end of a
scope puts the saved cursor back. -/
def lexSession (buffer : Buffer) (curPos : Nat) : Session → Except OutOfBounds (List Token × Nat)
  | .done => .ok ([], curPos)
  | .call call later => do
    let (token, curPos) ← enter buffer curPos call
    let (tokens, curPos) ← lexSession buffer curPos later
    return (token.toList ++ tokens, curPos)
  | .lookahead inner later => do
    let savedPos := curPos
    let _ ← lexSession buffer curPos inner
    lexSession buffer savedPos later

/-- What a token means. -/
structure Piece where
  kind : TokenKind
  text : Bytes
deriving DecidableEq, Repr

/-- The meaning of a token in its buffer. -/
def piece (buffer : Buffer) (token : Token) : Piece := ⟨token.kind, getIdent buffer token⟩

/-- Take the longest stretch that satisfies a condition from a text. -/
def readStretch (p : UInt8 → Bool) (kind : TokenKind) (text : Bytes) : Piece × Bytes :=
  (⟨kind, text.takeWhile p⟩, text.dropWhile p)

/-- What a call takes from a text, and the text behind it. Behind the end of input there is none,
not even an empty one. No result means a covered end. -/
def readCall (text : Bytes) : Call → Option (Option Piece × Option Bytes)
  | .lex =>
    match lexeme text with
    | .token kind length => some (some ⟨kind, text.take length⟩, some (text.drop length))
    | .unknown => some (some ⟨.unknown, []⟩, some (text.drop 1))
    | .endOfInput => some (some ⟨.eof, [0]⟩, none)
    | .unterminated => some (some ⟨.eof, []⟩, some [])
    | .overrun => none
  | .lexAnyString =>
    let (word, rest) := readStretch (fun ch => ch ≠ ' '.toUInt8 && ch ≠ '\t'.toUInt8) .raw_ident text
    some (some word, some rest)
  | .readToEndOfLine kind =>
    let (line, rest) := readStretch (fun ch => ch ≠ '\r'.toUInt8 && ch ≠ '\n'.toUInt8) kind text
    some (some line, some rest)
  | .skipWhiteSpace => some (none, some (text.dropWhile isBlank))

/-- What a session reads outside of its scopes, and the text behind it. -/
def readSession : Option Bytes → Session → Option (List Piece × Option Bytes)
  | rest, .done => some ([], rest)
  | none, .call _ _ => none
  | some text, .call call later => do
    let (first, rest) ← readCall text call
    let (pieces, rest) ← readSession rest later
    return (first.toList ++ pieces, rest)
  | rest, .lookahead inner later => do
    let _ ← readSession rest inner
    readSession rest later

/-- A session without its scopes. -/
def Session.erase : Session → Session
  | .done => .done
  | .call entry later => .call entry later.erase
  | .lookahead _ later => later.erase

/-- The reader can read what stands in the scopes. -/
def Session.Readable : Option Bytes → Session → Prop
  | _, .done => True
  | none, .call _ _ => True
  | some text, .call entry later =>
    ∀ first rest, readCall text entry = some (first, rest) → later.Readable rest
  | rest, .lookahead inner later => (readSession rest inner).isSome ∧ later.Readable rest

/-- The text behind a cursor. One cursor stands behind the NUL. -/
def Behind (buffer : Buffer) (curPos : Nat) : Option Bytes → Prop
  | none => curPos = buffer.size + 1
  | some text => curPos ≤ buffer.size ∧ buffer.bytes.drop curPos = text

/-- A result of the lexer means one of the reader. A fault means that there is nothing to read. -/
def Means {α β : Type} (buffer : Buffer) (meaning : α → β) :
    Except OutOfBounds (α × Nat) → Option (β × Option Bytes) → Prop
  | .error _, none => True
  | .ok (tokens, curPos), some (pieces, rest) => meaning tokens = pieces ∧ Behind buffer curPos rest
  | _, _ => False

section Calls

variable {buffer : Buffer} {curPos : Nat}

/-- Behind the NUL, no call reads inside the buffer. -/
theorem enter_behind (call : Call) : ∃ error, enter buffer (buffer.size + 1) call = .error error := by
  have nothing : buffer.readable (buffer.size + 1) = [] := by
    simp [Buffer.readable, Buffer.size]
  cases call <;>
    simp [enter, lex, lexAnyString, readToEndOfLine, skipWhiteSpace, Buffer.read, nothing, skipWhile,
      bind, Except.bind, Except.map]

/-- The text of a token inside a buffer whose size has 32 bits. -/
theorem getIdent_inside (short : buffer.size < 2 ^ 32) {length : Nat}
    (inside : curPos + length ≤ buffer.size) (kind : TokenKind) (value : UInt32) :
    getIdent buffer ⟨kind, curPos, UInt32.ofNat length, value⟩ =
      (buffer.bytes.drop curPos).take length := by
  have counted : (UInt32.ofNat length).toNat = length :=
    UInt32.toNat_ofNat_of_lt' (Nat.lt_of_le_of_lt (by omega) short)
  have enough : length ≤ (buffer.bytes.drop curPos).length := by
    rw [List.length_drop]
    unfold Buffer.size at inside
    omega
  rw [getIdent, readable_eq (Nat.le_of_add_right_le inside), counted,
    List.take_append_of_le_length enough]

/-- In a text without the NUL, a stretch need not look for it. -/
theorem takeWhile_nulFree {text : Bytes} (nulFree : 0 ∉ text) (p : UInt8 → Bool) :
    text.takeWhile (fun ch => p ch && ch ≠ 0) = text.takeWhile p := by
  induction text with
  | nil => rfl
  | cons ch text inductionHypothesis =>
    rw [List.mem_cons, not_or] at nulFree
    have present : decide (ch ≠ 0) = true := decide_eq_true (Ne.symm nulFree.1)
    rw [List.takeWhile_cons, List.takeWhile_cons, present, Bool.and_true, inductionHypothesis nulFree.2]

/-- A stretch is passed over in the buffer. -/
theorem skipWhile_stretch (inside : curPos ≤ buffer.size) (p : UInt8 → Bool) :
    ∃ length, skipWhile (fun ch => p ch && ch ≠ 0) (buffer.readable curPos) curPos =
        .ok (curPos + length) ∧
      curPos + length ≤ buffer.size ∧
      (buffer.bytes.drop curPos).take length = (buffer.bytes.drop curPos).takeWhile p ∧
      buffer.bytes.drop (curPos + length) = (buffer.bytes.drop curPos).dropWhile p := by
  have nulFree : 0 ∉ buffer.bytes.drop curPos := fun member =>
    buffer.nulFree (List.mem_of_mem_drop member)
  have stretch := List.takeWhile_prefix p (l := buffer.bytes.drop curPos)
  have lengths := stretch.length_le
  rw [List.length_drop] at lengths
  refine ⟨_, by rw [readable_eq inside, skipWhile_text (by simp), takeWhile_nulFree nulFree], ?_,
    (List.prefix_iff_eq_take.mp stretch).symm, ?_⟩
  · unfold Buffer.size at inside ⊢
    omega
  · rw [← List.drop_drop]
    exact List.append_cancel_left
      ((List.prefix_iff_eq_append.mp stretch).trans List.takeWhile_append_dropWhile.symm)

/-- A call that passes over a stretch reads it. -/
theorem stretch_means (short : buffer.size < 2 ^ 32) (inside : curPos ≤ buffer.size)
    (p : UInt8 → Bool) (kind : TokenKind) :
    Means buffer (Option.map (piece buffer))
      ((skipWhile (fun ch => p ch && ch ≠ 0) (buffer.readable curPos) curPos).map fun stop =>
        (some (((startToken curPos).setKind kind).setLength (stop - curPos)), stop))
      (some (some (readStretch p kind (buffer.bytes.drop curPos)).1,
        some (readStretch p kind (buffer.bytes.drop curPos)).2)) := by
  obtain ⟨length, skipped, within, text, rest⟩ := skipWhile_stretch inside p
  rw [skipped]
  refine ⟨?_, within, rest⟩
  rw [Nat.add_sub_cancel_left]
  have ident := getIdent_inside short within kind (startToken curPos).value
  simp [piece, readStretch, startToken, Token.setKind, Token.setLength] at ident ⊢
  exact ident.trans text

/-- A call of `lex` reads a lexeme. -/
theorem lex_means (short : buffer.size < 2 ^ 32) (inside : curPos ≤ buffer.size) :
    Means buffer (Option.map (piece buffer)) (enter buffer curPos .lex)
      (readCall (buffer.bytes.drop curPos) .lex) := by
  have yields := lex_yields inside
  cases found : lexeme (buffer.bytes.drop curPos) with
  | token kind length =>
    rw [found] at yields
    obtain ⟨positive, within, -, -, asserted, lexed⟩ := yields
    have counted : UInt32.ofNat length ≠ 0 := by
      intro narrowed
      have exactly : (UInt32.ofNat length).toNat = length :=
        UInt32.toNat_ofNat_of_lt' (Nat.lt_of_le_of_lt (by omega) short)
      rw [narrowed, UInt32.toNat_zero] at exactly
      omega
    have stored : storedKind kind length = kind := if_neg fun narrowed => counted narrowed.2
    simp only [enter, readCall, lexed, found, stored, Except.map, Means]
    refine ⟨?_, within, List.drop_drop.symm⟩
    rw [Option.map_some, piece, getIdent_inside short within]
  | unknown =>
    rw [found] at yields
    obtain ⟨lexed, ch, present, -⟩ := yields
    have within : curPos + 1 ≤ buffer.size := (List.getElem?_eq_some_iff.mp present).1
    simp only [enter, readCall, lexed, found, Except.map, Means]
    exact ⟨by simp [piece, startToken, getIdent], within, List.drop_drop.symm⟩
  | endOfInput =>
    rw [found] at yields
    obtain ⟨ending, lexed⟩ := yields
    have nul : buffer.readable curPos = [0] := by
      rw [ending, readable_eq (Nat.le_refl buffer.size), Buffer.size, List.drop_length, List.nil_append]
    simp only [enter, readCall, lexed, found, Except.map, Means]
    exact ⟨by simp [piece, getIdent, nul], congrArg (· + 1) ending⟩
  | unterminated =>
    rw [found] at yields
    obtain ⟨-, asserted, lexed⟩ := yields
    simp only [enter, readCall, lexed, found, Except.map, Means]
    exact ⟨by simp [piece, getIdent], Nat.le_refl _, List.drop_length⟩
  | overrun =>
    rw [found] at yields
    have faults : lex buffer curPos = .error ⟨buffer.size + 1⟩ := yields
    simp only [enter, readCall, faults, found, Except.map, Means]

/-- A word is a stretch up to a blank. -/
theorem enter_word : enter buffer curPos .lexAnyString =
    (skipWhile (fun ch => (ch ≠ ' '.toUInt8 && ch ≠ '\t'.toUInt8) && ch ≠ 0) (buffer.readable curPos)
      curPos).map fun stop =>
        (some (((startToken curPos).setKind .raw_ident).setLength (stop - curPos)), stop) := by
  unfold enter lexAnyString
  cases skipWhile (fun ch => (ch ≠ ' '.toUInt8 && ch ≠ '\t'.toUInt8) && ch ≠ 0)
    (buffer.readable curPos) curPos <;> rfl

/-- A line is a stretch up to the end of a line. -/
theorem enter_line (kind : TokenKind) : enter buffer curPos (.readToEndOfLine kind) =
    (skipWhile (fun ch => (ch ≠ '\r'.toUInt8 && ch ≠ '\n'.toUInt8) && ch ≠ 0) (buffer.readable curPos)
      curPos).map fun stop =>
        (some (((startToken curPos).setKind kind).setLength (stop - curPos)), stop) := by
  unfold enter readToEndOfLine
  cases skipWhile (fun ch => (ch ≠ '\r'.toUInt8 && ch ≠ '\n'.toUInt8) && ch ≠ 0)
    (buffer.readable curPos) curPos <;> rfl

/-- A call of the lexer means a call of the reader. -/
theorem enter_means (short : buffer.size < 2 ^ 32) (inside : curPos ≤ buffer.size) (call : Call) :
    Means buffer (Option.map (piece buffer)) (enter buffer curPos call)
      (readCall (buffer.bytes.drop curPos) call) := by
  cases call with
  | lex => exact lex_means short inside
  | lexAnyString =>
    rw [enter_word]
    exact stretch_means short inside _ _
  | readToEndOfLine kind =>
    rw [enter_line]
    exact stretch_means short inside _ _
  | skipWhiteSpace =>
    obtain ⟨length, skipped, within, text, rest⟩ := skipWhile_stretch inside isBlank
    simp only [enter, skipWhiteSpace, readCall, skipped, Except.map, Means]
    exact ⟨rfl, within, rest⟩

end Calls

section Sessions

variable {buffer : Buffer} {curPos : Nat} {rest : Option Bytes}

/-- Results that continue alike mean each other if their beginnings do. -/
theorem Means.bind {α β γ δ : Type} {meaning : α → β} {later : γ → δ}
    {first : Except OutOfBounds (α × Nat)} {read : Option (β × Option Bytes)}
    (means : Means buffer meaning first read)
    {lexer : α × Nat → Except OutOfBounds (γ × Nat)}
    {reader : β × Option Bytes → Option (δ × Option Bytes)}
    (continues : ∀ token curPos rest, Behind buffer curPos rest →
      Means buffer later (lexer (token, curPos)) (reader (meaning token, rest))) :
    Means buffer later (first >>= lexer) (read >>= reader) := by
  match first, read, means with
  | .error _, none, _ => trivial
  | .ok (token, curPos), some (_, rest), ⟨rfl, behind⟩ => exact continues token curPos rest behind

/-- A session of the lexer means a session of the reader. -/
theorem lexSession_means (short : buffer.size < 2 ^ 32) (behind : Behind buffer curPos rest)
    (session : Session) : Means buffer (List.map (piece buffer)) (lexSession buffer curPos session)
      (readSession rest session) := by
  induction session generalizing curPos rest with
  | done => exact ⟨rfl, behind⟩
  | call call later inductionHypothesis =>
    cases rest with
    | none =>
      obtain ⟨error, faults⟩ : ∃ error, enter buffer (buffer.size + 1) call = .error error :=
        enter_behind call
      rw [Behind] at behind
      simp only [lexSession, behind, faults, readSession, bind, Except.bind, Means]
    | some text =>
      obtain ⟨inside, rfl⟩ := behind
      refine (enter_means short inside call).bind fun token curPos rest behind => ?_
      refine (inductionHypothesis behind).bind fun tokens curPos rest behind => ?_
      refine ⟨?_, behind⟩
      cases token <;> rfl
  | lookahead inner later innerHypothesis laterHypothesis =>
    exact (innerHypothesis behind).bind fun _ _ _ _ => laterHypothesis behind

/-- Behind a call that gives a token, the session goes on. -/
theorem lexSession_call {call : Call} {token : Option Token} {next : Nat}
    (entered : enter buffer curPos call = .ok (token, next)) (later : Session)
    (result : List Token × Nat) :
    lexSession buffer curPos (.call call later) = .ok result ↔
      ∃ left, lexSession buffer next later = .ok left ∧ (token.toList ++ left.1, left.2) = result := by
  cases ran : lexSession buffer next later with
  | error error => simp [lexSession, entered, ran, bind, Except.bind]
  | ok left => simp [lexSession, entered, ran, bind, Except.bind, pure, Except.pure]

/-- A session gives a result exactly when it gives it without its scopes, and these can be
read. -/
theorem lexSession_erase (short : buffer.size < 2 ^ 32) (behind : Behind buffer curPos rest)
    (session : Session) (result : List Token × Nat) :
    lexSession buffer curPos session = .ok result ↔
      session.Readable rest ∧ lexSession buffer curPos session.erase = .ok result := by
  induction session generalizing curPos rest result with
  | done => simp [Session.Readable, Session.erase]
  | call call later inductionHypothesis =>
    cases rest with
    | none =>
      obtain ⟨error, faults⟩ : ∃ error, enter buffer (buffer.size + 1) call = .error error :=
        enter_behind call
      rw [Behind] at behind
      simp [lexSession, behind, faults, Session.erase, bind, Except.bind]
    | some text =>
      obtain ⟨inside, rfl⟩ := behind
      have means := enter_means short inside call
      match entered : enter buffer curPos call, read : readCall (buffer.bytes.drop curPos) call, means with
      | .error error, none, _ => simp [lexSession, entered, Session.erase, bind, Except.bind]
      | .ok (token, next), some (first, rest), ⟨_, behind⟩ =>
        have readable : (Session.call call later).Readable (some (buffer.bytes.drop curPos)) ↔
            later.Readable rest := by
          simp [Session.Readable, read]
        rw [Session.erase, lexSession_call entered, lexSession_call entered, readable]
        simp only [inductionHypothesis behind, and_assoc, exists_and_left]
  | lookahead inner later innerHypothesis laterHypothesis =>
    have means := lexSession_means short behind inner
    match looked : lexSession buffer curPos inner, read : readSession rest inner, means with
    | .error error, none, _ =>
      simp [lexSession, looked, Session.Readable, read, bind, Except.bind]
    | .ok _, some _, _ =>
      simpa [lexSession, looked, Session.Readable, Session.erase, read, bind, Except.bind] using
        laterHypothesis behind result

/-- A session of lexer calls with nested scopes, in a buffer whose size has 32 bits, gives the
tokens that the reader takes from the text, and leaves its buffer exactly when the reader
cannot go on. It gives a result exactly when it gives the same one without its scopes, and the
reader can read these. -/
theorem nested_sessions_read (buffer : Buffer) (short : buffer.size < 2 ^ 32) (session : Session) :
    Means buffer (List.map (piece buffer)) (lexSession buffer 0 session)
        (readSession (some buffer.bytes) session) ∧
      ∀ result, lexSession buffer 0 session = .ok result ↔
        session.Readable (some buffer.bytes) ∧ lexSession buffer 0 session.erase = .ok result := by
  have behind : Behind buffer 0 (some buffer.bytes) := ⟨Nat.zero_le _, rfl⟩
  exact ⟨lexSession_means short behind session, lexSession_erase short behind session⟩

end Sessions

/-- Look ahead over a word and to the end of input, then read tokens. -/
def ahead : Session :=
  .lookahead (.call .lexAnyString (.call .lex .done))
    (.call .lex (.call .skipWhiteSpace (.call (.readToEndOfLine .stringlit) .done)))

/-- The session reads a short command. -/
theorem ahead_read :
    Means ⟨text ".x", by decide⟩ (List.map (piece ⟨text ".x", by decide⟩))
        (lexSession ⟨text ".x", by decide⟩ 0 ahead) (readSession (some (text ".x")) ahead) ∧
      ∀ result, lexSession ⟨text ".x", by decide⟩ 0 ahead = .ok result ↔
        ahead.Readable (some (text ".x")) ∧ lexSession ⟨text ".x", by decide⟩ 0 ahead.erase = .ok result :=
  nested_sessions_read ⟨text ".x", by decide⟩ (by decide) ahead

/-- The scope ends behind the end of input, and the tokens are those of the command. -/
example : readSession (some (text ".x")) ahead =
    some ([⟨.dot, text "."⟩, ⟨.stringlit, text "x"⟩], some []) := by decide

end CppInterpreter.MetaLexer
