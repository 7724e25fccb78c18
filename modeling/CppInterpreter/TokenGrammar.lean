import Mathlib.Data.List.TakeWhile
import CppInterpreter.Lexemes
import CppInterpreter.LexerTiling
import CppInterpreter.LongestMatch

/-!
# The grammar of tokens

Most kinds of tokens have one spelling. The others are classes: an identifier is a letter
or underscore with letters, underscores and digits behind it, a constant consists of
digits, a space of blanks. Literals are left out: where a token begins with a quote, the
scan for its closer decides.

Anywhere else the lexer yields the longest match of this grammar, or a single unknown
byte where nothing matches, as far as 32 bits hold the length of the match.
-/

namespace CppInterpreter.MetaLexer

open Bytes LongestMatch

/-- The spelling of the kinds that have only one, without those of literals. -/
def TokenKind.spelling : TokenKind → Option Bytes
  | .l_square => some (text "[")
  | .r_square => some (text "]")
  | .l_paren => some (text "(")
  | .r_paren => some (text ")")
  | .l_brace => some (text "\x7b")
  | .r_brace => some (text "\x7d")
  | .comma => some (text ",")
  | .dot => some (text ".")
  | .excl_mark => some (text "!")
  | .quest_mark => some (text "?")
  | .slash => some (text "/")
  | .backslash => some (text "\\")
  | .less => some (text "<")
  | .greater => some (text ">")
  | .ampersand => some (text "&")
  | .hash => some (text "#")
  | .comment => some (text "//")
  | .l_comment => some (text "/*")
  | .r_comment => some (text "*/")
  | .at_ => some (text "@")
  | .asterik => some (text "*")
  | .semicolon => some (text ";")
  | .stringlit | .charlit | .ident | .raw_ident | .space | .constant | .eof | .unknown => none

/-- The words of the grammar, by kind. -/
inductive Word : TokenKind → Bytes → Prop where
  | spelled {kind : TokenKind} {spelling : Bytes} (only : kind.spelling = some spelling) :
      Word kind spelling
  | ident {head : UInt8} {body : Bytes} (begins : isIdentHead head = true)
      (continues : ∀ ch ∈ body, isIdentBody ch = true) : Word .ident (head :: body)
  | constant {first : UInt8} {digits : Bytes} (begins : isDigit first = true)
      (continues : ∀ ch ∈ digits, isDigit ch = true) : Word .constant (first :: digits)
  | space {first : UInt8} {blanks : Bytes} (begins : isBlank first = true)
      (continues : ∀ ch ∈ blanks, isBlank ch = true) : Word .space (first :: blanks)

section Spellings

variable {kind : TokenKind} {ch next : UInt8} {body : Bytes}

/-- The kinds spelled with one byte are those of the punctuators. -/
theorem spelling_single (plain : isQuote ch = false) :
    kind.spelling = some [ch] ↔ punctuators.lookup ch = some kind := by
  constructor
  · intro only
    have listed : kind.spelling.all fun spelling => spelling.length ≠ 1 ∨
        punctuators.lookup (spelling.headD 0) = some kind := by
      cases kind <;> decide
    rw [only, Option.all_some] at listed
    simpa using of_decide_eq_true listed
  · intro single
    have spelled : ∀ entry ∈ punctuators, isQuote entry.1 = true ∨ entry.2.spelling = some [entry.1] := by
      decide
    simpa [plain] using spelled (ch, kind) (mem_of_lookup single)

/-- The kinds spelled with two bytes are those of the marks. -/
theorem spelling_double : kind.spelling = some [ch, next] ↔ pairs.lookup (ch, next) = some kind := by
  constructor
  · intro only
    have listed : kind.spelling.all fun spelling => spelling.length ≠ 2 ∨
        pairs.lookup (spelling.headD 0, spelling.tail.headD 0) = some kind := by
      cases kind <;> decide
    rw [only, Option.all_some] at listed
    simpa using of_decide_eq_true listed
  · rw [pairs_lookup]
    intro marked
    split_ifs at marked with slash comment opening star closing
    · rw [← Option.some.inj marked, slash, comment]
      rfl
    · rw [← Option.some.inj marked, slash, opening]
      rfl
    · rw [← Option.some.inj marked, star, closing]
      rfl

/-- No spelling has other lengths. -/
theorem spelling_length {spelling : Bytes} (only : kind.spelling = some spelling) :
    spelling.length = 1 ∨ spelling.length = 2 := by
  have lengths : kind.spelling.all fun spelling => spelling.length = 1 ∨ spelling.length = 2 := by
    cases kind <;> decide
  simpa [only] using lengths

/-- A spelling is a punctuator or a mark. -/
theorem spelling_cons (plain : isQuote ch = false) : kind.spelling = some (ch :: body) ↔
    (body = [] ∧ punctuators.lookup ch = some kind) ∨
      ∃ next, body = [next] ∧ pairs.lookup (ch, next) = some kind := by
  constructor
  · intro only
    rcases spelling_length only with one | two
    · obtain rfl : body = [] := List.eq_nil_of_length_eq_zero (Nat.succ.inj one)
      exact .inl ⟨rfl, (spelling_single plain).mp only⟩
    · obtain ⟨next, rfl⟩ := List.length_eq_one_iff.mp (Nat.succ.inj two)
      exact .inr ⟨next, rfl, spelling_double.mp only⟩
  · rintro (⟨rfl, single⟩ | ⟨next, rfl, double⟩)
    · exact (spelling_single plain).mpr single
    · exact spelling_double.mpr double

/-- No spelling begins with a quote. -/
theorem spelling_plain (only : kind.spelling = some (ch :: body)) : isQuote ch = false := by
  have plain : kind.spelling.all fun spelling => isQuote (spelling.headD 0) = false := by
    cases kind <;> decide
  rw [only, Option.all_some] at plain
  exact of_decide_eq_true plain

/-- The first byte of a mark is a punctuator. -/
theorem mark_begins (double : pairs.lookup (ch, next) = some kind) :
    (punctuators.lookup ch).isSome = true := by
  rw [pairs_lookup] at double
  split_ifs at double with slash _ _ star
  · rw [slash]
    rfl
  · rw [slash]
    rfl
  · rw [star]
    rfl

/-- A spelling begins with a punctuator. -/
theorem spelling_begins (only : kind.spelling = some (ch :: body)) :
    (punctuators.lookup ch).isSome = true := by
  rcases (spelling_cons (spelling_plain only)).mp only with ⟨_, single⟩ | ⟨_, _, double⟩
  · rw [single]
    rfl
  · exact mark_begins double

/-- The classes of first bytes are disjoint. -/
theorem classes_apart (ch : UInt8) :
    ((punctuators.lookup ch).isSome = true →
      isIdentHead ch = false ∧ isDigit ch = false ∧ isBlank ch = false) ∧
    (isDigit ch = true → isIdentHead ch = false ∧ isBlank ch = false) ∧
    (isIdentHead ch = true → isBlank ch = false) := by
  constructor
  · intro present
    obtain ⟨kind, single⟩ := Option.isSome_iff_exists.mp present
    have apart : ∀ entry ∈ punctuators,
        isIdentHead entry.1 = false ∧ isDigit entry.1 = false ∧ isBlank entry.1 = false := by
      decide
    exact apart (ch, kind) (mem_of_lookup single)
  · revert ch
    apply forall_byte
    decide +kernel

/-- Where a punctuator begins, the words are spelled ones. -/
theorem word_punctuator (single : (punctuators.lookup ch).isSome = true) :
    Word kind (ch :: body) ↔ kind.spelling = some (ch :: body) := by
  obtain ⟨head, digit, blank⟩ := (classes_apart ch).1 single
  constructor
  · intro word
    cases word with
    | spelled only => exact only
    | ident begins => simp [begins] at head
    | constant begins => simp [begins] at digit
    | space begins => simp [begins] at blank
  · exact .spelled

/-- Where no punctuator begins, the words belong to the class of their first byte. -/
theorem word_class (absent : punctuators.lookup ch = none) : Word kind (ch :: body) ↔
    (kind = .ident ∧ isIdentHead ch = true ∧ ∀ ch ∈ body, isIdentBody ch = true) ∨
    (kind = .constant ∧ isDigit ch = true ∧ ∀ ch ∈ body, isDigit ch = true) ∨
    (kind = .space ∧ isBlank ch = true ∧ ∀ ch ∈ body, isBlank ch = true) := by
  constructor
  · intro word
    cases word with
    | spelled only =>
      have begins := spelling_begins only
      simp [absent] at begins
    | ident begins continues => exact .inl ⟨rfl, begins, continues⟩
    | constant begins continues => exact .inr (.inl ⟨rfl, begins, continues⟩)
    | space begins continues => exact .inr (.inr ⟨rfl, begins, continues⟩)
  · rintro (⟨rfl, begins, continues⟩ | ⟨rfl, begins, continues⟩ | ⟨rfl, begins, continues⟩)
    · exact .ident begins continues
    · exact .constant begins continues
    · exact .space begins continues

/-- No word is empty. -/
theorem word_ne_nil : ¬ Word kind [] := by
  intro word
  cases word with
  | spelled only => rcases spelling_length only with one | two <;> contradiction

/-- Two kinds with the same spelling are the same. -/
theorem spelling_unique {other : TokenKind} (one : kind.spelling = some (ch :: body))
    (two : other.spelling = some (ch :: body)) : kind = other := by
  have plain := spelling_plain one
  rcases (spelling_cons plain).mp one with ⟨rfl, single⟩ | ⟨next, rfl, double⟩
  · rw [spelling_single plain, single] at two
    exact Option.some.inj two
  · rw [spelling_double, double] at two
    exact Option.some.inj two

/-- The grammar is unambiguous. -/
theorem word_unambiguous : Unambiguous Word := by
  intro kind other word one two
  cases word with
  | nil => exact absurd one word_ne_nil
  | cons ch body =>
    cases single : punctuators.lookup ch with
    | some _ =>
      have present : (punctuators.lookup ch).isSome = true := by simp [single]
      rw [word_punctuator present] at one two
      exact spelling_unique one two
    | none =>
      rw [word_class single] at one two
      obtain ⟨_, digit, head⟩ := classes_apart ch
      rcases one with ⟨rfl, first, _⟩ | ⟨rfl, first, _⟩ | ⟨rfl, first, _⟩ <;>
        rcases two with ⟨rfl, second, _⟩ | ⟨rfl, second, _⟩ | ⟨rfl, second, _⟩ <;>
        simp_all

end Spellings

/-- What a lexeme says about the words at the beginning of a text. -/
def Lexeme.Munches (input : Bytes) : Lexeme → Prop
  | .token kind length => ∃ word, word.length = length ∧ Longest Word input kind word
  | .unknown => ∀ kind word, word <+: input → ¬ Word kind word
  | .endOfInput | .unterminated | .overrun => False

section Munching

variable {ch : UInt8} {rest : Bytes}

/-- The words at the beginning of a text continue its first byte. -/
theorem word_begins {kind : TokenKind} {word : Bytes} (begins : word <+: ch :: rest)
    (belongs : Word kind word) : ∃ body, word = ch :: body ∧ body <+: rest := by
  cases word with
  | nil => exact absurd belongs word_ne_nil
  | cons head body =>
    obtain ⟨rfl, within⟩ := List.cons_prefix_cons.mp begins
    exact ⟨body, rfl, within⟩

/-- A mark of two bytes is the longest match where it stands. -/
theorem munches_mark {kind : TokenKind} (double : pairs.lookup (ch, rest.headD 0) = some kind) :
    (Lexeme.token kind 2).Munches (ch :: rest) := by
  have following := (mark_kind double).2
  have begins := mark_begins double
  obtain ⟨next, rest, rfl⟩ := List.exists_cons_of_length_pos following
  refine ⟨[ch, next], rfl, ?_, .spelled (spelling_double.mpr double), ?_⟩
  · exact List.prefix_append [ch, next] rest
  · intro otherKind other prefix_ belongs
    obtain ⟨body, rfl, _⟩ := word_begins prefix_ belongs
    have lengths := spelling_length ((word_punctuator begins).mp belongs)
    simp only [List.length_cons, List.length_nil] at lengths ⊢
    omega

/-- A punctuator that begins no mark is the longest match where it stands. -/
theorem munches_single (plain : isQuote ch = false) {kind : TokenKind}
    (noMark : pairs.lookup (ch, rest.headD 0) = none)
    (single : punctuators.lookup ch = some kind) : (Lexeme.token kind 1).Munches (ch :: rest) := by
  have begins : (punctuators.lookup ch).isSome = true := by simp [single]
  refine ⟨[ch], rfl, ?_, .spelled ((spelling_single plain).mpr single), ?_⟩
  · exact List.prefix_append [ch] rest
  · intro otherKind other prefix_ belongs
    obtain ⟨body, rfl, within⟩ := word_begins prefix_ belongs
    rcases (spelling_cons plain).mp ((word_punctuator begins).mp belongs) with
      ⟨rfl, _⟩ | ⟨next, rfl, double⟩
    · exact Nat.le_refl 1
    · obtain ⟨behind, rfl⟩ := within
      simp [double] at noMark

/-- Behind the first byte of a class, the longest stretch of its members is the longest
match. -/
theorem munches_class {kind : TokenKind} {p : UInt8 → Bool}
    (belongs : ∀ otherKind body,
      Word otherKind (ch :: body) ↔ otherKind = kind ∧ ∀ ch ∈ body, p ch = true) :
    (Lexeme.token kind (1 + (rest.takeWhile p).length)).Munches (ch :: rest) := by
  refine ⟨ch :: rest.takeWhile p, Nat.add_comm _ _, ?_, ?_, ?_⟩
  · exact List.cons_prefix_cons.mpr ⟨rfl, List.takeWhile_prefix p⟩
  · exact (belongs _ _).mpr ⟨rfl, fun _ => List.mem_takeWhile_imp⟩
  · intro otherKind other prefix_ word
    obtain ⟨body, rfl, within⟩ := word_begins prefix_ word
    have inside := ((belongs _ _).mp word).2
    exact Nat.succ_le_succ (length_le_takeWhile within inside)

/-- Without a quote at its beginning, a text begins with its longest match or with an
unknown byte. -/
theorem lexeme_munches (plain : isQuote ch = false) :
    (lexeme (ch :: rest)).Munches (ch :: rest) := by
  simp only [lexeme, plain, Bool.false_eq_true, ↓reduceIte]
  split
  · next double => exact munches_mark double
  · next noMark single => exact munches_single plain noMark single
  · next absent =>
    obtain ⟨_, digits, heads⟩ := classes_apart ch
    split_ifs with digit head blank
    · obtain ⟨head, blank⟩ := digits digit
      exact munches_class fun _ _ => by simp [word_class absent, digit, head, blank]
    · exact munches_class fun _ _ => by simp [word_class absent, digit, head, heads head]
    · exact munches_class fun _ _ => by simp [word_class absent, digit, head, blank]
    · intro kind word begins belongs
      obtain ⟨body, rfl, _⟩ := word_begins begins belongs
      simp [word_class absent, digit, head, blank] at belongs

end Munching

/-- A call reports the longest match of the grammar and leaves the cursor behind it, or
reports an unknown token and passes over one byte. -/
def Tokenizes (buffer : Buffer) (pos : Nat) (lexed : Lexed) : Prop :=
  (∀ kind word, Longest Word (buffer.bytes.drop pos) kind word →
    lexed.token.kind = kind ∧ lexed.token.bufStart = pos ∧
      lexed.token.length.toNat = word.length ∧ lexed.curPos = pos + word.length) ∧
  ((∀ kind word, word <+: buffer.bytes.drop pos → ¬ Word kind word) →
    lexed.token.kind = .unknown ∧ lexed.curPos = pos + 1)

section Calls

variable {buffer : Buffer} {pos : Nat} {ch : UInt8}

/-- The kind of a lexeme that 32 bits measure is stored. -/
theorem storedKind_short {kind : TokenKind} {length : Nat} (positive : 0 < length)
    (short : length < 2 ^ 32) : storedKind kind length = kind := by
  apply if_neg
  rintro ⟨_, vanished⟩
  have stored := congrArg UInt32.toNat vanished
  rw [UInt32.toNat_ofNat_of_lt' short] at stored
  exact absurd stored (Nat.ne_of_gt positive)

/-- A lexeme that is a token is reported as the longest match exactly when 32 bits hold
its length. -/
theorem tokenizes_token {kind : TokenKind} {length : Nat} (inside : pos ≤ buffer.size)
    (found : lexeme (buffer.bytes.drop pos) = .token kind length)
    (munches : (lexeme (buffer.bytes.drop pos)).Munches (buffer.bytes.drop pos)) :
    (∃ lexed, lex buffer pos = .ok lexed ∧ Tokenizes buffer pos lexed) ↔ length < 2 ^ 32 := by
  have yields := lex_yields inside
  rw [found] at yields munches
  obtain ⟨positive, _, _, _, asserted, called⟩ := yields
  obtain ⟨word, rfl, longest⟩ := munches
  rw [called]
  constructor
  · rintro ⟨lexed, same, tokenizes, _⟩
    obtain rfl := Except.ok.inj same
    obtain ⟨_, _, measured, _⟩ := tokenizes kind word longest
    rw [← measured]
    exact UInt32.toNat_lt _
  · intro short
    refine ⟨_, rfl, ?_, ?_⟩
    · intro other another longestToo
      obtain ⟨rfl, rfl⟩ := longest.unique word_unambiguous longestToo
      exact ⟨storedKind_short positive short, rfl, UInt32.toNat_ofNat_of_lt' short, rfl⟩
    · intro none
      exact absurd longest.belongs (none kind word longest.begins)

/-- A byte that begins no word is reported as unknown. -/
theorem tokenizes_unknown (inside : pos ≤ buffer.size)
    (found : lexeme (buffer.bytes.drop pos) = .unknown)
    (munches : (lexeme (buffer.bytes.drop pos)).Munches (buffer.bytes.drop pos)) :
    ∃ lexed, lex buffer pos = .ok lexed ∧ Tokenizes buffer pos lexed := by
  have yields := lex_yields inside
  rw [found] at yields munches
  refine ⟨_, yields.1, ?_, fun _ => ⟨rfl, rfl⟩⟩
  intro kind word longest
  exact absurd longest.belongs (munches kind word longest.begins)

end Calls

/-- At every position that holds neither a quote nor the NUL, the lexer yields the longest
match of its grammar, or an unknown byte where there is none, exactly when the longest
match is shorter than 2^32 bytes. -/
theorem lex_tokenizes_iff (buffer : Buffer) {pos : Nat} {ch : UInt8}
    (here : buffer.bytes[pos]? = some ch) (plain : isQuote ch = false) :
    (∃ lexed, lex buffer pos = .ok lexed ∧ Tokenizes buffer pos lexed) ↔
      ∀ kind word, Longest Word (buffer.bytes.drop pos) kind word → word.length < 2 ^ 32 := by
  obtain ⟨inside, rfl⟩ := List.getElem?_eq_some_iff.mp here
  have munches : (lexeme (buffer.bytes.drop pos)).Munches (buffer.bytes.drop pos) := by
    rw [List.drop_eq_getElem_cons inside]
    exact lexeme_munches plain
  cases found : lexeme (buffer.bytes.drop pos) with
  | token kind length =>
    rw [tokenizes_token (Nat.le_of_lt inside) found munches]
    rw [found] at munches
    obtain ⟨word, rfl, longest⟩ := munches
    constructor
    · intro short other another longestToo
      obtain ⟨_, rfl⟩ := longest.unique word_unambiguous longestToo
      exact short
    · intro short
      exact short kind word longest
  | unknown =>
    apply iff_of_true (tokenizes_unknown (Nat.le_of_lt inside) found munches)
    rw [found] at munches
    intro kind word longest
    exact absurd longest.belongs (munches kind word longest.begins)
  | endOfInput => exact (found ▸ munches).elim
  | unterminated => exact (found ▸ munches).elim
  | overrun => exact (found ▸ munches).elim

/-- A mark between two identifiers. -/
def markBuffer : Buffer := ⟨text "a/*b", by decide⟩

/-- The equivalence at a slash that begins a mark. -/
theorem lex_tokenizes_comment :
    (∃ lexed, lex markBuffer 1 = .ok lexed ∧ Tokenizes markBuffer 1 lexed) ↔
      ∀ kind word, Longest Word (markBuffer.bytes.drop 1) kind word → word.length < 2 ^ 32 :=
  lex_tokenizes_iff markBuffer (show markBuffer.bytes[1]? = some '/'.toUInt8 by decide) (by decide)

example : (lex markBuffer 1).toOption.map (fun lexed => (lexed.token.kind, lexed.curPos)) =
    some (.l_comment, 3) := by decide +kernel

/-- Letters in a number that 32 bits do not hold are not reported as an identifier. -/
theorem letters_not_tokenized {count : Nat} (long : 2 ^ 32 ≤ count) :
    (letters count).bytes[0]? = some 'a'.toUInt8 ∧ isQuote 'a'.toUInt8 = false ∧
      ¬ ∃ lexed, lex (letters count) 0 = .ok lexed ∧ Tokenizes (letters count) 0 lexed := by
  have plain : isQuote 'a'.toUInt8 = false := by decide
  obtain ⟨before, rfl⟩ := Nat.exists_eq_succ_of_ne_zero (show count ≠ 0 by omega)
  refine ⟨rfl, plain, ?_⟩
  rw [tokenizes_token (Nat.zero_le _) (lexeme_letters before) (lexeme_munches plain)]
  exact Nat.not_lt.mpr long

/-- An identifier of 2^32 letters is recorded with length zero and an unknown kind. -/
theorem long_identifier_not_tokenized :
    (letters (2 ^ 32)).bytes[0]? = some 'a'.toUInt8 ∧ isQuote 'a'.toUInt8 = false ∧
      ¬ ∃ lexed, lex (letters (2 ^ 32)) 0 = .ok lexed ∧ Tokenizes (letters (2 ^ 32)) 0 lexed :=
  letters_not_tokenized (Nat.le_refl _)

end CppInterpreter.MetaLexer
