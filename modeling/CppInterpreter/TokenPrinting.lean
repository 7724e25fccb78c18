import CppInterpreter.SemicolonLexing
import Mathlib.Data.List.Chain

/-!
# Printing tokens

The texts of tokens, written one behind the other, are a text again. The lexer reads the
same tokens back exactly when no token absorbs the first byte of the next one: an
identifier absorbs letters and digits, a number digits, a space blanks, and a slash or an
asterisk makes a mark with what follows it. Literals, marks and the other punctuators
absorb nothing.

A blank between the tokens keeps all of them apart, so every sequence of tokens has a
text from which it is read back.
-/

namespace CppInterpreter.MetaLexer

open Bytes EscapedScan LongestMatch

/-- A text that is one lexeme, which 32 bits measure. -/
structure WholeToken where
  kind : TokenKind
  bytes : Bytes
  whole : lexeme bytes = .token kind bytes.length
  short : bytes.length < 2 ^ 32
  nulFree : 0 ∉ bytes

/-- Whether a byte behind a token of a kind becomes a part of it. -/
def TokenKind.absorbs (kind : TokenKind) (next : UInt8) : Bool :=
  match kind with
  | .ident => isIdentBody next
  | .constant => isDigit next
  | .space => isBlank next
  | .slash => next = '/'.toUInt8 || next = '*'.toUInt8
  | .asterik => next = '/'.toUInt8
  | _ => false

/-- The texts of tokens, one behind the other. -/
def printed (list : List WholeToken) : Bytes := list.flatMap (·.bytes)

/-- The printed tokens in a buffer. -/
def printedBuffer (list : List WholeToken) : Buffer :=
  ⟨printed list, by
    intro present
    obtain ⟨token, _, inside⟩ := List.mem_flatMap.mp present
    exact token.nulFree inside⟩

/-- The kinds and texts of tokens. -/
def listed (list : List WholeToken) : List (TokenKind × Bytes) :=
  list.map fun token => (token.kind, token.bytes)

/-- No token absorbs the first byte of the next one. -/
def Separated (list : List WholeToken) : Prop :=
  list.IsChain fun token next => token.kind.absorbs (next.bytes.headD 0) = false

section Appending

variable {ch : UInt8} {body : Bytes}

/-- Marks of two bytes absorb nothing. -/
theorem mark_absorbs {next : UInt8} {kind : TokenKind} (double : pairs.lookup (ch, next) = some kind)
    (behind : UInt8) : kind.absorbs behind = false := by
  rw [pairs_lookup] at double
  revert double
  split_ifs <;> simp <;> rintro rfl <;> rfl

/-- A punctuator absorbs what it makes a mark with. -/
theorem punctuator_absorbs {kind : TokenKind} (single : punctuators.lookup ch = some kind)
    (next : UInt8) : kind.absorbs next = (pairs.lookup (ch, next)).isSome := by
  have classes : ∀ entry ∈ punctuators, (entry.1 = '/'.toUInt8 ↔ entry.2 = .slash) ∧
      (entry.1 = '*'.toUInt8 ↔ entry.2 = .asterik) ∧ entry.2 ≠ .ident ∧ entry.2 ≠ .constant ∧
      entry.2 ≠ .space := by
    decide
  obtain ⟨slash, star, notIdent, notConstant, notSpace⟩ := classes (ch, kind) (mem_of_lookup single)
  simp only at slash star notIdent notConstant notSpace
  rw [pairs_lookup]
  by_cases isSlash : kind = .slash
  · simp only [slash.mpr isSlash, isSlash, TokenKind.absorbs, ↓reduceIte]
    split_ifs <;> simp_all
  · by_cases isStar : kind = .asterik
    · have apart : '*'.toUInt8 ≠ '/'.toUInt8 := by decide
      simp only [star.mpr isStar, isStar, TokenKind.absorbs, apart, ↓reduceIte]
      split_ifs <;> simp_all
    · simp only [slash, star, isSlash, isStar, ↓reduceIte, Option.isSome_none]
      cases kind <;> simp_all [TokenKind.absorbs]

/-- A stretch of a class grows with the byte behind it. -/
theorem stretch_append {p : UInt8 → Bool} (inside : 1 + (body.takeWhile p).length = (ch :: body).length)
    (rest : Bytes) : 1 + ((body ++ rest).takeWhile p).length = (ch :: body).length ↔
      ∀ next, rest.head? = some next → p next = false := by
  have all : ∀ item ∈ body, p item = true := by
    have whole : body.takeWhile p = body := by
      apply (List.takeWhile_prefix p).eq_of_length
      simp only [List.length_cons] at inside
      omega
    exact List.takeWhile_eq_self_iff.mp whole
  rw [List.takeWhile_append_of_pos all, List.length_append, List.length_cons]
  cases rest with
  | nil => simp [Nat.add_comm]
  | cons next rest =>
    cases first : p next <;> simp [first] <;> omega

/-- A mark that is a whole token stays what it is. -/
theorem mark_append {kind mark : TokenKind} (plain : isQuote ch = false)
    (double : pairs.lookup (ch, body.headD 0) = some mark)
    (whole : lexeme (ch :: body) = .token kind (ch :: body).length) (rest : Bytes) :
    lexeme (ch :: (body ++ rest)) = .token kind (ch :: body).length ∧
      ∀ next, kind.absorbs next = false := by
  have following := (mark_kind double).2
  obtain ⟨second, others, rfl⟩ := List.exists_cons_of_length_pos following
  rw [List.headD_cons] at double
  simp only [lexeme, plain, Bool.false_eq_true, ↓reduceIte, List.headD_cons, double,
    Lexeme.token.injEq] at whole
  refine ⟨?_, fun next => whole.1 ▸ mark_absorbs double next⟩
  simp [lexeme, plain, double, whole]

/-- A punctuator that is a whole token stays what it is unless it begins a mark. -/
theorem single_append {kind single : TokenKind} (plain : isQuote ch = false)
    (noMark : pairs.lookup (ch, body.headD 0) = none) (alone : punctuators.lookup ch = some single)
    (whole : lexeme (ch :: body) = .token kind (ch :: body).length) (rest : Bytes) :
    lexeme (ch :: (body ++ rest)) = .token kind (ch :: body).length ↔
      ∀ next, rest.head? = some next → kind.absorbs next = false := by
  simp only [lexeme, plain, Bool.false_eq_true, ↓reduceIte, noMark, alone, Lexeme.token.injEq] at whole
  obtain ⟨rfl, one⟩ := whole
  obtain rfl : body = [] := List.eq_nil_of_length_eq_zero (Nat.succ.inj one).symm
  simp only [punctuator_absorbs alone, List.nil_append, lexeme, plain, Bool.false_eq_true, ↓reduceIte,
    alone]
  cases rest with
  | nil => exact iff_of_true (by rw [noMark]; rfl) (by simp)
  | cons next rest =>
    rw [List.headD_cons, List.head?_cons]
    cases marked : pairs.lookup (ch, next) with
    | none => exact iff_of_true rfl (by rintro _ ⟨⟩; rw [marked]; rfl)
    | some mark =>
      apply iff_of_false
      · simp
      · intro absorbs
        have unmarked := absorbs next rfl
        rw [marked] at unmarked
        cases unmarked

/-- A whole token stays what it is exactly when it does not absorb the byte behind it. -/
theorem lexeme_append_iff {kind : TokenKind} {bytes : Bytes}
    (whole : lexeme bytes = .token kind bytes.length) (rest : Bytes) :
    lexeme (bytes ++ rest) = .token kind bytes.length ↔
      ∀ next, rest.head? = some next → kind.absorbs next = false := by
  cases bytes with
  | nil => cases whole
  | cons ch body =>
    rw [List.cons_append]
    cases quote : isQuote ch with
    | true =>
      cases ended : scan backslash ch body with
      | closed index =>
        simp only [lexeme, quote, ended, ↓reduceIte, Lexeme.token.injEq] at whole
        simp only [lexeme, quote, scan_append ended, ↓reduceIte, whole, true_iff]
        intro next _
        rw [← whole.1]
        split <;> rfl
      | unclosed | overrun => simp [lexeme, quote, ended] at whole
    | false =>
      cases double : pairs.lookup (ch, body.headD 0) with
      | some mark =>
        obtain ⟨same, nothing⟩ := mark_append quote double whole rest
        exact iff_of_true same fun next _ => nothing next
      | none =>
        cases single : punctuators.lookup ch with
        | some alone => exact single_append quote double single whole rest
        | none =>
          obtain ⟨_, _, notSlash, notStar⟩ := lookup_none single
          simp only [lexeme, pairs_lookup, notSlash, notStar, quote, single, Bool.false_eq_true,
            ↓reduceIte] at whole ⊢
          split_ifs at whole ⊢ <;> simp only [Lexeme.token.injEq] at whole
          all_goals
            obtain ⟨rfl, inside⟩ := whole
            rw [Lexeme.token.injEq, and_iff_right rfl, stretch_append inside]
            rfl

end Appending

/-- A whole token is not empty. -/
theorem WholeToken.nonempty (token : WholeToken) : token.bytes ≠ [] := by
  intro vacant
  have whole := token.whole
  rw [vacant] at whole
  cases whole

/-- The first byte of printed tokens is that of the first token. -/
theorem printed_head (token : WholeToken) (rest : List WholeToken) :
    (printed (token :: rest)).head? = some (token.bytes.headD 0) := by
  obtain ⟨first, others, split⟩ := List.exists_cons_of_ne_nil token.nonempty
  simp [printed, split]

/-- The first of several printed tokens is read as it stands exactly when it does not absorb
the first byte of the next one. -/
theorem first_separated_iff (token : WholeToken) (rest : List WholeToken) :
    lexeme (token.bytes ++ printed rest) = .token token.kind token.bytes.length ↔
      ∀ next ∈ rest.head?, token.kind.absorbs (next.bytes.headD 0) = false := by
  rw [lexeme_append_iff token.whole]
  cases rest with
  | nil => simp [printed]
  | cons next others => simp [printed_head]

/-- The texts of what a text spells are not longer than the text. -/
theorem spells_total {input : Bytes} {spelled : List (TokenKind × Bytes)}
    (spells : Spells input spelled) : (spelled.flatMap (·.2)).length ≤ input.length := by
  induction spells with
  | nil => exact Nat.le_refl 0
  | @token input kind length rest found later inductionHypothesis =>
    have bound := lexeme_bound found
    have recorded : (UInt32.ofNat length).toNat ≤ length := by
      rw [UInt32.toNat_ofNat']
      exact Nat.mod_le _ _
    simp only [List.length_drop] at inductionHypothesis
    simp only [List.flatMap_cons, List.length_append, List.length_take]
    omega
  | @unknown input rest found later inductionHypothesis =>
    simp only [List.length_drop] at inductionHypothesis
    simp only [List.flatMap_cons, List.length_append, List.length_nil]
    omega

/-- Printing writes the listed texts. -/
theorem printed_listed (list : List WholeToken) : printed list = (listed list).flatMap (·.2) := by
  simp [printed, listed, List.flatMap_map]

/-- Separated tokens are spelled by their printed texts. -/
theorem separated_spells {list : List WholeToken} (separated : Separated list) :
    Spells (printed list) (listed list) := by
  induction list with
  | nil => exact .nil
  | cons token rest inductionHypothesis =>
    obtain ⟨first, others⟩ := List.isChain_cons.mp separated
    have found := (first_separated_iff token rest).mpr first
    have spelled := Spells.token found (by
      rw [List.drop_left]
      exact inductionHypothesis others)
    have measured : (UInt32.ofNat token.bytes.length).toNat = token.bytes.length :=
      UInt32.toNat_ofNat_of_lt' token.short
    have positive : 0 < token.bytes.length := List.length_pos_iff.mpr token.nonempty
    rw [storedKind_short positive token.short, measured, List.take_left] at spelled
    exact spelled

/-- Tokens that are spelled by their printed texts are separated. All recorded lengths
together are the length of the text, so none of them is cut. -/
theorem spells_separated {list : List WholeToken} (spells : Spells (printed list) (listed list)) :
    Separated list := by
  induction list with
  | nil => exact .nil
  | cons token rest inductionHypothesis =>
    have total := congrArg List.length (printed_listed (token :: rest))
    have positive : 0 < token.bytes.length := List.length_pos_iff.mpr token.nonempty
    generalize text : printed (token :: rest) = input at spells total
    generalize items : listed (token :: rest) = spelled at spells total
    have split : input = token.bytes ++ printed rest := text.symm
    cases spells with
    | nil => cases items
    | @unknown _ _ found later =>
      have vacant : token.bytes = [] := by
        have same := (List.cons.inj items).1
        exact (Prod.ext_iff.mp same).2
      exact absurd vacant token.nonempty
    | @token _ kind length others found later =>
      obtain ⟨same, behind⟩ := List.cons.inj items
      obtain ⟨sameKind, sameText⟩ := Prod.ext_iff.mp same
      have bound := lexeme_bound found
      have remaining := spells_total later
      have cut : (UInt32.ofNat length).toNat ≤ length := by
        rw [UInt32.toNat_ofNat']
        exact Nat.mod_le _ _
      have lengths := congrArg List.length sameText
      simp only [List.flatMap_cons, List.length_append, List.length_take, List.length_drop]
        at total remaining lengths
      obtain rfl : length = token.bytes.length := by omega
      have kept : storedKind kind token.bytes.length = kind := storedKind_short positive token.short
      simp only [kept] at sameKind
      rw [split, ← sameKind] at found
      rw [split, List.drop_left, ← behind] at later
      exact List.isChain_cons.mpr ⟨(first_separated_iff token rest).mp found, inductionHypothesis later⟩

/-- Printed tokens are read back exactly when they are separated. -/
theorem printed_read_iff (list : List WholeToken) :
    (∃ run, lexRun (printedBuffer list) ((printedBuffer list).size + 1) 0 = some run ∧
      EndsPlainly run ∧ tokens (printedBuffer list) run = listed list) ↔ Separated list := by
  constructor
  · rintro ⟨run, ran, plain, same⟩
    have spelled := run_spells (Nat.zero_le _) ran plain
    rw [same] at spelled
    exact spells_separated spelled
  · intro separated
    exact spells_run (separated_spells separated) rfl (Nat.zero_le _) (Nat.lt_succ_self _)

section Words

variable {kind : TokenKind} {word : Bytes}

/-- No word of the grammar begins with a quote. -/
theorem word_plain {ch : UInt8} {body : Bytes} (belongs : Word kind (ch :: body)) :
    isQuote ch = false := by
  cases belongs with
  | spelled only => exact spelling_plain only
  | ident begins | constant begins | space begins =>
    revert ch
    apply forall_byte
    decide +kernel

/-- A word of the grammar is a lexeme of its kind. -/
theorem word_whole (belongs : Word kind word) : lexeme word = .token kind word.length := by
  cases word with
  | nil => exact absurd belongs word_ne_nil
  | cons ch body =>
    have longest : Longest Word (ch :: body) kind (ch :: body) :=
      ⟨List.prefix_rfl, belongs, fun _ _ begins _ => begins.length_le⟩
    have munches : (lexeme (ch :: body)).Munches (ch :: body) := lexeme_munches (word_plain belongs)
    cases found : lexeme (ch :: body) with
    | token other length =>
      rw [found] at munches
      obtain ⟨another, rfl, longestToo⟩ := munches
      obtain ⟨rfl, rfl⟩ := longestToo.unique word_unambiguous longest
      rfl
    | unknown =>
      rw [found] at munches
      exact absurd belongs (munches kind _ List.prefix_rfl)
    | endOfInput | unterminated | overrun =>
      rw [found] at munches
      exact munches.elim

/-- No word of the grammar contains a NUL. -/
theorem word_nulFree (belongs : Word kind word) : 0 ∉ word := by
  intro present
  cases belongs with
  | spelled only =>
    have free : kind.spelling.all fun spelling => !spelling.contains 0 := by
      cases kind <;> decide
    simp [only, present] at free
  | ident begins continues | constant begins continues | space begins continues =>
    rcases List.mem_cons.mp present with rfl | inside
    · exact absurd begins (by decide)
    · exact absurd (continues 0 inside) (by decide)

/-- A word of the grammar that 32 bits measure is a whole token. -/
def WholeToken.ofWord (belongs : Word kind word) (short : word.length < 2 ^ 32) : WholeToken :=
  ⟨kind, word, word_whole belongs, short, word_nulFree belongs⟩

end Words

/-- A single blank between tokens. -/
def blank : WholeToken where
  kind := .space
  bytes := text " "
  whole := by decide
  short := by decide
  nulFree := by decide

/-- Tokens with a blank between each two of them. -/
def spaced (list : List WholeToken) : List WholeToken := list.intersperse blank

/-- Only spaces begin with a blank. -/
theorem blank_begins {token : WholeToken} (notSpace : token.kind ≠ .space) :
    isBlank (token.bytes.headD 0) = false := by
  have classes : ∀ ch, isBlank ch = true → isQuote ch = false ∧ punctuators.lookup ch = none ∧
      isDigit ch = false ∧ isIdentHead ch = false ∧ ch ≠ '/'.toUInt8 ∧ ch ≠ '*'.toUInt8 := by
    apply forall_byte
    decide +kernel
  have whole := token.whole
  obtain ⟨ch, body, split⟩ := List.exists_cons_of_ne_nil token.nonempty
  rw [split] at whole ⊢
  by_contra begins
  rw [List.headD_cons, Bool.not_eq_false] at begins
  obtain ⟨quote, single, digit, head, slash, star⟩ := classes ch begins
  simp only [lexeme, quote, pairs_lookup, slash, star, single, digit, head, begins,
    Bool.false_eq_true, ↓reduceIte, Lexeme.token.injEq] at whole
  exact notSpace whole.1.symm

/-- Only spaces absorb a blank. -/
theorem absorbs_blank {kind : TokenKind} (notSpace : kind ≠ .space) :
    kind.absorbs ' '.toUInt8 = false := by
  cases kind <;> first | rfl | exact absurd rfl notSpace

/-- Blanks separate tokens that are no spaces. -/
theorem spaced_separated {list : List WholeToken} (plain : ∀ token ∈ list, token.kind ≠ .space) :
    Separated (spaced list) := by
  induction list with
  | nil => exact .nil
  | cons token rest inductionHypothesis =>
    obtain ⟨notSpace, others⟩ := List.forall_mem_cons.mp plain
    have separated := inductionHypothesis others
    cases rest with
    | nil => exact .singleton token
    | cons next later =>
      rw [spaced, List.intersperse_cons_cons]
      refine .cons_cons (absorbs_blank notSpace) (List.isChain_cons.mpr ⟨?_, separated⟩)
      intro first present
      have same : first = next := by
        cases later <;> simpa [spaced, eq_comm] using present
      rw [same]
      exact blank_begins (others next List.mem_cons_self)

/-- Without its blanks a spaced sequence is the sequence itself. -/
theorem spaced_listed {list : List WholeToken} (plain : ∀ token ∈ list, token.kind ≠ .space) :
    (listed (spaced list)).filter (fun item => item.1 ≠ .space) = listed list := by
  induction list with
  | nil => rfl
  | cons token rest inductionHypothesis =>
    obtain ⟨notSpace, others⟩ := List.forall_mem_cons.mp plain
    have remaining := inductionHypothesis others
    cases rest with
    | nil => simp [spaced, listed, notSpace]
    | cons next later =>
      simp only [spaced, List.intersperse_cons_cons, listed, List.map_cons] at remaining ⊢
      rw [List.filter_cons_of_pos (by simpa using notSpace), List.filter_cons_of_neg (by simp [blank]),
        remaining]

/-- Every sequence of tokens is read back from its printed texts with blanks between them, up
to these blanks. -/
theorem spaced_read (list : List WholeToken) (plain : ∀ token ∈ list, token.kind ≠ .space) :
    ∃ run, lexRun (printedBuffer (spaced list)) ((printedBuffer (spaced list)).size + 1) 0 = some run ∧
      EndsPlainly run ∧
      (tokens (printedBuffer (spaced list)) run).filter (fun item => item.1 ≠ .space) = listed list := by
  have spells := separated_spells (spaced_separated plain)
  have here : (printedBuffer (spaced list)).bytes.drop 0 = printed (spaced list) := rfl
  obtain ⟨run, ran, ends, same⟩ := spells_run spells here (Nat.zero_le _) (Nat.lt_succ_self _)
  exact ⟨run, ran, ends, same ▸ spaced_listed plain⟩

/-- A slash, as a word of the grammar. -/
def slash : WholeToken :=
  .ofWord (.spelled (show TokenKind.slash.spelling = some (text "/") from rfl)) (by decide)

/-- Two slashes are read back when there is a blank between them; without it they would be a
comment. -/
theorem slashes_read : ∃ run,
    lexRun (printedBuffer (spaced [slash, slash])) ((printedBuffer (spaced [slash, slash])).size + 1) 0 =
        some run ∧
      EndsPlainly run ∧
      (tokens (printedBuffer (spaced [slash, slash])) run).filter (fun item => item.1 ≠ .space) =
        [(.slash, text "/"), (.slash, text "/")] :=
  spaced_read [slash, slash] (by simp [slash, WholeToken.ofWord])

end CppInterpreter.MetaLexer
