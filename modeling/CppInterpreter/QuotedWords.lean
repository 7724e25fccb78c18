import Mathlib.Data.List.Basic

/-!
# Splitting a line into words

A command line is a list of words between blanks. Quotes take blanks into a word and
disappear. Some characters mean more than themselves: outside of quotes, or even within.
Where such a character stands the line is more than a list of words, and splitting gives
up; the same happens at a quote that is never closed.

A line that is written from pieces, bare ones and quoted ones, splits into the values of
its words, if the pieces contain nothing that is active where it stands.
-/

namespace CppInterpreter.QuotedWords

variable {α : Type*}

/-- The roles of characters: blanks, the quote, and those that are active outside of quotes
and within. -/
structure Roles (α : Type*) where
  blank : α → Bool
  quote : α
  special : α → Bool
  active : α → Bool

/-- What has been read of a word, with some more characters. -/
def extend (current : Option (List α)) (more : List α) : List α := current.getD [] ++ more

variable [DecidableEq α] (roles : Roles α)

/-- Split a line, from within quotes or not, with what has been read of the current word. -/
def split : Bool → Option (List α) → List α → Option (List (List α))
  | true, _, [] => none
  | false, current, [] => some current.toList
  | true, current, ch :: rest =>
    if ch = roles.quote then split false current rest
    else if roles.active ch then none
    else split true (some (extend current [ch])) rest
  | false, current, ch :: rest =>
    if ch = roles.quote then split true (some (extend current [])) rest
    else if roles.blank ch then (split false none rest).map (current.toList ++ ·)
    else if roles.special ch then none
    else split false (some (extend current [ch])) rest

/-- The words of a line. -/
def words (line : List α) : Option (List (List α)) := split roles false none line

/-- A part of a word as it is written. -/
inductive Piece (α : Type*) where
  | bare (text : List α)
  | quoted (text : List α)

/-- How a piece is written. -/
def Piece.written : Piece α → List α
  | .bare text => text
  | .quoted text => roles.quote :: text ++ [roles.quote]

/-- What a piece means. -/
def Piece.value : Piece α → List α
  | .bare text | .quoted text => text

/-- Characters that mean themselves outside of quotes. -/
def Bare (text : List α) : Prop :=
  ∀ ch ∈ text, ch ≠ roles.quote ∧ roles.blank ch = false ∧ roles.special ch = false

/-- Characters that mean themselves within quotes. -/
def Quotable (text : List α) : Prop := ∀ ch ∈ text, ch ≠ roles.quote ∧ roles.active ch = false

/-- A bare piece is not empty. -/
def Piece.Valid : Piece α → Prop
  | .bare text => text ≠ [] ∧ Bare roles text
  | .quoted text => Quotable roles text

/-- How a word is written. -/
def writtenWord (pieces : List (Piece α)) : List α := pieces.flatMap (Piece.written roles)

/-- What a word means. -/
def wordValue (pieces : List (Piece α)) : List α := pieces.flatMap Piece.value

/-- A word that is written with blanks in front of it. -/
structure Entry (α : Type*) where
  blanks : List α
  pieces : List (Piece α)

/-- How a line is written. -/
def writtenLine (entries : List (Entry α)) : List α :=
  entries.flatMap fun entry => entry.blanks ++ writtenWord roles entry.pieces

/-- Blanks between the words, and at least one piece in each word. -/
structure Entry.Valid (entry : Entry α) : Prop where
  blanks : ∀ ch ∈ entry.blanks, roles.blank ch = true ∧ ch ≠ roles.quote
  present : entry.pieces ≠ []
  pieces : ∀ piece ∈ entry.pieces, piece.Valid roles

variable {roles}

section Splitting

variable {current : Option (List α)} {text rest : List α}

/-- Bare characters are read into the current word. -/
theorem split_bare (bare : Bare roles text) (present : text ≠ []) (rest : List α) :
    split roles false current (text ++ rest) = split roles false (some (extend current text)) rest := by
  induction text generalizing current with
  | nil => exact absurd rfl present
  | cons ch text inductionHypothesis =>
    obtain ⟨⟨notQuote, notBlank, notSpecial⟩, others⟩ := List.forall_mem_cons.mp bare
    simp only [List.cons_append, split, notQuote, notBlank, notSpecial, Bool.false_eq_true, ↓reduceIte]
    by_cases last : text = []
    · simp [last]
    · rw [inductionHypothesis others last]
      simp [extend]

/-- Quoted characters are read into the current word, up to the closing quote. -/
theorem split_quoted (quotable : Quotable roles text) (rest : List α) :
    split roles true (some (extend current [])) (text ++ roles.quote :: rest) =
      split roles false (some (extend current text)) rest := by
  induction text generalizing current with
  | nil => simp [split]
  | cons ch text inductionHypothesis =>
    obtain ⟨⟨notQuote, inactive⟩, others⟩ := List.forall_mem_cons.mp quotable
    have later : split roles true (some (extend (some (extend current [ch])) [])) (text ++ roles.quote :: rest) =
        split roles false (some (extend (some (extend current [ch])) text)) rest :=
      inductionHypothesis others
    simp only [extend, Option.getD_some, List.append_nil, List.append_assoc, List.cons_append,
      List.nil_append] at later ⊢
    simp only [split, notQuote, inactive, Bool.false_eq_true, ↓reduceIte, extend, Option.getD_some,
      later]

/-- A piece is read into the current word. -/
theorem split_piece {piece : Piece α} (valid : piece.Valid roles) (rest : List α) :
    split roles false current (piece.written roles ++ rest) =
      split roles false (some (extend current piece.value)) rest := by
  cases piece with
  | bare text => exact split_bare valid.2 valid.1 rest
  | quoted text =>
    rw [Piece.written, List.cons_append, List.cons_append, List.append_assoc, List.singleton_append,
      split, if_pos rfl]
    exact split_quoted valid rest

/-- The pieces of a word are read one after the other. -/
theorem split_pieces {pieces : List (Piece α)} (valid : ∀ piece ∈ pieces, piece.Valid roles)
    (present : pieces ≠ []) (rest : List α) :
    split roles false current (writtenWord roles pieces ++ rest) =
      split roles false (some (extend current (wordValue pieces))) rest := by
  induction pieces generalizing current with
  | nil => exact absurd rfl present
  | cons piece pieces inductionHypothesis =>
    obtain ⟨first, others⟩ := List.forall_mem_cons.mp valid
    rw [writtenWord, List.flatMap_cons, List.append_assoc, split_piece first]
    by_cases last : pieces = []
    · simp [last, wordValue]
    · have later : split roles false (some (extend current piece.value)) (writtenWord roles pieces ++ rest) =
          split roles false (some (extend (some (extend current piece.value)) (wordValue pieces))) rest :=
        inductionHypothesis others last
      rw [← writtenWord, later]
      simp [extend, wordValue]

/-- Blanks in front of a word are passed over. -/
theorem split_blanks (blanks : ∀ ch ∈ text, roles.blank ch = true ∧ ch ≠ roles.quote) (rest : List α) :
    split roles false none (text ++ rest) = split roles false none rest := by
  induction text with
  | nil => rfl
  | cons ch text inductionHypothesis =>
    obtain ⟨⟨blank, notQuote⟩, others⟩ := List.forall_mem_cons.mp blanks
    simp [split, blank, notQuote, inductionHypothesis others]

end Splitting

/-- A word ends at a blank, or with the line. -/
theorem split_ends {word rest : List α}
    (ends : ∀ ch ∈ rest.head?, roles.blank ch = true ∧ ch ≠ roles.quote) :
    split roles false (some word) rest = (split roles false none rest).map (word :: ·) := by
  cases rest with
  | nil => rfl
  | cons ch rest =>
    obtain ⟨blank, notQuote⟩ := ends ch rfl
    simp [split, blank, notQuote]

/-- The words of a written line stand in front of those of the rest, if the rest begins with
a blank. Each word but the first has blanks in front of it. -/
theorem words_written_append {entries : List (Entry α)} {rest : List α}
    (valid : ∀ entry ∈ entries, entry.Valid roles) (apart : ∀ entry ∈ entries.tail, entry.blanks ≠ [])
    (ends : ∀ ch ∈ rest.head?, roles.blank ch = true ∧ ch ≠ roles.quote) :
    words roles (writtenLine roles entries ++ rest) =
      (words roles rest).map ((entries.map fun entry => wordValue entry.pieces) ++ ·) := by
  induction entries with
  | nil => simp [writtenLine]
  | cons entry others inductionHypothesis =>
    obtain ⟨first, later⟩ := List.forall_mem_cons.mp valid
    rw [List.tail_cons] at apart
    have following := inductionHypothesis later fun next member => apart next (List.mem_of_mem_tail member)
    have begins : ∀ ch ∈ (writtenLine roles others ++ rest).head?,
        roles.blank ch = true ∧ ch ≠ roles.quote := by
      cases others with
      | nil => simpa [writtenLine] using ends
      | cons next others =>
        obtain ⟨blank, more, split_⟩ := List.exists_cons_of_ne_nil (apart next List.mem_cons_self)
        have opens := (later next List.mem_cons_self).blanks blank (by simp [split_])
        simpa [writtenLine, split_] using opens
    rw [words, writtenLine, List.flatMap_cons, List.append_assoc, List.append_assoc,
      split_blanks first.blanks, split_pieces first.pieces first.present, ← writtenLine,
      split_ends begins, ← words, following, Option.map_map]
    rfl

/-- A written line splits into the values of its words. -/
theorem words_written {entries : List (Entry α)} (valid : ∀ entry ∈ entries, entry.Valid roles)
    (apart : ∀ entry ∈ entries.tail, entry.blanks ≠ []) :
    words roles (writtenLine roles entries) =
      some (entries.map fun entry => wordValue entry.pieces) := by
  have whole : words roles (writtenLine roles entries ++ []) =
      (words roles []).map ((entries.map fun entry => wordValue entry.pieces) ++ ·) :=
    words_written_append valid apart (by simp)
  simpa [words, split] using whole

/-- Blanks in front of a line are passed over. -/
theorem words_blank {blank : α} (isBlank : roles.blank blank = true) (notQuote : blank ≠ roles.quote)
    (line : List α) : words roles (blank :: line) = words roles line := by
  simp [words, split, isBlank, notQuote]

end CppInterpreter.QuotedWords
