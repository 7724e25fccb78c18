import Mathlib.Data.List.Basic

/-!
# Codes of keywords with arguments

Each keyword has a text of its own and a number of arguments behind it. No text begins
another one, so a sequence of items that is written down without separators is read back
uniquely, whatever its arguments contain.
-/

namespace CppInterpreter.PrefixCodes

variable {κ α : Type*}

/-- A finite number of keywords, none of whose texts begins another one. -/
structure Code (κ α : Type*) where
  keywords : List κ
  text : κ → List α
  arity : κ → Nat
  complete : ∀ keyword, keyword ∈ keywords
  nonempty : ∀ keyword, text keyword ≠ []
  prefixFree : ∀ keyword other, text keyword <+: text other → keyword = other

/-- A keyword with as many arguments as it takes. -/
structure Item (code : Code κ α) where
  keyword : κ
  arguments : List α
  counted : arguments.length = code.arity keyword

variable {code : Code κ α}

/-- Items with the same keyword and arguments are the same. -/
@[ext] theorem Item.ext {one two : Item code} (keyword : one.keyword = two.keyword)
    (arguments : one.arguments = two.arguments) : one = two := by
  cases one
  cases two
  simp_all

/-- The text of the keyword, and its arguments. -/
def Item.write (item : Item code) : List α := code.text item.keyword ++ item.arguments

/-- The items, one behind the other. -/
def encode (items : List (Item code)) : List α := items.flatMap Item.write

@[simp] theorem encode_nil : encode ([] : List (Item code)) = [] := rfl

@[simp] theorem encode_cons (item : Item code) (items : List (Item code)) :
    encode (item :: items) = item.write ++ encode items := rfl

@[simp] theorem encode_append (front back : List (Item code)) :
    encode (front ++ back) = encode front ++ encode back := List.flatMap_append

/-- What is written for an item is not empty. -/
theorem write_ne_nil (item : Item code) : item.write ≠ [] := by
  simp [Item.write, code.nonempty]

variable [DecidableEq α]

/-- The keyword whose text stands first. -/
def readKeyword (code : Code κ α) (tokens : List α) : Option κ :=
  code.keywords.find? fun keyword => code.text keyword <+: tokens

/-- The item of a keyword whose arguments stand first, and the tokens behind it. -/
def readArguments (code : Code κ α) (keyword : κ) (tokens : List α) : Option (Item code × List α) :=
  if enough : code.arity keyword ≤ tokens.length then
    some (⟨keyword, tokens.take (code.arity keyword), List.length_take_of_le enough⟩,
      tokens.drop (code.arity keyword))
  else none

/-- The item that stands first, and the tokens behind it. -/
def readItem (code : Code κ α) (tokens : List α) : Option (Item code × List α) :=
  (readKeyword code tokens).bind fun keyword =>
    readArguments code keyword (tokens.drop (code.text keyword).length)

/-- Read items until no token is left, a limited number of times. -/
def decodeWithin (code : Code κ α) : Nat → List α → Option (List (Item code))
  | _, [] => some []
  | 0, _ :: _ => none
  | limit + 1, token :: tokens =>
    match readItem code (token :: tokens) with
    | none => none
    | some (item, rest) => (decodeWithin code limit rest).map (item :: ·)

/-- The items that a list of tokens consists of. -/
def decode (code : Code κ α) (tokens : List α) : Option (List (Item code)) :=
  decodeWithin code tokens.length tokens

/-- The keyword that was written is the one that is read: the text of another one would
begin with it, or it with the other one. -/
theorem readKeyword_text (keyword : κ) (rest : List α) :
    readKeyword code (code.text keyword ++ rest) = some keyword := by
  have present : (readKeyword code (code.text keyword ++ rest)).isSome := by
    rw [readKeyword, List.find?_isSome]
    exact ⟨keyword, code.complete keyword, decide_eq_true (List.prefix_append _ _)⟩
  obtain ⟨found, read⟩ := Option.isSome_iff_exists.mp present
  have begins : code.text found <+: code.text keyword ++ rest := by
    rw [readKeyword] at read
    simpa using List.find?_some read
  rw [read]
  rcases List.prefix_or_prefix_of_prefix begins (List.prefix_append _ rest) with shorter | longer
  · rw [code.prefixFree found keyword shorter]
  · rw [code.prefixFree keyword found longer]

omit [DecidableEq α] in
/-- As many arguments are read as the keyword takes. -/
theorem readArguments_append (item : Item code) (rest : List α) :
    readArguments code item.keyword (item.arguments ++ rest) = some (item, rest) := by
  have enough : code.arity item.keyword ≤ (item.arguments ++ rest).length := by
    rw [List.length_append, item.counted]
    exact Nat.le_add_right _ _
  rw [readArguments, dif_pos enough]
  simp only [← item.counted, List.take_left, List.drop_left]

/-- An item that was written is read, and what stands behind it is left. -/
theorem readItem_write (item : Item code) (rest : List α) :
    readItem code (item.write ++ rest) = some (item, rest) := by
  rw [readItem, Item.write, List.append_assoc, readKeyword_text, Option.bind_some, List.drop_left,
    readArguments_append]

/-- A sequence of items is read back from what is written for it. -/
theorem decodeWithin_encode (items : List (Item code)) {limit : Nat}
    (enough : (encode items).length ≤ limit) :
    decodeWithin code limit (encode items) = some items := by
  induction items generalizing limit with
  | nil => cases limit <;> rfl
  | cons item items inductionHypothesis =>
    have read := readItem_write item (encode items)
    obtain ⟨token, tokens, written⟩ := List.exists_cons_of_ne_nil (write_ne_nil item)
    have begins : encode (item :: items) = token :: (tokens ++ encode items) := by
      rw [encode_cons, written, List.cons_append]
    rw [written, List.cons_append] at read
    rw [begins] at enough ⊢
    cases limit with
    | zero => simp at enough
    | succ limit =>
      have shorter : (encode items).length ≤ limit := by
        simp only [List.length_cons, List.length_append] at enough
        omega
      simp only [decodeWithin, read, inductionHypothesis shorter, Option.map_some]

/-- Decoding undoes encoding. -/
theorem decode_encode (items : List (Item code)) : decode code (encode items) = some items :=
  decodeWithin_encode items (Nat.le_refl _)

/-- An item that is read is what the tokens begin with. -/
theorem write_readItem {tokens rest : List α} {item : Item code}
    (read : readItem code tokens = some (item, rest)) : item.write ++ rest = tokens := by
  obtain ⟨keyword, begins, arguments⟩ := Option.bind_eq_some_iff.mp read
  rw [readKeyword] at begins
  have occurs : code.text keyword <+: tokens := by simpa using List.find?_some begins
  unfold readArguments at arguments
  split at arguments
  · obtain ⟨rfl, rfl⟩ := Prod.mk.inj (Option.some.inj arguments)
    rw [Item.write, List.append_assoc, List.take_append_drop]
    exact List.prefix_iff_eq_append.mp occurs
  · cases arguments

/-- Items that are read from tokens are written as these tokens. -/
theorem encode_decodeWithin {limit : Nat} {tokens : List α} {items : List (Item code)}
    (read : decodeWithin code limit tokens = some items) : encode items = tokens := by
  induction limit generalizing tokens items with
  | zero =>
    cases tokens with
    | nil => exact Option.some.inj read ▸ rfl
    | cons token tokens => cases read
  | succ limit inductionHypothesis =>
    cases tokens with
    | nil => exact Option.some.inj read ▸ rfl
    | cons token tokens =>
      simp only [decodeWithin] at read
      split at read
      · cases read
      · next item rest found =>
        obtain ⟨later, decoded, rfl⟩ := Option.map_eq_some_iff.mp read
        rw [encode_cons, inductionHypothesis decoded, write_readItem found]

/-- Encoding undoes decoding. -/
theorem encode_decode {tokens : List α} {items : List (Item code)}
    (read : decode code tokens = some items) : encode items = tokens := encode_decodeWithin read

end CppInterpreter.PrefixCodes
