import Mathlib.Data.List.Basic
import Mathlib.Data.List.TakeWhile

/-!
# Byte strings

`std::string` and `llvm::StringRef` values are lists of bytes; a C string ends at
its first NUL. Positions are natural numbers and `npos` is the absence of a
position. The operations below are those of the C++ library that the path
utilities and the backend passes call, with the clamping the library documents:
an extent that reaches past the end stops at the end.
-/

namespace CppInterpreter

/-- The bytes of a string or of a slice of one. -/
abbrev Bytes := List UInt8

namespace Bytes

/-- The bytes of a source literal, one for each of its ASCII characters. -/
def text (literal : String) : Bytes := literal.toList.map Char.toUInt8

/-- `std::string::find`: the first occurrence of a byte at or after a position. -/
def find (str : Bytes) (ch : UInt8) (pos : Nat) : Option Nat :=
  ((str.drop pos).idxOf? ch).map (pos + ·)

/-- `std::string::substr` for a position that is not past the end. -/
def substr (str : Bytes) (pos len : Nat) : Bytes := (str.drop pos).take len

/-- `std::string::replace`: exchange an extent for other bytes. -/
def replace (str : Bytes) (pos len : Nat) (inserted : Bytes) : Bytes :=
  str.take pos ++ inserted ++ str.drop (pos + len)

/-- `std::string::c_str` as its reader sees it: everything before the first NUL. -/
def cStr (str : Bytes) : Bytes := str.takeWhile (· ≠ 0)

/-- `llvm::StringRef::startswith`. -/
def startswith (str start : Bytes) : Bool := start.isPrefixOf str

/-- A string without a NUL is read as it is. -/
theorem cStr_nulFree {str : Bytes} (nulFree : 0 ∉ str) : cStr str = str := by
  rw [cStr, List.takeWhile_eq_self_iff]
  intro ch member
  simpa using ne_of_mem_of_not_mem member nulFree

/-- A byte is found exactly at the end of the longest stretch that avoids it. -/
theorem find_some {str : Bytes} {ch : UInt8} {pos found : Nat}
    (hit : find str ch pos = some found) :
    ∃ skipped rest, str.drop pos = skipped ++ ch :: rest ∧ ch ∉ skipped ∧
      found = pos + skipped.length ∧ str.drop found = ch :: rest := by
  simp only [find, Option.map_eq_some_iff] at hit
  obtain ⟨offset, located, rfl⟩ := hit
  obtain ⟨inside, same, earlier⟩ := List.idxOf?_eq_some_iff.mp located
  have atOffset : (str.drop pos).drop offset = ch :: (str.drop pos).drop (offset + 1) := by
    rw [List.drop_eq_getElem_cons inside, same]
  refine ⟨(str.drop pos).take offset, (str.drop pos).drop (offset + 1), ?_, ?_, ?_, ?_⟩
  · rw [← atOffset, List.take_append_drop]
  · intro present
    obtain ⟨index, bound, equal⟩ := List.getElem_of_mem present
    have before : index < offset := by
      simp only [List.length_take] at bound
      omega
    exact earlier index before (by simpa only [List.getElem_take] using equal)
  · simp only [List.length_take]
    omega
  · rw [← atOffset, List.drop_drop]

/-- A byte that is not found does not occur at or after the position. -/
theorem find_none {str : Bytes} {ch : UInt8} {pos : Nat} (miss : find str ch pos = none) :
    ch ∉ str.drop pos := by
  simpa only [find, Option.map_eq_none_iff, List.idxOf?_eq_none_iff] using miss

/-- A search may start one byte later when another byte stands at its position. -/
theorem find_next {str : Bytes} {ch : UInt8} {pos : Nat} (other : str[pos]? ≠ some ch) :
    find str ch pos = find str ch (pos + 1) := by
  simp only [find, ← List.drop_drop]
  rw [← Nat.add_zero pos, ← List.getElem?_drop] at other
  cases here : str.drop pos with
  | nil => rfl
  | cons head tail =>
    have different : (head == ch) = false := by simpa [here] using other
    simp only [List.idxOf?_cons, different, Bool.false_eq_true, ↓reduceIte, List.drop_succ_cons,
      List.drop_zero, Option.map_map]
    congr 1
    funext index
    simp only [Function.comp_apply]
    omega

/-- A search may start later when the byte does not stand before. -/
theorem find_skip {str : Bytes} {ch : UInt8} {pos : Nat} (distance : Nat)
    (absent : ∀ index, pos ≤ index → index < pos + distance → str[index]? ≠ some ch) :
    find str ch pos = find str ch (pos + distance) := by
  induction distance with
  | zero => rfl
  | succ distance inductionHypothesis =>
    rw [inductionHypothesis fun index after before => absent index after (by omega)]
    exact find_next (absent (pos + distance) (by omega) (by omega))

end Bytes

/-- What is found in a list of pairs stands in it. -/
theorem mem_of_lookup {α β : Type*} [BEq α] [LawfulBEq α] {entries : List (α × β)} {key : α} {value : β}
    (found : entries.lookup key = some value) : (key, value) ∈ entries := by
  obtain ⟨before, after, split, _⟩ := List.lookup_eq_some_iff.mp found
  rw [split]
  exact List.mem_append_right before List.mem_cons_self

/-- An element of joined segments is the separator or stands in one of the segments. -/
theorem mem_intercalate {α : Type*} {separator element : α} {segments : List (List α)}
    (present : element ∈ [separator].intercalate segments) :
    element = separator ∨ ∃ segment ∈ segments, element ∈ segment := by
  induction segments with
  | nil => cases present
  | cons segment segments inductionHypothesis =>
    cases segments with
    | nil =>
      rw [List.intercalate_singleton] at present
      exact Or.inr ⟨segment, List.mem_cons_self, present⟩
    | cons next segments =>
      rw [List.intercalate_cons_cons, List.append_assoc, List.mem_append, List.mem_append,
        List.mem_singleton] at present
      obtain here | same | later := present
      · exact Or.inr ⟨segment, List.mem_cons_self, here⟩
      · exact Or.inl same
      · obtain same | ⟨found, member, inside⟩ := inductionHypothesis later
        · exact Or.inl same
        · exact Or.inr ⟨found, List.mem_cons_of_mem segment member, inside⟩

end CppInterpreter
