import CppInterpreter.Strings
import Mathlib.Data.List.Infix
import Mathlib.Data.List.Sort

/-!
# The dump of the included files

The source manager maps file entries to content caches, in an order that changes when
a cache is invalidated. The dump skips the entries that have lost their cache, the
standard input and the internal headers of the standard library. It lists the others
under two headings: those whose buffer is loaded are parsed, the rest comes from a
precompiled file. Each list is sorted after it has been collected, so the text depends
on the entries alone.
-/

namespace CppInterpreter.ClangInternalState

open Bytes

/-- `clang::SrcMgr::ContentCache`: the contents of a file, once they have been loaded. -/
structure ContentCache where
  getBufferDataIfLoaded : Option Bytes
deriving DecidableEq, Repr

/-- What a `fileinfo_iterator` points to: a file entry by its name, and its content
cache. Error recovery clears the cache but keeps the entry. -/
structure FileInfo where
  name : Bytes
  contentCache : Option ContentCache
deriving DecidableEq, Repr

/-- The names that are not printed: `compare` looks at five bytes at most, and `find` finds
an occurrence anywhere. -/
def isSkipped (fileName : Bytes) : Bool :=
  (substr fileName 0 5 = text "/usr/" && text "/bits/" <:+: fileName) || fileName = text "-"

/-- The loop of `printIncludedFiles` with its two vectors, `Parsed` and `AST`. -/
def collect : List FileInfo → List Bytes → List Bytes → List Bytes × List Bytes
  | [], parsed, ast => (parsed, ast)
  | info :: rest, parsed, ast =>
    match info.contentCache with
    | none => collect rest parsed ast
    | some cache =>
      if !isSkipped info.name then
        if cache.getBufferDataIfLoaded.isSome then collect rest (parsed ++ [info.name]) ast
        else collect rest parsed (ast ++ [info.name])
      else collect rest parsed ast

/-- `std::sort` of strings, which compare as sequences of unsigned bytes. -/
def sort (files : List Bytes) : List Bytes := files.insertionSort (· ≤ ·)

/-- A heading with a line for each file. -/
def listing (what : Bytes) (files : List Bytes) : Bytes :=
  what ++ text ":\n" ++ files.flatMap fun fileName => text " " ++ fileName ++ text "\n"

/-- `DumpFiles`: nothing is printed for an empty vector. -/
def dumpFiles (what : Bytes) (files : List Bytes) : Bytes :=
  if files.isEmpty then [] else listing what (sort files)

/-- The text that `printIncludedFiles` writes when the entries are enumerated in the
given order. -/
def printIncludedFiles (infos : List FileInfo) : Bytes :=
  let (parsed, ast) := collect infos [] []
  dumpFiles (text "Parsed") parsed ++ dumpFiles (text "From AST file") ast

/-- An entry that the dump lists. -/
def FileInfo.Listed (info : FileInfo) : Prop :=
  info.contentCache ≠ none ∧ info.name ≠ text "-" ∧
    ¬ (text "/usr/" <+: info.name ∧ text "/bits/" <:+: info.name)

instance (info : FileInfo) : Decidable info.Listed := inferInstanceAs (Decidable (_ ∧ _ ∧ ¬ _))

/-- The contents of the file are in memory. -/
def FileInfo.isLoaded (info : FileInfo) : Bool :=
  info.contentCache.any (·.getBufferDataIfLoaded.isSome)

/-- The names of the listed entries whose buffer is loaded, or is not, in the order of
enumeration. -/
def listedNames (loaded : Bool) (infos : List FileInfo) : List Bytes :=
  (infos.filter fun info => info.Listed && info.isLoaded = loaded).map (·.name)

/-- The first five bytes agree with a text of five bytes exactly when it begins the name. -/
theorem substr_usr (fileName : Bytes) :
    substr fileName 0 5 = text "/usr/" ↔ text "/usr/" <+: fileName := by
  rw [List.prefix_iff_eq_take, eq_comm]
  rfl

/-- Of the entries with a cache exactly those with a skipped name are not listed. -/
theorem listed_iff {info : FileInfo} {cache : ContentCache} (cached : info.contentCache = some cache) :
    info.Listed ↔ isSkipped info.name = false := by
  simp only [FileInfo.Listed, isSkipped, cached, substr_usr, Bool.or_eq_false_iff,
    Bool.and_eq_false_imp, decide_eq_true_eq, decide_eq_false_iff_not, not_and, ne_eq,
    reduceCtorEq, not_false_eq_true, true_and]
  exact and_comm

/-- The loop appends each listed name to one of its vectors. -/
theorem collect_eq (infos : List FileInfo) (parsed ast : List Bytes) : collect infos parsed ast =
    (parsed ++ listedNames true infos, ast ++ listedNames false infos) := by
  induction infos generalizing parsed ast with
  | nil => simp [collect, listedNames]
  | cons info rest inductionHypothesis =>
    cases cached : info.contentCache with
    | none =>
      have unlisted : ¬ info.Listed := by simp [FileInfo.Listed, cached]
      simp [collect, cached, inductionHypothesis, listedNames, unlisted]
    | some cache =>
      have loaded : info.isLoaded = cache.getBufferDataIfLoaded.isSome := by
        simp [FileInfo.isLoaded, cached]
      cases skipped : isSkipped info.name with
      | true =>
        have unlisted : ¬ info.Listed := by simp [listed_iff cached, skipped]
        simp [collect, cached, skipped, inductionHypothesis, listedNames, unlisted]
      | false =>
        have listed : info.Listed := (listed_iff cached).mpr skipped
        cases buffer : cache.getBufferDataIfLoaded with
        | none => simp [collect, cached, skipped, buffer, inductionHypothesis, listedNames, listed, loaded]
        | some contents =>
          simp [collect, cached, skipped, buffer, inductionHypothesis, listedNames, listed, loaded]

/-- Sorting neither adds nor drops a name. -/
theorem sort_perm (files : List Bytes) : (sort files).Perm files := List.perm_insertionSort ..

/-- Sorted names ascend. -/
theorem sort_ascends (files : List Bytes) : (sort files).Pairwise (· ≤ ·) :=
  List.pairwise_insertionSort (· ≤ ·) files

/-- Sorting forgets the order before. -/
theorem sort_eq {files others : List Bytes} (same : files.Perm others) : sort files = sort others := by
  apply List.Perm.eq_of_pairwise' (sort_ascends files) (sort_ascends others)
  exact (sort_perm files).trans (same.trans (sort_perm others).symm)

/-- A vector is dumped alike in any order. -/
theorem dumpFiles_eq (what : Bytes) {files others : List Bytes} (same : files.Perm others) :
    dumpFiles what files = dumpFiles what others := by
  have empty : files.isEmpty = others.isEmpty := by
    rw [Bool.eq_iff_iff, List.isEmpty_iff_length_eq_zero, same.length_eq, List.isEmpty_iff_length_eq_zero]
  rw [dumpFiles, dumpFiles, sort_eq same, empty]

/-- The names under either heading come from the entries in any order. -/
theorem listedNames_perm (loaded : Bool) {infos others : List FileInfo} (same : infos.Perm others) :
    (listedNames loaded infos).Perm (listedNames loaded others) :=
  (same.filter _).map _

/-- Every listed entry has one of the two headings. -/
theorem listedNames_append (infos : List FileInfo) :
    (listedNames true infos ++ listedNames false infos).Perm
      ((infos.filter fun info => info.Listed).map (·.name)) := by
  have loaded : infos.filter (fun info => info.Listed && info.isLoaded = true) =
      (infos.filter fun info => info.Listed).filter (·.isLoaded) := by
    simp [List.filter_filter, Bool.and_comm]
  have unloaded : infos.filter (fun info => info.Listed && info.isLoaded = false) =
      (infos.filter fun info => info.Listed).filter (!·.isLoaded) := by
    simp [List.filter_filter, Bool.and_comm]
  rw [listedNames, listedNames, loaded, unloaded, ← List.map_append]
  exact (List.filter_append_perm FileInfo.isLoaded _).map _

/-- A dumped vector is a listing of its sorted names, or nothing. -/
theorem dumpFiles_sorted (what : Bytes) (files : List Bytes) :
    dumpFiles what files = if sort files = [] then [] else listing what (sort files) := by
  have empty : sort files = [] ↔ files = [] := by
    rw [← List.length_eq_zero_iff, (sort_perm files).length_eq, List.length_eq_zero_iff]
  simp [dumpFiles, empty]

/-- The dump does not depend on the order of enumeration. It consists of two sorted
listings, in which every listed entry occurs once: under the first heading if its buffer
is loaded, under the second if not. -/
theorem dump_order_independent (infos others : List FileInfo) (same : infos.Perm others) :
    printIncludedFiles infos = printIncludedFiles others ∧
    ∃ parsed ast : List Bytes,
      printIncludedFiles infos =
        (if parsed = [] then [] else listing (text "Parsed") parsed) ++
          (if ast = [] then [] else listing (text "From AST file") ast) ∧
      parsed.Pairwise (· ≤ ·) ∧ ast.Pairwise (· ≤ ·) ∧
      parsed.Perm (listedNames true infos) ∧ ast.Perm (listedNames false infos) ∧
      (parsed ++ ast).Perm ((infos.filter fun info => info.Listed).map (·.name)) := by
  constructor
  · simp only [printIncludedFiles, collect_eq, List.nil_append]
    rw [dumpFiles_eq (text "Parsed") (listedNames_perm true same),
      dumpFiles_eq (text "From AST file") (listedNames_perm false same)]
  · have parsed := sort_perm (listedNames true infos)
    have ast := sort_perm (listedNames false infos)
    refine ⟨sort (listedNames true infos), sort (listedNames false infos), ?_, sort_ascends _,
      sort_ascends _, parsed, ast, (parsed.append ast).trans (listedNames_append infos)⟩
    rw [← dumpFiles_sorted, ← dumpFiles_sorted, printIncludedFiles, collect_eq]
    rfl

/-- A header that the parser has read. -/
def parsedHeader : FileInfo := ⟨text "/src/b.h", some ⟨some (text "int b;")⟩⟩

/-- A header that is known from a precompiled file only. -/
def importedHeader : FileInfo := ⟨text "/src/a.h", some ⟨none⟩⟩

example : printIncludedFiles [parsedHeader, ⟨text "-", some ⟨none⟩⟩, importedHeader, parsedHeader] =
    text "Parsed:\n /src/b.h\n /src/b.h\nFrom AST file:\n /src/a.h\n" := by
  decide

/-- Two headers in either order. -/
theorem dump_two_headers :
    printIncludedFiles [parsedHeader, importedHeader] = printIncludedFiles [importedHeader, parsedHeader] ∧
    ∃ parsed ast : List Bytes,
      printIncludedFiles [parsedHeader, importedHeader] =
        (if parsed = [] then [] else listing (text "Parsed") parsed) ++
          (if ast = [] then [] else listing (text "From AST file") ast) ∧
      parsed.Pairwise (· ≤ ·) ∧ ast.Pairwise (· ≤ ·) ∧
      parsed.Perm (listedNames true [parsedHeader, importedHeader]) ∧
      ast.Perm (listedNames false [parsedHeader, importedHeader]) ∧
      (parsed ++ ast).Perm
        (([parsedHeader, importedHeader].filter fun info => info.Listed).map (·.name)) :=
  dump_order_independent [parsedHeader, importedHeader] [importedHeader, parsedHeader]
    (List.Perm.swap importedHeader parsedHeader [])

end CppInterpreter.ClangInternalState
