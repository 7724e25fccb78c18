import CppInterpreter.Popen
import CppInterpreter.QuotedWords
import CppInterpreter.StateFiles
import Mathlib.Order.Filter.AtTopBot.Basic

/-!
# The commands of a comparison

`compare` hands pairs of temporary files to `diff`, through a shell, and logs what `diff`
prints. The patterns for lines to ignore are quoted in the command, the file names are not.

If the names in the command are plain enough, the shell splits it into the words that are
meant, and a dump is reported exactly when `diff` finds a difference. The shell and `diff` are
parameters, with what their documentation says about them. The output is read with enough
fuel.
-/

namespace CppInterpreter.ClangInternalState

open Bytes QuotedWords

/-- The characters of a shell command. Characters that start an expansion or another
construct are special, wherever they stand; some of them are active within double quotes. -/
def posix : Roles UInt8 where
  blank ch := ch = ' '.toUInt8 || ch = '\t'.toUInt8
  quote := '"'.toUInt8
  special ch := ch = 0 || (text "|&;<>()$`\\'*?[#~\n").contains ch
  active ch := ch = 0 || (text "$`\\").contains ch

/-- What is appended for a pattern. -/
def ignoreOption (ignore : Bytes) : Bytes :=
  text " --ignore-matching-lines=\".*" ++ ignore ++ text ".*\""

/-- The command. There may be no list of patterns at all. -/
def diffCall (ignores : Option (List Bytes)) (file1 file2 : Bytes) : Bytes :=
  text "diff -u --text " ++ (ignores.getD []).flatMap ignoreOption ++ text " " ++ file1 ++
    text " " ++ file2

/-- The regular expressions for lines to ignore. -/
def patterns (ignores : Option (List Bytes)) : List Bytes :=
  (ignores.getD []).map fun ignore => text ".*" ++ ignore ++ text ".*"

/-- The arguments that `diff` shall get. -/
def diffArguments (patterns : List Bytes) (file1 file2 : Bytes) : List Bytes :=
  [text "-u", text "--text"] ++ patterns.map (text "--ignore-matching-lines=" ++ ·) ++ [file1, file2]

/-- A file name that the shell takes as it is, and `diff` for a file. -/
def PlainPath (path : Bytes) : Prop := path.head? = some '/'.toUInt8 ∧ Bare posix path

/-- A pattern that the shell takes as it is within quotes. -/
def PlainPattern (ignore : Bytes) : Prop := Quotable posix ignore

instance (ignore : Bytes) : Decidable (PlainPattern ignore) :=
  inferInstanceAs (Decidable (∀ ch ∈ ignore, ch ≠ posix.quote ∧ posix.active ch = false))

/-- A bare word with a blank in front of it. -/
def bareEntry (word : Bytes) : Entry UInt8 := ⟨text " ", [.bare word]⟩

/-- An option with a quoted pattern. -/
def optionEntry (ignore : Bytes) : Entry UInt8 :=
  ⟨text " ", [.bare (text "--ignore-matching-lines="), .quoted (text ".*" ++ ignore ++ text ".*")]⟩

/-- The names of builtin functions, those of the language in the order of their numbers, and
those of the target. -/
structure Builtins where
  names : List Bytes
  target : List Bytes

/-- `builtinNames`. -/
def Builtins.ignored (builtins : Builtins) : List Bytes :=
  builtins.names.filter (startswith · (text "__builtin")) ++
    builtins.target.filter (!startswith · (text "__builtin")) ++ [text ".*__builtin.*"]

/-- `llvm::Function`, as far as it is read. -/
structure Function where
  name : Bytes
  isIntrinsic : Bool
deriving DecidableEq, Repr

/-- The intrinsics of a module. -/
def intrinsics (functions : List Function) : List Bytes :=
  (functions.filter Function.isIntrinsic).map Function.name

/-- The comparisons of two states with the patterns that are ignored in each. -/
def checks (builtins : Builtins) (functions : List Function) (hasModule : Bool)
    (mine current : Files) : List (Comparison × Option (List Bytes)) :=
  [(⟨mine.lookupTables, current.lookupTables, text "lookup tables"⟩, some builtins.ignored),
    (⟨mine.included, current.included, text "included files"⟩, some [text "input_line_[0-9].*"]),
    (⟨mine.ast, current.ast, text "AST"⟩, none)] ++
  (if hasModule then
    [(⟨mine.llvmModule, current.llvmModule, text "llvm Module"⟩, some (intrinsics functions))]
  else []) ++
  [(⟨mine.macros, current.macros, text "Macro Definitions"⟩, none)]

/-- What is logged. -/
inductive LogEntry where
  | call (diffCall : Bytes)
  | differences (type difs : Bytes)
deriving DecidableEq, Repr

/-- The text of an entry. -/
def LogEntry.written : LogEntry → Bytes
  | .call diffCall => diffCall ++ text "\n"
  | .differences type difs => text "Differences in the " ++ type ++ text ":\n" ++ difs ++ text "\n"

/-- The dump that an entry reports. -/
def LogEntry.type? : LogEntry → Option Bytes
  | .call _ => none
  | .differences type _ => some type

inductive Failure where
  | file (fault : Fault)
  | overrun (fault : Popen.Overrun)
  | unfinished
deriving DecidableEq, Repr

section Comparing

variable (growth : Popen.Growth) (shell : Bytes → Option Bytes) (fuel : Nat) (verbose : Bool)

/-- `differentContent`, with what it logs. -/
def differentContent (comparison : Comparison) (ignores : Option (List Bytes)) :
    Except Failure (Bool × List LogEntry) :=
  let call := diffCall ignores comparison.file1 comparison.file2
  match Popen.popen growth shell fuel call (Popen.inlineStorage 1024) false with
  | none => .error .unfinished
  | some (.error fault) => .error (.overrun fault)
  | some (.ok (_, difs)) =>
    let calls := if verbose then [.call call] else []
    if difs.elements = [] then .ok (false, calls)
    else .ok (true, calls ++ [.differences comparison.type difs.elements])

/-- What the calls of `differentContent` by `compare` log. Their results are not used. -/
def logChecks : List (Comparison × Option (List Bytes)) → Except Failure (List LogEntry)
  | [] => .ok []
  | (comparison, ignores) :: rest => do
    let (_, logged) ← differentContent growth shell fuel verbose comparison ignores
    let more ← logChecks rest
    return logged ++ more

end Comparing

/-- The program `diff`. It prints something about two absolute paths with contents exactly when the
contents differ under the patterns for lines to ignore. Equal contents do not differ, and
without patterns different ones do. -/
structure Diff where
  output : (Bytes → Option Bytes) → List Bytes → Bytes
  differs : List Bytes → Bytes → Bytes → Bool
  speaks : ∀ (disk : Bytes → Option Bytes) (patterns : List Bytes) (file1 file2 before after : Bytes),
    file1.head? = some '/'.toUInt8 → file2.head? = some '/'.toUInt8 →
    disk file1 = some before → disk file2 = some after →
    (output disk (diffArguments patterns file1 file2) ≠ [] ↔ differs patterns before after = true)
  same : ∀ patterns content, differs patterns content content = false
  different : ∀ before after, before ≠ after → differs [] before after = true

/-- The shell runs `diff` with the words of a plain line. -/
def Runs (shell : (Bytes → Option Bytes) → Bytes → Option Bytes) (diff : Diff) : Prop :=
  ∀ disk line args, words posix line = some (text "diff" :: args) →
    shell disk line = some (diff.output disk args)

section Command

variable {ignores : Option (List Bytes)} {file1 file2 : Bytes}

/-- The blank in front of a word separates. -/
theorem blank_separates : ∀ ch ∈ text " ", posix.blank ch = true ∧ ch ≠ posix.quote := by decide +kernel

/-- A bare word is a valid entry. -/
theorem bareEntry_valid {word : Bytes} (present : word ≠ []) (bare : Bare posix word) :
    (bareEntry word).Valid posix where
  blanks := blank_separates
  present := by simp [bareEntry]
  pieces := by simpa [bareEntry, Piece.Valid] using ⟨present, bare⟩

/-- An option with a plain pattern is a valid entry. -/
theorem optionEntry_valid {ignore : Bytes} (plain : PlainPattern ignore) :
    (optionEntry ignore).Valid posix where
  blanks := blank_separates
  present := by simp [optionEntry]
  pieces := by
    have dots : PlainPattern (text ".*") := by decide +kernel
    have bare : ∀ ch ∈ text "--ignore-matching-lines=",
        ch ≠ posix.quote ∧ posix.blank ch = false ∧ posix.special ch = false := by
      decide +kernel
    refine List.forall_mem_cons.mpr ⟨⟨by decide +kernel, bare⟩, List.forall_mem_singleton.mpr ?_⟩
    exact List.forall_mem_append.mpr ⟨List.forall_mem_append.mpr ⟨dots, plain⟩, dots⟩

/-- The command is the name of the program and a written line behind it. -/
theorem diffCall_written (ignores : Option (List Bytes)) (file1 file2 : Bytes) :
    diffCall ignores file1 file2 =
      writtenLine posix [⟨[], [.bare (text "diff")]⟩, bareEntry (text "-u"), bareEntry (text "--text")] ++
        ' '.toUInt8 :: writtenLine posix
          ((ignores.getD []).map optionEntry ++ [bareEntry file1, bareEntry file2]) := by
  have option : ∀ ignore, (optionEntry ignore).blanks ++ writtenWord posix (optionEntry ignore).pieces =
      ignoreOption ignore := by
    intro ignore
    simp [optionEntry, ignoreOption, writtenWord, Piece.written, posix, text]
  have files : (bareEntry file1).blanks ++ writtenWord posix (bareEntry file1).pieces ++
      ((bareEntry file2).blanks ++ writtenWord posix (bareEntry file2).pieces) =
      text " " ++ file1 ++ text " " ++ file2 := by
    simp [bareEntry, writtenWord, Piece.written]
  have options : ((ignores.getD []).map optionEntry).flatMap
      (fun entry => entry.blanks ++ writtenWord posix entry.pieces) =
      (ignores.getD []).flatMap ignoreOption := by
    rw [List.flatMap_map]
    exact List.flatMap_congr fun ignore _ => option ignore
  rw [writtenLine, writtenLine, List.flatMap_append, options, diffCall]
  simp only [List.flatMap_cons, List.flatMap_nil, List.append_nil, files]
  simp [bareEntry, writtenWord, Piece.written, text]

/-- The shell gets exactly the words that are meant. -/
theorem diffCall_words (plain : ∀ ignore ∈ ignores.getD [], PlainPattern ignore)
    (first : PlainPath file1) (second : PlainPath file2) :
    words posix (diffCall ignores file1 file2) =
      some (text "diff" :: diffArguments (patterns ignores) file1 file2) := by
  have present : ∀ path, PlainPath path → path ≠ [] := by
    rintro path ⟨absolute, _⟩ rfl
    cases absolute
  have literal : ∀ word ∈ [text "diff", text "-u", text "--text"], word ≠ [] ∧ ∀ ch ∈ word,
      ch ≠ posix.quote ∧ posix.blank ch = false ∧ posix.special ch = false := by
    decide +kernel
  have options : ∀ word ∈ [text "-u", text "--text"], (bareEntry word).Valid posix := by
    intro word member
    obtain ⟨nonempty, bare⟩ := literal word (List.mem_cons_of_mem _ member)
    exact bareEntry_valid nonempty bare
  have program : (⟨[], [.bare (text "diff")]⟩ : Entry UInt8).Valid posix := by
    refine ⟨by simp, by simp, List.forall_mem_singleton.mpr ?_⟩
    exact literal _ List.mem_cons_self
  have valid : ∀ entry ∈ (ignores.getD []).map optionEntry ++ [bareEntry file1, bareEntry file2],
      entry.Valid posix := by
    refine List.forall_mem_append.mpr ⟨List.forall_mem_map.mpr ?_, ?_⟩
    · exact fun ignore member => optionEntry_valid (plain ignore member)
    · simpa using ⟨bareEntry_valid (present _ first) first.2, bareEntry_valid (present _ second) second.2⟩
  have apart : ∀ entry ∈ (ignores.getD []).map optionEntry ++ [bareEntry file1, bareEntry file2],
      entry.blanks ≠ [] := by
    refine List.forall_mem_append.mpr ⟨List.forall_mem_map.mpr ?_, ?_⟩ <;>
      simp [optionEntry, bareEntry, text]
  rw [diffCall_written, words_written_append, words_blank, words_written valid]
  · simp [wordValue, Piece.value, bareEntry, optionEntry, diffArguments, patterns, text]
  · exact fun entry member => apart entry (List.mem_of_mem_tail member)
  · decide +kernel
  · decide +kernel
  · simpa using ⟨program, options (text "-u") (by simp), options (text "--text") (by simp)⟩
  · simp [bareEntry, text]
  · simpa using blank_separates ' '.toUInt8 (by decide +kernel)

/-- No NUL ends the command early. -/
theorem diffCall_whole (plain : ∀ ignore ∈ ignores.getD [], PlainPattern ignore)
    (first : PlainPath file1) (second : PlainPath file2) :
    Popen.command (diffCall ignores file1 file2) false = diffCall ignores file1 file2 := by
  have path : ∀ path, PlainPath path → 0 ∉ path := by
    intro path plain member
    have special := (plain.2 0 member).2.2
    simp [posix] at special
  have pattern : ∀ ignore ∈ ignores.getD [], 0 ∉ ignore := by
    intro ignore member zero
    have active := (plain ignore member 0 zero).2
    simp [posix] at active
  have option : 0 ∉ (ignores.getD []).flatMap ignoreOption := by
    intro member
    obtain ⟨ignore, listed, inside⟩ := List.mem_flatMap.mp member
    have literals : 0 ∉ text " --ignore-matching-lines=\".*" ∧ 0 ∉ text ".*\"" := by decide +kernel
    simp [ignoreOption, literals, pattern ignore listed] at inside
  have literals : 0 ∉ text "diff -u --text " ∧ 0 ∉ text " " := by decide +kernel
  have nulFree : 0 ∉ diffCall ignores file1 file2 := by
    simp [diffCall, literals, option, path _ first, path _ second]
  rw [Popen.command, if_neg (by decide), cStr_nulFree nulFree]

end Command

/-- With enough fuel a buffer with a capacity gets the output. -/
theorem popen_eventually (growth : Popen.Growth) {shell : Bytes → Option Bytes} {cmd output : Bytes}
    {rdE : Bool} (opened : shell (Popen.command cmd rdE) = some output) {buf : Popen.SmallVector}
    (positive : 0 < buf.capacity) : ∃ after : Popen.SmallVector, after.elements = output ∧
      ∀ᶠ fuel in Filter.atTop, Popen.popen growth shell fuel cmd buf rdE =
        some (.ok (decide (output ≠ []), after)) := by
  obtain ⟨fuel, after, returned, elements⟩ : Popen.ReadsAll growth shell cmd buf rdE output :=
    Popen.popen_reads opened positive
  refine ⟨after, elements, Filter.eventually_atTop.mpr ⟨fuel, fun more enough => ?_⟩⟩
  simp only [Popen.popen, opened, Option.map_eq_some_iff] at returned ⊢
  obtain ⟨left, finished, same⟩ := returned
  exact ⟨left, Loops.run_mono finished enough, same⟩

section Reports

variable {shell : (Bytes → Option Bytes) → Bytes → Option Bytes} {diff : Diff}
  {disk : Bytes → Option Bytes} {before after : Bytes} (runs : Runs shell diff)
  (growth : Popen.Growth)

/-- A pair of files is ready: the names are plain, and both files exist. -/
structure Ready (disk : Bytes → Option Bytes) (check : Comparison × Option (List Bytes))
    (before after : Bytes) : Prop where
  patterns : ∀ ignore ∈ check.2.getD [], PlainPattern ignore
  first : PlainPath check.1.file1
  second : PlainPath check.1.file2
  before : disk check.1.file1 = some before
  after : disk check.1.file2 = some after

include runs

/-- With enough fuel a comparison logs the differences exactly when there are some. -/
theorem differentContent_eventually {comparison : Comparison} {ignores : Option (List Bytes)}
    (ready : Ready disk (comparison, ignores) before after) (verbose : Bool) : ∃ logged,
      (∀ᶠ fuel in Filter.atTop, differentContent growth (shell disk) fuel verbose comparison ignores =
        .ok (diff.differs (patterns ignores) before after, logged)) ∧
      logged.filterMap LogEntry.type? =
        if diff.differs (patterns ignores) before after then [comparison.type] else [] := by
  have speaks := diff.speaks disk (patterns ignores) _ _ _ _ ready.first.1 ready.second.1
    ready.before ready.after
  have opened := runs disk _ _ (diffCall_words ready.patterns ready.first ready.second)
  dsimp only at opened
  rw [← diffCall_whole ready.patterns ready.first ready.second] at opened
  have capacity : 0 < (Popen.inlineStorage 1024).capacity := by decide +kernel
  obtain ⟨difs, elements, reads⟩ := popen_eventually growth opened capacity
  refine ⟨(if verbose then [.call (diffCall ignores comparison.file1 comparison.file2)] else []) ++
    if diff.differs (patterns ignores) before after then [.differences comparison.type difs.elements]
    else [], ?_, ?_⟩
  · filter_upwards [reads] with fuel read
    simp only [differentContent, read, elements]
    by_cases silent : diff.output disk (diffArguments (patterns ignores) comparison.file1
        comparison.file2) = []
    · have alike := speaks.not.mp (not_not.mpr silent)
      simp [silent, alike]
    · simp [silent, speaks.mp silent]
  · cases verbose <;> cases diff.differs (patterns ignores) before after <;> rfl

/-- With enough fuel the comparisons report exactly the texts that differ. -/
theorem logChecks_eventually (verbose : Bool) {checks : List (Comparison × Option (List Bytes))}
    (contents : Bytes → Bytes)
    (ready : ∀ check ∈ checks, Ready disk check (contents check.1.file1) (contents check.1.file2)) :
    ∃ logged,
      (∀ᶠ fuel in Filter.atTop, logChecks growth (shell disk) fuel verbose checks = .ok logged) ∧
      logged.filterMap LogEntry.type? = (checks.filter fun check =>
        diff.differs (patterns check.2) (contents check.1.file1) (contents check.1.file2)).map
          fun check => check.1.type := by
  induction checks with
  | nil => exact ⟨[], by simp [logChecks], rfl⟩
  | cons check rest inductionHypothesis =>
    obtain ⟨comparison, ignores⟩ := check
    obtain ⟨here, others⟩ := List.forall_mem_cons.mp ready
    obtain ⟨first, compared, firstTypes⟩ := differentContent_eventually runs growth here verbose
    obtain ⟨more, later, moreTypes⟩ := inductionHypothesis others
    refine ⟨first ++ more, ?_, ?_⟩
    · filter_upwards [compared, later] with fuel one two
      simp [logChecks, one, two, bind, Except.bind, pure, Except.pure]
    · rw [List.filterMap_append, firstTypes, moreTypes, List.filter_cons]
      split <;> simp

end Reports

end CppInterpreter.ClangInternalState
