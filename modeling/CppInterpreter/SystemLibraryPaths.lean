import CppInterpreter.Popen
import CppInterpreter.SplitPaths

/-!
# The system library path

`GetSystemLibraryPaths` runs a command under a loader that reports its search paths, and
looks for the path in the report. It starts at the first mention of `LD_LIBRARY_PATH` as a
source, or at the front if there is none, and takes what stands between the next search
path and the next mention of the system search path, without white space.

A report is a list of lines. Nothing ties the two ends of what is taken to one line, and
the main result says for which reports they belong to the line of the system.
-/

namespace CppInterpreter.SystemLibraryPaths

open Bytes DelimiterSplit Popen SplitPaths

/-- `isspace`, for plain ASCII. -/
def isspace (ch : UInt8) : Bool := ch = ' '.toUInt8 || (9 ≤ ch && ch ≤ 13)

/-- `llvm::StringRef::find` for a string. -/
def findStr (needle : Delimiter UInt8) (str : Bytes) (pos : Nat) : Option Nat :=
  (cut needle (str.drop pos)).map fun halves => pos + halves.1.length

/-- The strings that are looked for. -/
def ldLibraryPath : Delimiter UInt8 := ⟨text "(LD_LIBRARY_PATH)", by decide⟩

def searchPath : Delimiter UInt8 := ⟨text "search path=", by decide⟩

def systemSearchPath : Delimiter UInt8 := ⟨text "(system search path)", by decide⟩

/-- The loop that moves `To` back over white space, but not in front of `From`. -/
def trimmed (result : Bytes) (start : Nat) : Nat → Nat
  | 0 => 0
  | stop + 1 =>
    if start < stop + 1 && (result[stop]?).any isspace then trimmed result start stop else stop + 1

/-- The value of `SysPath`, if the report has one. -/
def sysPath (result : Bytes) : Option Bytes :=
  let ld := findStr ldLibraryPath result 0
  match findStr searchPath result (ld.getD 0) with
  | none => none
  | some start =>
    match findStr systemSearchPath result start with
    | none => none
    | some stop =>
      let start := start + 12
      let stop := trimmed result start stop
      some ((substr result start (stop - start)).filter fun ch => !isspace ch)

/-- The command that lets the loader report. -/
def debugCommand : Bytes := text "LD_DEBUG=libs LD_PRELOAD=DOESNOTEXIST ls"

/-- `GetSystemLibraryPaths`, with what it returns and the paths that it leaves. -/
def getSystemLibraryPaths (growth : Growth) (shell : Bytes → Option Bytes)
    (isDirectory : Bytes → Bool) (fuel : Nat) (paths : List Bytes) :
    Option (Except Overrun (Bool × List Bytes)) :=
  match popen growth shell fuel debugCommand (inlineStorage 1024) true with
  | none => none
  | some (.error fault) => some (.error fault)
  | some (.ok (_, buf)) =>
    match sysPath buf.elements with
    | none => some (.ok (true, paths))
    | some sysPath =>
      (splitPaths isDirectory .kPruneNonExistant kEnvDelim false fuel sysPath []).map fun outcome =>
        .ok (true, paths ++ outcome.paths)

section Reports

def newline : UInt8 := '\n'.toUInt8

/-- A source in parentheses. -/
def bracketed (source : Bytes) : Bytes := text "(" ++ source ++ text ")"

/-- A line about a search path: `<pid>: search path=<dirs> (<source>)`. The loader pads the
process id, and puts white space of its own into the gaps. -/
structure SearchLine where
  pid : Bytes
  gap : Bytes
  dirs : List Bytes
  tabs : Bytes
  source : Bytes
  numeric : ∀ ch ∈ pid, ch = ' '.toUInt8 ∨ '0'.toUInt8 ≤ ch ∧ ch ≤ '9'.toUInt8
  blank : ∀ ch ∈ gap ++ tabs, isspace ch = true ∧ ch ≠ newline
  plain : ∀ dir ∈ dirs, ∀ ch ∈ dir,
    isspace ch = false ∧ ch ≠ ':'.toUInt8 ∧ ch ≠ '('.toUInt8 ∧ ch ≠ ')'.toUInt8
  sourced : ∀ ch ∈ source, ch ≠ newline ∧ ch ≠ '('.toUInt8 ∧ ch ≠ ')'.toUInt8

/-- A line with none of the strings that are looked for. -/
structure OtherLine where
  bytes : Bytes
  oneLine : newline ∉ bytes
  unmarked : ∀ marker ∈ [ldLibraryPath, searchPath, systemSearchPath], ¬ marker.text <:+: bytes

inductive Line where
  | search (line : SearchLine)
  | other (line : OtherLine)

/-- The directories, with colons between them. -/
def SearchLine.paths (line : SearchLine) : Bytes := (text ":").intercalate line.dirs

/-- What stands in front of the search path. -/
def SearchLine.front (line : SearchLine) : Bytes := line.pid ++ text ":" ++ line.gap

/-- What stands behind `search path=`. -/
def SearchLine.content (line : SearchLine) : Bytes := line.paths ++ line.tabs ++ bracketed line.source

def Line.bytes : Line → Bytes
  | .search line => line.front ++ searchPath.text ++ line.content
  | .other line => line.bytes

def Line.search? : Line → Option SearchLine
  | .search line => some line
  | .other _ => none

/-- The text of some lines, each with its end. -/
def render (lines : List Line) : Bytes := lines.flatMap fun line => line.bytes ++ [newline]

/-- The lines about search paths, in order. -/
def searches (lines : List Line) : List SearchLine := lines.filterMap Line.search?

/-- A report in which the last search path is that of the system, and the only one. -/
structure Report where
  lines : List Line
  others : List SearchLine
  system : SearchLine
  parts : searches lines = others ++ [system]
  named : system.source = text "system search path"
  single : ∀ line ∈ others, line.source ≠ text "system search path"

/-- The search path of the system is the first one, or the ones before it end with the first
that comes from `LD_LIBRARY_PATH`. -/
def Report.Selects (report : Report) : Prop :=
  report.others = [] ∨ ∃ front last, report.others = front ++ [last] ∧
    last.source = text "LD_LIBRARY_PATH" ∧ ∀ line ∈ front, line.source ≠ text "LD_LIBRARY_PATH"

end Reports

/-- Trimming takes away nothing but white space. -/
theorem trimmed_spaces (result : Bytes) (start stop : Nat) :
    (substr result start (trimmed result start stop - start)).filter (fun ch => !isspace ch) =
      (substr result start (stop - start)).filter fun ch => !isspace ch := by
  induction stop with
  | zero => rfl
  | succ stop inductionHypothesis =>
    rw [trimmed]
    split
    · next blank =>
      simp only [Bool.and_eq_true, decide_eq_true_eq] at blank
      obtain ⟨behind, space⟩ := blank
      have one : stop + 1 - start = (stop - start) + 1 := by omega
      have last : (result.drop start)[stop - start]? = result[stop]? := by
        rw [List.getElem?_drop]
        congr 1
        omega
      rw [inductionHypothesis, one, substr, substr, List.take_add_one, last, List.filter_append]
      cases read : result[stop]? with
      | none => simp
      | some ch =>
        have spaced : isspace ch = true := by simpa [read] using space
        simp [spaced]
    · rfl

/-- Where a search finds something, and what stands there. -/
theorem findStr_cut (needle : Delimiter UInt8) (str : Bytes) (pos : Nat) :
    (findStr needle str pos = none ∧ cut needle (str.drop pos) = none) ∨
      ∃ front back, findStr needle str pos = some (pos + front.length) ∧
        cut needle (str.drop pos) = some (front, back) ∧
        str.drop (pos + front.length) = needle.text ++ back := by
  cases found : cut needle (str.drop pos) with
  | none => exact Or.inl ⟨by rw [findStr, found, Option.map_none], rfl⟩
  | some halves =>
    refine Or.inr ⟨halves.1, halves.2, by rw [findStr, found, Option.map_some], rfl, ?_⟩
    have whole := cut_append found
    rw [← List.drop_drop, whole, List.append_assoc, List.drop_left]

/-- The part of a report that is searched. -/
def anchored (result : Bytes) : Bytes :=
  match cut ldLibraryPath result with
  | none => result
  | some (_, back) => ldLibraryPath.text ++ back

/-- The search for the path of the system passes over the start of a search path. -/
theorem cut_behind (rest : Bytes) :
    cut systemSearchPath (searchPath.text ++ rest) =
      (cut systemSearchPath rest).map fun halves => (searchPath.text ++ halves.1, halves.2) :=
  cut_past rfl (by decide) rest

/-- The value of `SysPath` in terms of cuts. -/
theorem sysPath_eq (result : Bytes) :
    sysPath result = ((cut searchPath (anchored result)).bind fun found =>
      cut systemSearchPath found.2).map fun taken => taken.1.filter fun ch => !isspace ch := by
  have start : result.drop ((findStr ldLibraryPath result 0).getD 0) = anchored result := by
    obtain ⟨missed, uncut⟩ | ⟨front, back, found, split, behind⟩ := findStr_cut ldLibraryPath result 0
    · rw [List.drop_zero] at uncut
      simp only [missed, Option.getD_none, List.drop_zero, anchored, uncut]
    · rw [List.drop_zero] at split
      simp only [found, Option.getD_some, behind, anchored, split]
  simp only [sysPath, ← start]
  obtain ⟨missed, uncut⟩ | ⟨front, back, found, split, behind⟩ :=
    findStr_cut searchPath result ((findStr ldLibraryPath result 0).getD 0)
  · simp [missed, uncut]
  · simp only [found, split, Option.bind_some]
    obtain ⟨missed, uncut⟩ | ⟨taken, rest, located, parted, _⟩ := findStr_cut systemSearchPath result
      ((findStr ldLibraryPath result 0).getD 0 + front.length)
    · rw [behind, cut_behind, Option.map_eq_none_iff] at uncut
      simp [missed, uncut]
    · rw [behind, cut_behind, Option.map_eq_some_iff] at parted
      obtain ⟨⟨inner, _⟩, parted, same⟩ := parted
      obtain ⟨rfl, rfl⟩ := Prod.mk.inj same
      have content : result.drop ((findStr ldLibraryPath result 0).getD 0 + front.length + 12) =
          back := by
        rw [← List.drop_drop, behind]
        change (searchPath.text ++ back).drop searchPath.text.length = back
        exact List.drop_left
      have size : (searchPath.text ++ inner).length = 12 + inner.length := List.length_append
      have distance : ∀ base, base + (12 + inner.length) - (base + 12) = inner.length := by omega
      have inside : back.take inner.length = inner := by
        rw [cut_append parted, List.append_assoc, List.take_left]
      simp only [located, parted, Option.map_some, trimmed_spaces]
      rw [substr, content, size, distance, inside]

/-- Names without parentheses in front of a text in parentheses are told apart by it. -/
theorem bracketed_unique {name source rest : Bytes} (closed : ')'.toUInt8 ∉ name)
    (sourced : ')'.toUInt8 ∉ source) (begins : bracketed name <+: bracketed source ++ rest) :
    name = source := by
  obtain ⟨others, same⟩ := begins
  have behind : name ++ ')'.toUInt8 :: others = source ++ ')'.toUInt8 :: rest := by
    simpa [bracketed, text] using same
  have closing : (⟨[')'.toUInt8], List.cons_ne_nil _ _⟩ : Delimiter UInt8).text = [')'.toUInt8] := rfl
  have cuts := congrArg (cut ⟨[')'.toUInt8], List.cons_ne_nil _ _⟩) behind
  rw [cut_first closing closed, cut_first closing sourced, Option.some.injEq, Prod.mk.injEq] at cuts
  exact cuts.1

section Lines

variable {line : SearchLine}

/-- In front of a search path there are only digits, colons and white space. -/
theorem not_mem_front {ch : UInt8}
    (other : (isspace ch || ('0'.toUInt8 ≤ ch && ch ≤ ':'.toUInt8)) = false) : ch ∉ line.front := by
  simp only [Bool.or_eq_false_iff] at other
  obtain ⟨unspaced, outside⟩ := other
  intro present
  simp only [SearchLine.front, List.mem_append] at present
  obtain (numbered | colon) | blank := present
  · obtain rfl | ⟨low, high⟩ := line.numeric ch numbered
    · exact absurd unspaced (by decide)
    · have within : ch ≤ ':'.toUInt8 := UInt8.le_trans high (by decide)
      simp [low, within] at outside
  · obtain rfl : ch = ':'.toUInt8 := List.mem_singleton.mp colon
    exact absurd outside (by decide)
  · have space := (line.blank ch (List.mem_append_left _ blank)).1
    rw [unspaced] at space
    cases space

/-- Directories and white space have no parentheses. -/
theorem open_not_mem_paths : '('.toUInt8 ∉ line.paths ++ line.tabs := by
  intro present
  rw [List.mem_append] at present
  obtain inside | blank := present
  · obtain colon | ⟨dir, member, within⟩ := mem_intercalate inside
    · exact absurd colon (by decide)
    · exact (line.plain dir member _ within).2.2.1 rfl
  · exact absurd (line.blank _ (List.mem_append_right _ blank)).1 (by decide)

/-- The text of a source line up to its source. -/
theorem open_not_mem_upTo : '('.toUInt8 ∉ line.front ++ searchPath.text ++ line.paths ++ line.tabs := by
  rw [List.append_assoc, List.mem_append, List.mem_append]
  rintro ((front | marker) | paths)
  · exact not_mem_front (by decide) front
  · exact absurd marker (by decide)
  · exact open_not_mem_paths paths

theorem search_bytes : (Line.search line).bytes =
    (line.front ++ searchPath.text ++ line.paths ++ line.tabs) ++ bracketed line.source := by
  simp only [Line.bytes, SearchLine.content, List.append_assoc]

/-- No source has a parenthesis. -/
theorem close_not_mem_source : ')'.toUInt8 ∉ line.source := fun present => (line.sourced _ present).2.2 rfl

/-- A line is cut at a marker for its own source. -/
theorem cut_source {marker : Delimiter UInt8} (spelled : marker.text = bracketed line.source)
    {rest front : Bytes} (unopened : '('.toUInt8 ∉ front) :
    cut marker (front ++ bracketed line.source ++ rest) = some (front, rest) := by
  have first : marker.text = '('.toUInt8 :: (line.source ++ text ")") := spelled
  rw [List.append_assoc, cut_past first unopened, ← spelled, cut_here]
  simp

/-- A line does not contain a marker for another source. -/
theorem other_source (marker : Delimiter UInt8) {name : Bytes} (spelled : marker.text = bracketed name)
    (closed : ')'.toUInt8 ∉ name) (other : line.source ≠ name) :
    ¬ marker.text <:+: (Line.search line).bytes := by
  have first : marker.text = '('.toUInt8 :: (name ++ text ")") := spelled
  have unopened : '('.toUInt8 ∉ line.source ++ text ")" := by
    rw [List.mem_append]
    rintro (inside | closing)
    · exact (line.sourced _ inside).2.1 rfl
    · exact absurd closing (by decide)
  have behind : cut marker (line.source ++ text ")") = none := by
    have passed := cut_past first unopened []
    simpa [cut] using passed
  rw [← cut_none_iff, search_bytes, cut_past first open_not_mem_upTo, Option.map_eq_none_iff]
  have unequal : ¬ marker.text <+: '('.toUInt8 :: (line.source ++ text ")") := by
    intro begins
    apply other
    apply (bracketed_unique closed close_not_mem_source _).symm
    · exact []
    · rw [← spelled, List.append_nil]
      exact begins
  change cut marker ('('.toUInt8 :: (line.source ++ text ")")) = none
  rw [cut, if_neg unequal, behind, Option.map_none]

/-- A line is cut at the start of its search path. -/
theorem cut_searchPath (rest : Bytes) :
    cut searchPath ((Line.search line).bytes ++ rest) = some (line.front, line.content ++ rest) := by
  rw [Line.bytes, List.append_assoc, List.append_assoc, cut_past rfl (not_mem_front (by decide)),
    cut_here]
  simp

end Lines

/-- Adding a line in front. -/
theorem render_cons (line : Line) (lines : List Line) :
    render (line :: lines) = line.bytes ++ newline :: render lines := by
  simp [render]

/-- The markers have no line end. -/
theorem newline_not_mem {marker : Delimiter UInt8}
    (listed : marker ∈ [ldLibraryPath, searchPath, systemSearchPath]) : newline ∉ marker.text := by
  simp only [List.mem_cons, List.not_mem_nil, or_false] at listed
  obtain rfl | rfl | rfl := listed
  · decide
  · decide
  · decide

/-- A marker is looked for behind the lines that do not contain it. -/
theorem cut_lines {marker : Delimiter UInt8}
    (listed : marker ∈ [ldLibraryPath, searchPath, systemSearchPath]) {front : List Line}
    (absent : ∀ line ∈ front, ¬ marker.text <:+: line.bytes) (lines : List Line) :
    cut marker (render (front ++ lines)) = (cut marker (render lines)).map fun halves =>
      (render front ++ halves.1, halves.2) := by
  induction front with
  | nil => simp [render]
  | cons line front inductionHypothesis =>
    have later := inductionHypothesis fun other member => absent other (List.mem_cons_of_mem line member)
    rw [List.cons_append, render_cons, cut_line (newline_not_mem listed) (absent line List.mem_cons_self),
      later, Option.map_map, render_cons]
    congr 1
    funext halves
    simp only [Function.comp_apply, List.append_assoc, List.cons_append]

/-- The first search path of some lines is that of their first line about one. -/
theorem first_search {lines : List Line} {found : SearchLine} {rest : List SearchLine}
    (parts : searches lines = found :: rest) :
    ∃ front back, cut searchPath (render lines) =
      some (front, found.content ++ newline :: render back) ∧ searches back = rest := by
  obtain ⟨front, line, back, rfl, others, search, remaining⟩ := List.filterMap_eq_cons_iff.mp parts
  have absent : ∀ other ∈ front, ¬ searchPath.text <:+: other.bytes := by
    intro other member
    cases other with
    | search line => cases others _ member
    | other line => exact line.unmarked searchPath (by simp)
  cases line with
  | search line =>
    obtain rfl := Option.some.inj search
    refine ⟨render front ++ line.front, back, ?_, remaining⟩
    rw [cut_lines (by simp) absent, render_cons, cut_searchPath, Option.map_some]
  | other line => cases search

/-- Lines without the source `LD_LIBRARY_PATH` do not mention it as a source. -/
theorem unmentioned {lines : List Line}
    (none : ∀ line ∈ searches lines, line.source ≠ text "LD_LIBRARY_PATH") :
    ∀ line ∈ lines, ¬ ldLibraryPath.text <:+: line.bytes := by
  intro line member
  cases line with
  | search line =>
    have listed : line ∈ searches lines := List.mem_filterMap.mpr ⟨_, member, rfl⟩
    exact other_source ldLibraryPath rfl (by decide) (none line listed)
  | other line => exact line.unmarked ldLibraryPath (by simp)

/-- Without that source the search starts at the front. -/
theorem anchored_front {lines : List Line}
    (none : ∀ line ∈ searches lines, line.source ≠ text "LD_LIBRARY_PATH") :
    anchored (render lines) = render lines := by
  have listed : ldLibraryPath ∈ [ldLibraryPath, searchPath, systemSearchPath] := List.mem_cons_self
  have uncut : cut ldLibraryPath (render lines) = Option.none := by
    simpa [render, cut] using cut_lines listed (unmentioned none) []
  simp only [anchored, uncut]

/-- The first line with the source `LD_LIBRARY_PATH` has its first mention as a source. -/
theorem first_anchor {lines : List Line} {front rest : List SearchLine} {anchor : SearchLine}
    (parts : searches lines = front ++ anchor :: rest)
    (earlier : ∀ line ∈ front, line.source ≠ text "LD_LIBRARY_PATH")
    (named : anchor.source = text "LD_LIBRARY_PATH") :
    ∃ before back, cut ldLibraryPath (render lines) = some (before, newline :: render back) ∧
      searches back = rest := by
  obtain ⟨first, second, rfl, rfl, behind⟩ := List.filterMap_eq_append_iff.mp parts
  obtain ⟨others, line, back, rfl, unsearched, search, remaining⟩ := List.filterMap_eq_cons_iff.mp behind
  have absent : ∀ other ∈ first ++ others, ¬ ldLibraryPath.text <:+: other.bytes := by
    apply unmentioned
    intro other member
    have none : searches others = [] := List.filterMap_eq_nil_iff.mpr unsearched
    rw [searches, List.filterMap_append, ← searches, ← searches, none, List.append_nil] at member
    exact earlier other member
  cases line with
  | search line =>
    obtain rfl := Option.some.inj search
    have spelled : ldLibraryPath.text = bracketed line.source := by
      rw [named]
      rfl
    refine ⟨render (first ++ others) ++ (line.front ++ searchPath.text ++ line.paths ++ line.tabs), back,
      ?_, remaining⟩
    rw [← List.append_assoc, cut_lines (by simp) absent, render_cons, search_bytes,
      cut_source spelled open_not_mem_upTo, Option.map_some]
  | other line => cases search

/-- Without the source `LD_LIBRARY_PATH` a report selects the system's line when it is the first
one about a search path. -/
theorem selects_front_iff {report : Report}
    (none : ∀ line ∈ report.others, line.source ≠ text "LD_LIBRARY_PATH") :
    report.Selects ↔ report.others = [] := by
  constructor
  · rintro (empty | ⟨front, last, split, named, _⟩)
    · exact empty
    · exact absurd named (none last (by simp [split]))
  · exact Or.inl

/-- Otherwise it does so when no line about a search path is between the two. -/
theorem selects_behind_iff {report : Report} {front rest : List SearchLine} {anchor : SearchLine}
    (split : report.others = front ++ anchor :: rest)
    (earlier : ∀ line ∈ front, line.source ≠ text "LD_LIBRARY_PATH")
    (named : anchor.source = text "LD_LIBRARY_PATH") : report.Selects ↔ rest = [] := by
  constructor
  · rintro (empty | ⟨others, last, same, _, unnamed⟩)
    · simp [split] at empty
    · -- Another line behind the anchor would put the anchor in front of the last line.
      obtain rfl | ⟨between, final, rfl⟩ := List.eq_nil_or_concat rest
      · rfl
      · have parts : (front ++ anchor :: between) ++ [final] = others ++ [last] := by
          rw [← same, split, List.concat_eq_append]
          simp
        obtain ⟨rfl, _⟩ := List.append_inj' parts rfl
        exact absurd named (unnamed anchor (by simp))
  · rintro rfl
    exact Or.inr ⟨front, anchor, split, named, earlier⟩

/-- What is searched consists of whole lines behind a front without a search path. The last of
them about a search path is that of the system, and it is the only one for a report that
selects it. -/
theorem anchored_report (report : Report) :
    ∃ front back rest, anchored (render report.lines) = front ++ render back ∧
      's'.toUInt8 ∉ front ∧ searches back = rest ++ [report.system] ∧
      (∀ line ∈ rest, line ∈ report.others) ∧ (report.Selects ↔ rest = []) := by
  cases found : report.others.find? fun line => line.source = text "LD_LIBRARY_PATH" with
  | none =>
    have others : ∀ line ∈ report.others, line.source ≠ text "LD_LIBRARY_PATH" := by
      simpa using List.find?_eq_none.mp found
    have none : ∀ line ∈ searches report.lines, line.source ≠ text "LD_LIBRARY_PATH" := by
      rw [report.parts, List.forall_mem_append, List.forall_mem_singleton, report.named]
      exact ⟨others, by decide⟩
    exact ⟨[], report.lines, report.others, anchored_front none, List.not_mem_nil, report.parts,
      fun _ => id, selects_front_iff others⟩
  | some anchor =>
    obtain ⟨named, front, rest, split, earlier⟩ := List.find?_eq_some_iff_append.mp found
    have named : anchor.source = text "LD_LIBRARY_PATH" := of_decide_eq_true named
    have earlier : ∀ line ∈ front, line.source ≠ text "LD_LIBRARY_PATH" := by simpa using earlier
    have parts : searches report.lines = front ++ anchor :: (rest ++ [report.system]) := by
      rw [report.parts, split, List.append_assoc, List.cons_append]
    obtain ⟨before, back, mentioned, remaining⟩ := first_anchor parts earlier named
    refine ⟨ldLibraryPath.text ++ [newline], back, rest, ?_, by decide, remaining, ?_,
      selects_behind_iff split earlier named⟩
    · simp only [anchored, mentioned, List.append_assoc, List.singleton_append]
    · intro line member
      rw [split]
      exact List.mem_append_right front (List.mem_cons_of_mem anchor member)

/-- A line about a search path stands in the report. -/
theorem bytes_rendered {lines : List Line} {line : SearchLine} (member : line ∈ searches lines) :
    (Line.search line).bytes <:+: render lines := by
  obtain ⟨found, listed, same⟩ := List.mem_filterMap.mp member
  obtain rfl : found = .search line := by
    cases found with
    | search other => rw [Option.some.inj same]
    | other other => cases same
  obtain ⟨front, back, rfl⟩ := List.append_of_mem listed
  refine ⟨render front, newline :: render back, ?_⟩
  simp [render]

/-- The directories of a line are what is left of its search path without white space. -/
theorem paths_filter (line : SearchLine) :
    (line.paths ++ line.tabs).filter (fun ch => !isspace ch) = line.paths := by
  have kept : line.paths.filter (fun ch => !isspace ch) = line.paths := by
    rw [List.filter_eq_self]
    intro ch present
    obtain rfl | ⟨dir, member, inside⟩ := mem_intercalate present
    · decide
    · simp [(line.plain dir member ch inside).1]
  have dropped : line.tabs.filter (fun ch => !isspace ch) = [] := by
    rw [List.filter_eq_nil_iff]
    intro ch present
    simp [(line.blank ch (List.mem_append_right line.gap present)).1]
  rw [List.filter_append, kept, dropped, List.append_nil]

/-- A report that selects the search path of the system gives its directories. -/
theorem sysPath_selected {report : Report} (selects : report.Selects) :
    sysPath (render report.lines) = some report.system.paths := by
  obtain ⟨front, back, rest, searched, unmarked, parts, _, selects_iff⟩ := anchored_report report
  obtain rfl := selects_iff.mp selects
  obtain ⟨before, behind, split, _⟩ := first_search parts
  have spelled : systemSearchPath.text = bracketed report.system.source := by
    rw [report.named]
    rfl
  rw [sysPath_eq, searched, cut_past rfl unmarked, split]
  simp only [Option.map_some, Option.bind_some, SearchLine.content]
  rw [cut_source spelled open_not_mem_paths, Option.map_some, paths_filter]

/-- The line of the system mentions it as a source. -/
theorem mentions_system (report : Report) {lines : List Line} (member : report.system ∈ searches lines) :
    systemSearchPath.text <:+: render lines := by
  have ends : (Line.search report.system).bytes = (report.system.front ++ searchPath.text ++
      report.system.paths ++ report.system.tabs) ++ systemSearchPath.text := by
    rw [search_bytes, report.named]
    rfl
  exact List.IsInfix.trans ⟨_, [], by rw [List.append_nil, ends]⟩ (bytes_rendered member)

/-- In any other report an earlier source is taken for a part of the path. -/
theorem sysPath_unselected {report : Report} (unselected : ¬ report.Selects) :
    ∃ taken, sysPath (render report.lines) = some taken ∧ '('.toUInt8 ∈ taken := by
  obtain ⟨front, back, rest, searched, unmarked, parts, listed, selects_iff⟩ := anchored_report report
  obtain ⟨line, others, rfl⟩ := List.exists_cons_of_ne_nil (mt selects_iff.mpr unselected)
  obtain ⟨before, behind, split, remaining⟩ := first_search parts
  have source : line.source ≠ text "system search path" :=
    report.single line (listed line List.mem_cons_self)
  have mentioned : systemSearchPath.text <:+: render behind :=
    mentions_system report (by simp [remaining])
  have first : ¬ systemSearchPath.text <+: '('.toUInt8 :: (line.source ++ text ")" ++
      newline :: render behind) := by
    intro begins
    have named : bracketed (text "system search path") <+:
        bracketed line.source ++ newline :: render behind := begins
    exact source (bracketed_unique (by decide) close_not_mem_source named).symm
  cases found : cut systemSearchPath (line.source ++ text ")" ++ newline :: render behind) with
  | none =>
    have absent := (cut_none_iff _ _).mp found
    exact absurd (mentioned.trans ⟨line.source ++ text ")" ++ [newline], [], by simp⟩) absent
  | some halves =>
    have opened : cut systemSearchPath (bracketed line.source ++ newline :: render behind) =
        some ('('.toUInt8 :: halves.1, halves.2) := by
      change cut systemSearchPath ('('.toUInt8 :: (line.source ++ text ")" ++ _)) = _
      rw [cut, if_neg first, found, Option.map_some]
    refine ⟨(line.paths ++ line.tabs ++ '('.toUInt8 :: halves.1).filter fun ch => !isspace ch, ?_, ?_⟩
    · rw [sysPath_eq, searched, cut_past rfl unmarked, split]
      simp only [Option.map_some, Option.bind_some, SearchLine.content]
      rw [List.append_assoc, cut_past rfl open_not_mem_paths, opened, Option.map_some, Option.map_some]
    · rw [List.mem_filter]
      exact ⟨by simp, by decide⟩

section Calls

variable {growth : Growth} {shell : Bytes → Option Bytes} {output : Bytes}

/-- A call adds the components of `SysPath` that are directories, and nothing else. -/
theorem call_iff (printed : shell (command debugCommand true) = some output)
    (isDirectory : Bytes → Bool) (paths : List Bytes) (result : Except Overrun (Bool × List Bytes)) :
    (∃ fuel, getSystemLibraryPaths growth shell isDirectory fuel paths = some result) ↔
      result = .ok (true, paths ++ ((sysPath output).elim [] fun taken =>
        (components kEnvDelim taken).filter isDirectory)) := by
  have adds : ∀ fuel after, popen growth shell fuel debugCommand (inlineStorage 1024) true =
      some (.ok (decide (output ≠ []), after)) → after.elements = output →
      getSystemLibraryPaths growth shell isDirectory fuel paths =
        some (.ok (true, paths ++ ((sysPath output).elim [] fun taken =>
          (components kEnvDelim taken).filter isDirectory))) := by
    intro fuel after returned elements
    simp only [getSystemLibraryPaths, returned, elements]
    cases sysPath output with
    | none => simp
    | some taken =>
      have tolerated : Tolerated isDirectory .kPruneNonExistant kEnvDelim taken := nofun
      simp [split_tolerated fuel taken [] tolerated, recorded]
  have positive : 0 < (inlineStorage 1024).capacity := by decide
  constructor
  · rintro ⟨fuel, returned⟩
    cases read : popen growth shell fuel debugCommand (inlineStorage 1024) true with
    | none => simp [getSystemLibraryPaths, read] at returned
    | some left =>
      obtain ⟨after, rfl, elements⟩ := popen_returns printed positive read
      exact Option.some.inj (returned.symm.trans (adds fuel after read elements))
  · rintro rfl
    have reads : ReadsAll growth shell debugCommand (inlineStorage 1024) true output :=
      popen_reads printed positive
    obtain ⟨fuel, after, returned, elements⟩ := reads
    exact ⟨fuel, adds fuel after returned elements⟩

/-- A call returns, and adds exactly the directories of the system's line that exist, in order.
An empty string between two colons names no directory. -/
def AppendsSystem (growth : Growth) (shell : Bytes → Option Bytes) (report : Report) : Prop :=
  ∀ isDirectory paths, ∃ fuel, getSystemLibraryPaths growth shell isDirectory fuel paths =
    some (.ok (true, paths ++ (nonempty report.system.dirs).filter isDirectory))

/-- The components of a search path are its directories. -/
theorem components_paths (line : SearchLine) :
    components kEnvDelim line.paths = nonempty line.dirs := by
  apply components_intercalate rfl
  intro dir member colon
  exact (line.plain dir member _ colon).2.1 rfl

/-- When a report does not select the system's line, an entry has a parenthesis in it if every
directory exists. -/
theorem unselected_differs {report : Report}
    (printed : shell (command debugCommand true) = some (render report.lines))
    (unselected : ¬ report.Selects) : ¬ AppendsSystem growth shell report := by
  intro appends
  obtain ⟨taken, found, opened⟩ := sysPath_unselected unselected
  have all := (call_iff printed (fun _ => true) [] _).mp (appends (fun _ => true) [])
  simp only [found, Option.elim_some, List.nil_append, Except.ok.injEq, Prod.mk.injEq, true_and,
    List.filter_true] at all
  have other : '('.toUInt8 ∉ kEnvDelim.text := by decide
  obtain ⟨piece, member, inside⟩ := mem_pieces other opened
  have component : piece ∈ components kEnvDelim taken :=
    mem_nonempty.mpr ⟨member, List.ne_nil_of_mem inside⟩
  rw [← all] at component
  exact (report.system.plain piece (mem_nonempty.mp component).1 _ inside).2.2.1 rfl

/-- `GetSystemLibraryPaths` adds the directories of the system's line exactly when the report
has no search path between the place where the search starts and that line. -/
theorem appends_system_iff (growth : Growth) (shell : Bytes → Option Bytes) (report : Report)
    (printed : shell (command debugCommand true) = some (render report.lines)) :
    AppendsSystem growth shell report ↔ report.Selects := by
  constructor
  · intro appends
    by_contra unselected
    exact unselected_differs printed unselected appends
  · intro selects isDirectory paths
    rw [call_iff printed, sysPath_selected selects, Option.elim_some, components_paths]

end Calls

/-- A property of the bytes of a text, checked one by one. -/
theorem forall_checked {property : UInt8 → Prop} [DecidablePred property] {bytes : Bytes}
    (checked : (bytes.all fun ch => decide (property ch)) = true) : ∀ ch ∈ bytes, property ch := by
  simpa using checked

/-- The same for the bytes of several texts. -/
theorem forall_checked_all {property : UInt8 → Prop} [DecidablePred property] {texts : List Bytes}
    (checked : (texts.all fun bytes => bytes.all fun ch => decide (property ch)) = true) :
    ∀ bytes ∈ texts, ∀ ch ∈ bytes, property ch := by
  simpa using checked

/-- A search path that the loader takes from the system. -/
def systemLine : SearchLine where
  pid := text "  7"
  gap := text "\t "
  dirs := [text "/lib", text "/usr/lib"]
  tabs := text "\t\t"
  source := text "system search path"
  numeric := forall_checked (by decide)
  blank := forall_checked (by decide)
  plain := forall_checked_all (by decide)
  sourced := forall_checked (by decide)

/-- A search path that it takes from a program. -/
def rpathLine : SearchLine where
  pid := text "  7"
  gap := text "\t "
  dirs := [text "/opt"]
  tabs := text "\t\t"
  source := text "RPATH"
  numeric := forall_checked (by decide)
  blank := forall_checked (by decide)
  plain := forall_checked_all (by decide)
  sourced := forall_checked (by decide)

def plainReport : Report where
  lines := [.search systemLine]
  others := []
  system := systemLine
  parts := rfl
  named := rfl
  single := nofun

def rpathReport : Report where
  lines := [.search rpathLine, .search systemLine]
  others := [rpathLine]
  system := systemLine
  parts := rfl
  named := rfl
  single := by simp [rpathLine]; decide

/-- A shell whose loader prints a report. -/
def printing (report : Report) : Bytes → Option Bytes :=
  oneCommand (command debugCommand true) (render report.lines)

/-- The command of the call lets it print the report. -/
theorem printing_report (report : Report) :
    printing report (command debugCommand true) = some (render report.lines) := by
  simp only [printing, oneCommand, ↓reduceIte]

/-- The equivalence for a report with one line. -/
theorem plain_appends : AppendsSystem doubling (printing plainReport) plainReport ↔ plainReport.Selects :=
  appends_system_iff doubling (printing plainReport) plainReport (printing_report plainReport)

/-- Without `LD_LIBRARY_PATH`, a path from a program is run together with that of the system. -/
theorem rpath_glued :
    sysPath (render rpathReport.lines) = some (text "/opt(RPATH)7:searchpath=/lib:/usr/lib") ∧
      ¬ AppendsSystem doubling (printing rpathReport) rpathReport := by
  refine ⟨by decide, unselected_differs (printing_report rpathReport) ?_⟩
  rintro (empty | ⟨front, last, split, named, _⟩)
  · cases empty
  · obtain ⟨rfl, same⟩ := List.append_inj' (show [] ++ [rpathLine] = front ++ [last] from split) rfl
    obtain rfl := List.singleton_injective same
    exact absurd named (by decide)

end CppInterpreter.SystemLibraryPaths
